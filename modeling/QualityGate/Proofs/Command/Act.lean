import Mathlib
import QualityGate.Command.Perform
import QualityGate.Proofs.Console.Markup
import QualityGate.Proofs.Run

/-! What a command does in its session, apart from what it prints: a run. The
command ends with 0 where the run succeeds. -/

namespace QualityGate.Command

def Ending.code : Ending → Nat
  | .exit code => code
  | .failed (.interrupted _) => 130
  | .failed _ => 1

theorem Performed.exitCode_eq (p : Performed) : p.exitCode = p.ending.code := by
  obtain ⟨output, ending, s⟩ := p
  cases ending with
  | exit code => rfl
  | failed e => cases e <;> rfl

theorem Ending.code_failed (e : Failure) : (Ending.failed e).code ≠ 0 := by
  cases e <;> nofun

namespace Act

variable {α β : Type}

theorem bind_apply (a : Act α) (f : α → Act β) (x : Console) :
    (a >>= f) x = match a x with
      | (.ok v, y) => f v y
      | (.error e, y) => (.error e, y) := by
  change ExceptT.bindCont f (a x).1 (a x).2 = _
  rcases a x with ⟨_ | _, _⟩ <;> rfl

theorem bind_of_ok {a : Act α} {f : α → Act β} {x y : Console} {v : α} (h : a x = (.ok v, y)) : (a >>= f) x = f v y := by
  rw [bind_apply, h]

theorem bind_of_error {a : Act α} {f : α → Act β} {x y : Console} {e : Ending} (h : a x = (.error e, y)) :
    (a >>= f) x = (.error e, y) := by
  rw [bind_apply, h]

/-- An act that ends the command with a code other than 0 and leaves the session. -/
def Fails (a : Act α) : Prop :=
  ∀ x, ∃ e printed, a x = (.error e, { x with printed }) ∧ e.code ≠ 0

theorem fails_failed (e : Failure) : Fails (throw (.failed e) : Act α) :=
  fun x => ⟨.failed e, x.printed, rfl, Ending.code_failed e⟩

theorem say_apply (markup : String) (x : Console) :
    say markup x = match Console.shown x.session.terminal markup with
      | .ok text => (.ok (), { x with printed := (text ++ "\n") :: x.printed })
      | .error e => (.error (.failed e), x) := by
  rw [say, bind_of_ok (a := get) (y := x) rfl]
  cases Console.shown x.session.terminal markup <;> rfl

theorem say_of_shown {markup text : String} {x : Console} (h : Console.shown x.session.terminal markup = .ok text) :
    say markup x = (.ok (), { x with printed := (text ++ "\n") :: x.printed }) := by
  rw [say_apply, h]

/-- A message that cannot be shown ends the command as well. -/
theorem fails_report (markup : String) : Fails (do say markup; throw (.exit 1) : Act α) := by
  intro x
  cases h : Console.shown x.session.terminal markup with
  | ok t => exact ⟨.exit 1, _, bind_of_ok (say_of_shown h), Nat.one_ne_zero⟩
  | error e =>
    have hsay : say markup x = (.error (.failed e), x) := by rw [say_apply, h]
    exact ⟨.failed e, x.printed, bind_of_error hsay, Ending.code_failed e⟩

/-- What an act does in its session is what a run does there. Only where it fails does it print something. -/
def Follows (a : Act α) (r : Run α) : Prop :=
  ∀ x : Console,
    (∃ v s, r x.session = (.ok v, s) ∧ a x = (.ok v, { x with session := s })) ∨
      ∃ e s ending printed, r x.session = (.error e, s) ∧ a x = (.error ending, ⟨s, printed⟩) ∧ ending.code ≠ 0

namespace Follows

variable {a : Act α} {f : α → Act β} {r : Run α} {g : α → Run β}

theorem pure (v : α) : Follows (Pure.pure v) (Pure.pure v) := fun x => .inl ⟨v, x.session, rfl, rfl⟩

theorem bind (h : Follows a r) (hf : ∀ v, Follows (f v) (g v)) : Follows (a >>= f) (r >>= g) := by
  intro x
  rcases h x with ⟨v, s, hr, ha⟩ | ⟨e, s, ending, printed, hr, ha, hcode⟩
  · rw [bind_of_ok ha, Run.bind_apply, hr]
    exact hf v { x with session := s }
  · refine .inr ⟨e, s, ending, printed, ?_, bind_of_error ha, hcode⟩
    rw [Run.bind_apply, hr]

theorem fails (h : Fails a) (e : Failure) : Follows a (throw e) := by
  intro x
  obtain ⟨ending, printed, ha, hcode⟩ := h x
  exact .inr ⟨e, x.session, ending, printed, rfl, ha, hcode⟩

theorem workspace : Follows Act.workspace Run.workspace := fun x => .inl ⟨_, x.session, rfl, rfl⟩

/-- A run whose value is passed on and whose failures end the command. -/
theorem attempt {f : Outcome α → Act α} (hok : ∀ v, f (.ok v) = Pure.pure v) (herror : ∀ e, Fails (f (.error e)))
    (r : Run α) : Follows (Act.attempt r >>= f) r := by
  intro x
  rcases hr : r x.session with ⟨e | v, s⟩
  · have hattempt : Act.attempt r x = (.ok (.error e), { x with session := s }) := by
      rw [Act.attempt, hr]
    obtain ⟨ending, printed, he, hcode⟩ := herror e { x with session := s }
    exact .inr ⟨e, s, ending, printed, rfl, (bind_of_ok hattempt).trans he, hcode⟩
  · have hattempt : Act.attempt r x = (.ok (.ok v), { x with session := s }) := by
      rw [Act.attempt, hr]
    refine .inl ⟨v, s, rfl, ?_⟩
    rw [bind_of_ok hattempt, hok]
    rfl

theorem perform (r : Run α) : Follows (Act.perform r) r := attempt (fun _ => rfl) fails_failed r

theorem reporting (heading : String) (r : Run α) : Follows (Act.reporting heading r) r := by
  refine attempt (fun _ => rfl) (fun e => ?_) r
  dsimp only
  split
  · exact fails_report _
  · exact fails_failed e

end Follows

/-- The configuration that a command finds. -/
def configuration (t : Target) : Run Config := do
  Run.lift (Config.load (← Run.workspace) t.configFile)

theorem follows_loadConfig (t : Target) : Follows (loadConfig t) (configuration t) := by
  refine .bind .workspace fun w => ?_
  cases Config.load w t.configFile with
  | ok c => exact .pure c
  | error e =>
    refine .fails ?_ e
    dsimp only
    split
    · exact fails_report _
    · exact fails_report _
    · exact fails_failed _

theorem follows_savedState (root : Path) : Follows (savedState root) (loadState root) := by
  refine .attempt (fun _ => rfl) (fun e => ?_) _
  dsimp only
  split
  · exact fails_report _
  · exact fails_failed e

end Act

/-! A command as a whole. -/

def Performed.ofConsole (went : Except Ending Unit × Console) : Performed where
  output := String.join went.2.printed.reverse
  ending := match went.1 with
    | .ok () => .exit 0
    | .error e => e
  session := went.2.session

/-- Where one line is printed it is the output. -/
theorem Performed.ofConsole_line (o : Except Ending Unit) (line : String) (s : Session) :
    ofConsole (o, ⟨s, [line]⟩) = ⟨line, (ofConsole (o, ⟨s, [line]⟩)).ending, s⟩ := by
  simp [ofConsole]

/-- Performs a command in a session. -/
def performed (c : Command) (s : Session) : Performed := .ofConsole (act c { session := s })

/-- A command first does what a run does. Where that fails the command does, and nothing more is done. -/
theorem performed_cases {α : Type} {c : Command} {a : Act α} {f : α → Act Unit} {r : Run α} (hact : act c = a >>= f)
    (ha : Act.Follows a r) (s : Session) :
    (∃ v s', r s = (.ok v, s') ∧ c.performed s = .ofConsole (f v { session := s' })) ∨
      ∃ e s', r s = (.error e, s') ∧ (c.performed s).session = s' ∧ (c.performed s).exitCode ≠ 0 := by
  rcases ha { session := s } with ⟨v, s', hr, hgoes⟩ | ⟨e, s', ending, printed, hr, hstops, hcode⟩
  · exact .inl ⟨v, s', hr, by rw [performed, hact, Act.bind_of_ok hgoes]⟩
  · refine .inr ⟨e, s', hr, ?_⟩
    rw [performed, hact, Act.bind_of_error hstops, Performed.exitCode_eq]
    exact ⟨rfl, hcode⟩

/-- A command that does in its session what a run does, and ends with 0 just where the run succeeds. -/
def CarriesOut {α : Type} (c : Command) (r : Run α) : Prop :=
  ∀ s,
    (∃ v s', r s = (.ok v, s') ∧ (c.performed s).session = s' ∧ (c.performed s).exitCode = 0) ∨
      ∃ e s', r s = (.error e, s') ∧ (c.performed s).session = s' ∧ (c.performed s).exitCode ≠ 0

/-- A message at the end, if it can be shown, changes nothing. -/
theorem carriesOut_of_said {α : Type} {c : Command} {a : Act α} {line : α → String} {r : Run α}
    (hact : act c = a >>= fun v => Act.say (line v)) (ha : Act.Follows a r)
    (hline : ∀ v terminal, ∃ text, Console.shown terminal (line v) = .ok text) : c.CarriesOut r := by
  intro s
  refine (performed_cases hact ha s).imp_left fun ⟨v, s', hr, hdone⟩ => ?_
  obtain ⟨text, htext⟩ := hline v s'.terminal
  rw [Act.say_of_shown htext] at hdone
  rw [Performed.exitCode_eq, hdone]
  exact ⟨v, s', hr, rfl, rfl⟩

end QualityGate.Command
