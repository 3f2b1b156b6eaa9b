import QualityGate.Count.Counter
import QualityGate.Proofs.Run

/-! What the quick count gives, category by category, as a function of the
files, the replies of the tools and the editor's diagnostics. -/

namespace QualityGate

theorem Bench.reply_call_of_ne {b : Bench} {c : ToolCall} {tool : String} (h : tool ≠ c.tool) :
    (b.call c).2.reply tool = b.reply tool := by
  simp only [reply, call]
  congr 1
  generalize b.replies = rs
  induction rs with
  | nil => rfl
  | cons entry rest ih =>
    obtain ⟨name, replies⟩ := entry
    by_cases hn : name = c.tool
    · simp [hn, List.lookup_cons, beq_eq_false_iff_ne.mpr h, ← ih]
    · simp [hn, List.lookup_cons, ← ih]

namespace Count

section

variable (root : Path) (config : Config) (editor : Option Provider)

def typeCheckOutcome (s : Session) : Outcome Category :=
  let tool := config.tools.typeCheck
  if Check.TypeChecking.hasProject s.workspace root tool then
    Category.ofReply tool.name .typeCheck Category.ofTypeCheck (s.bench.reply tool.name)
      (editor.map (Provider.all s.workspace))
  else .ok { tool := tool.name }

def lintOutcome (s : Session) : Outcome Category :=
  let tool := config.tools.lint
  Category.ofReply tool.name .lint Category.ofLint (s.bench.reply tool.name) (editor.map (Provider.all s.workspace))

/-- The session once a tool was called for the quick count. -/
def afterCall (tool : ToolCommand) (s : Session) : Session :=
  { s with bench := (s.bench.call (tool.toCall config.tools.counterTimeout)).2 }

def afterTypeCheck (s : Session) : Session :=
  if Check.TypeChecking.hasProject s.workspace root config.tools.typeCheck then
    afterCall config config.tools.typeCheck s
  else s

theorem typeCheckCategory_apply (s : Session) :
    typeCheckCategory root config editor s =
      (typeCheckOutcome root config editor s, afterTypeCheck root config s) := by
  cases h : Check.TypeChecking.hasProject s.workspace root config.tools.typeCheck <;>
    simp [typeCheckCategory, typeCheckOutcome, afterTypeCheck, afterCall, Run.bind_apply, h, ToolCommand.toCall]

theorem lintCategory_apply (s : Session) :
    lintCategory config editor s = (lintOutcome config editor s, afterCall config config.tools.lint s) := by
  simp [lintCategory, lintOutcome, afterCall, Run.bind_apply, ToolCommand.toCall]

end

variable {root : Path} {config : Config} {editor : Option Provider}

/-- Calling the compiler does not change what the linter replies. -/
theorem lintOutcome_afterTypeCheck {s : Session} (h : config.tools.lint.name ≠ config.tools.typeCheck.name) :
    lintOutcome config editor (afterTypeCheck root config s) = lintOutcome config editor s := by
  unfold afterTypeCheck
  split
  · simp only [lintOutcome, afterCall, Bench.reply_call_of_ne (c := config.tools.typeCheck.toCall _) h]
  · rfl

theorem afterTypeCheck_workspace {s : Session} : (afterTypeCheck root config s).workspace = s.workspace := by
  unfold afterTypeCheck
  split <;> rfl

theorem afterTypeCheck_events {s : Session} : (afterTypeCheck root config s).events = s.events := by
  unfold afterTypeCheck
  split <;> rfl

theorem stopIfInterrupted_ok (c : Category) (s : Session) : stopIfInterrupted (.ok c) s = (.ok (), s) := rfl

theorem stopIfInterrupted_error (e : Failure) (s : Session) :
    stopIfInterrupted (.error e) s = (.ok (), s) ∨ stopIfInterrupted (.error e) s = (.error e, s) := by
  cases e with
  | interrupted detail => exact .inr rfl
  | _ => exact .inl rfl

/-- Nothing is published of a count but that its zero is suspicious. -/
theorem run_of_both_ok {s : Session} {typeCheck lint : Category}
    (ht : typeCheckOutcome root config editor s = .ok typeCheck)
    (hl : lintOutcome config editor (afterTypeCheck root config s) = .ok lint) :
    ∃ s', run root config editor s = (.ok (merge typeCheck lint), s') ∧
      s'.events = s.events ++ if (merge typeCheck lint).suspiciousZero then
        [.suspiciousZero (merge typeCheck lint).failedTools] else [] := by
  simp only [run, Run.bind_apply, Run.attempt_apply, typeCheckCategory_apply, lintCategory_apply, ht, hl,
    stopIfInterrupted_ok, Run.lift_apply]
  split
  case isTrue hz => exact ⟨_, rfl, by simp [afterCall, afterTypeCheck_events]⟩
  case isFalse hz => exact ⟨_, rfl, by simp [afterCall, afterTypeCheck_events]⟩

theorem run_of_ok {s : Session} {typeCheck lint : Category}
    (ht : typeCheckOutcome root config editor s = .ok typeCheck)
    (hl : lintOutcome config editor (afterTypeCheck root config s) = .ok lint) :
    (run root config editor s).1 = .ok (merge typeCheck lint) := by
  obtain ⟨s', hrun, -⟩ := run_of_both_ok ht hl
  rw [hrun]

theorem run_of_second_error {s : Session} {typeCheck : Category} {e : Failure}
    (ht : typeCheckOutcome root config editor s = .ok typeCheck)
    (hl : lintOutcome config editor (afterTypeCheck root config s) = .error e) :
    ∃ s', run root config editor s = (.error e, s') ∧ s'.events = s.events := by
  have hevents : (afterCall config config.tools.lint (afterTypeCheck root config s)).events = s.events :=
    afterTypeCheck_events
  refine ⟨_, ?_, hevents⟩
  rcases stopIfInterrupted_error e (afterCall config config.tools.lint (afterTypeCheck root config s)) with h | h <;>
    simp [run, Run.bind_apply, typeCheckCategory_apply, lintCategory_apply, ht, hl, stopIfInterrupted_ok, h]

theorem run_of_lint_error {s : Session} {e : Failure}
    (hl : lintOutcome config editor (afterTypeCheck root config s) = .error e) :
    ∃ f, (run root config editor s).1 = .error f := by
  cases ht : typeCheckOutcome root config editor s with
  | ok typeCheck =>
    rcases stopIfInterrupted_error e (afterCall config config.tools.lint (afterTypeCheck root config s)) with h | h <;>
      simp [run, Run.bind_apply, typeCheckCategory_apply, lintCategory_apply, ht, hl, stopIfInterrupted_ok, h]
  | error f =>
    rcases stopIfInterrupted_error f (afterTypeCheck root config s) with h | h <;>
    rcases stopIfInterrupted_error e (afterCall config config.tools.lint (afterTypeCheck root config s)) with h' | h' <;>
      simp [run, Run.bind_apply, typeCheckCategory_apply, lintCategory_apply, ht, hl, h, h']

theorem run_of_typeCheck_error {s : Session} {e : Failure}
    (ht : typeCheckOutcome root config editor s = .error e) : ∃ f, (run root config editor s).1 = .error f := by
  cases hl : lintOutcome config editor (afterTypeCheck root config s) with
  | ok lint =>
    rcases stopIfInterrupted_error e (afterTypeCheck root config s) with h | h <;>
      simp [run, Run.bind_apply, typeCheckCategory_apply, lintCategory_apply, ht, hl, stopIfInterrupted_ok, h]
  | error f => exact run_of_lint_error hl

/-- A count merges what both categories gave. -/
theorem run_eq_ok_iff {s : Session} {c : ErrorCount} :
    (run root config editor s).1 = .ok c ↔
      ∃ typeCheck lint, typeCheckOutcome root config editor s = .ok typeCheck ∧
        lintOutcome config editor (afterTypeCheck root config s) = .ok lint ∧ c = merge typeCheck lint := by
  constructor
  · intro h
    cases ht : typeCheckOutcome root config editor s with
    | error e =>
      obtain ⟨f, hf⟩ := run_of_typeCheck_error ht
      simp [h] at hf
    | ok typeCheck =>
      cases hl : lintOutcome config editor (afterTypeCheck root config s) with
      | error e =>
        obtain ⟨f, hf⟩ := run_of_lint_error hl
        simp [h] at hf
      | ok lint =>
        rw [run_of_ok ht hl] at h
        exact ⟨typeCheck, lint, rfl, rfl, (Except.ok.inj h).symm⟩
  · rintro ⟨typeCheck, lint, ht, hl, rfl⟩
    exact run_of_ok ht hl

end Count

end QualityGate
