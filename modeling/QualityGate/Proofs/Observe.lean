import QualityGate.Policy.Protection
import QualityGate.Proofs.Run

/-! Runs that only look: counts, audits and decisions change no file and no git
setting, and make no transition known. Nor do they depend on what was made known
before. -/

namespace QualityGate

/-- The state that an event makes known. -/
def Event.state? : Event → Option PolicyState
  | .policyTransition state => some state
  | _ => none

/-- The states that were made known, the earliest first. -/
def Session.transitions (s : Session) : List PolicyState := s.events.filterMap Event.state?

/-- What a run that only looks leaves as it was. -/
structure Session.Undisturbed (s s' : Session) : Prop where
  workspace : s'.workspace = s.workspace
  git : s'.git = s.git
  transitions : s'.transitions = s.transitions

theorem Session.Undisturbed.refl (s : Session) : Session.Undisturbed s s := ⟨rfl, rfl, rfl⟩

theorem Session.Undisturbed.trans {s s' s'' : Session} (h : Session.Undisturbed s s')
    (h' : Session.Undisturbed s' s'') : Session.Undisturbed s s'' :=
  ⟨h'.workspace.trans h.workspace, h'.git.trans h.git, h'.transitions.trans h.transitions⟩

def Run.Observes {α : Type} (t : Run α) : Prop := ∀ s, Session.Undisturbed s (t s).2

namespace Run.Observes

variable {α β : Type} {t : Run α}

theorem pure (a : α) : Observes (pure a : Run α) := Session.Undisturbed.refl

theorem throw (e : Failure) : Observes (throw e : Run α) := Session.Undisturbed.refl

theorem lift (o : Outcome α) : Observes (Run.lift o) := by
  intro s
  rw [lift_apply]
  exact .refl s

theorem workspace : Observes Run.workspace := Session.Undisturbed.refl

theorem session : Observes (get : Run Session) := Session.Undisturbed.refl

theorem call (c : ToolCall) : Observes (Run.call c) := fun _ => ⟨rfl, rfl, rfl⟩

theorem publish {e : Event} (h : e.state? = none) : Observes (Run.publish e) := by
  intro s
  refine ⟨rfl, rfl, ?_⟩
  simp [Session.transitions, h]

theorem attempt (h : Observes t) : Observes (Run.attempt t) := h

theorem bind {f : α → Run β} (h : Observes t) (hf : ∀ a, Observes (f a)) : Observes (t >>= f) := by
  intro s
  have hs := h s
  rw [bind_apply]
  rcases ht : t s with ⟨_ | a, s'⟩
  · rwa [ht] at hs
  · rw [ht] at hs
    exact hs.trans (hf a s')

theorem ite {c : Prop} [Decidable c] {t' : Run α} (h : Observes t) (h' : Observes t') :
    Observes (if c then t else t') := by
  split
  · exact h
  · exact h'

end Run.Observes

/-- Runs that are built from those that look at the session and change nothing but the tools' replies to come. -/
inductive Run.Looks : {α : Type} → Run α → Prop
  | pure {α : Type} (a : α) : Looks (pure a : Run α)
  | throw {α : Type} (e : Failure) : Looks (throw e : Run α)
  | lift {α : Type} (o : Outcome α) : Looks (Run.lift o)
  | workspace : Looks Run.workspace
  /-- The events of the session are not looked at. -/
  | session {β : Type} {f : Session → Run β} (hf : ∀ s, Looks (f s)) (hevents : ∀ s events, f { s with events } = f s) :
      Looks (get >>= f)
  | call (c : ToolCall) : Looks (Run.call c)
  | publish {e : Event} (h : e.state? = none) : Looks (Run.publish e)
  | attempt {α : Type} {t : Run α} (h : Looks t) : Looks (Run.attempt t)
  | bind {α β : Type} {t : Run α} {f : α → Run β} (h : Looks t) (hf : ∀ a, Looks (f a)) : Looks (t >>= f)

/-- What was made known before a run has no part in its outcome, nor in what it leaves but the events. -/
def Run.Unheard {α : Type} (t : Run α) : Prop :=
  ∀ s events, ∃ events', t { s with events } = ((t s).1, { (t s).2 with events := events' })

namespace Run.Looks

variable {α β : Type} {t : Run α}

theorem ite {c : Prop} [Decidable c] {t' : Run α} (h : Looks t) (h' : Looks t') : Looks (if c then t else t') := by
  split
  · exact h
  · exact h'

theorem mapM {f : α → Run β} (as : List α) (hf : ∀ a ∈ as, Looks (f a)) : Looks (as.mapM f) := by
  induction as with
  | nil => exact pure []
  | cons a as ih =>
    obtain ⟨hhead, htail⟩ := List.forall_mem_cons.mp hf
    rw [List.mapM_cons]
    exact hhead.bind fun b => (ih htail).bind fun bs => pure (b :: bs)

theorem observes (h : Looks t) : Observes t := by
  induction h with
  | pure a => exact .pure a
  | throw e => exact .throw e
  | lift o => exact .lift o
  | workspace => exact .workspace
  | session _ _ ih => exact .bind .session ih
  | call c => exact .call c
  | publish h => exact .publish h
  | attempt _ ih => exact ih.attempt
  | bind _ _ ih ihf => exact ih.bind ihf

theorem unheard (h : Looks t) : Unheard t := by
  induction h with
  | pure a => exact fun s events => ⟨events, rfl⟩
  | throw e => exact fun s events => ⟨events, rfl⟩
  | lift o => exact fun s events => ⟨events, by rw [lift_apply, lift_apply]⟩
  | workspace => exact fun s events => ⟨events, rfl⟩
  | session _ hevents ih =>
    intro s events
    obtain ⟨events', he⟩ := ih s s events
    refine ⟨events', ?_⟩
    rw [bind_apply, bind_apply, get_apply, get_apply]
    dsimp only
    rw [hevents, he]
  | call c => exact fun s events => ⟨events, rfl⟩
  | publish h => exact fun s events => ⟨events ++ [_], rfl⟩
  | attempt _ ih =>
    intro s events
    obtain ⟨events', he⟩ := ih s events
    exact ⟨events', by rw [attempt_apply, attempt_apply, he]⟩
  | @bind α β t f _ _ ih ihf =>
    intro s events
    obtain ⟨events', he⟩ := ih s events
    rw [bind_apply, bind_apply, he]
    rcases t s with ⟨e | a, s'⟩
    · exact ⟨events', rfl⟩
    · exact ihf a s' events'

end Run.Looks

open Run

namespace Check

theorem runTool_looks (t : ToolCommand) : Looks (runTool t) := .call _

theorem perform_looks {c : Check} (hc : c ∈ all) (ctx : Context) : Looks (c.perform ctx) := by
  have hchecks : c = TypeChecking.check ∨ c = Linting.check ∨ c = Building.check ∨ c = WellFormed.check ∨
      c = Directives.check ∨ c = Dependencies.check ∨ c = Configuration.check := by
    simpa [all] using hc
  rcases hchecks with rfl | rfl | rfl | rfl | rfl | rfl | rfl
  case inl => exact .bind .workspace fun w => .ite (.bind (runTool_looks _) fun r => .lift _) (.pure _)
  case inr.inl => exact .bind (runTool_looks _) fun r => .lift _
  case inr.inr.inl =>
    refine .bind .workspace fun w => .bind (.lift _) fun lacks => .ite (.pure _) ?_
    exact .bind (runTool_looks _) fun r => .lift _
  case inr.inr.inr.inl => exact .bind .workspace fun w => .lift _
  case inr.inr.inr.inr.inl => exact .bind .workspace fun w => .pure _
  case inr.inr.inr.inr.inr.inl =>
    exact .bind .workspace fun w => .ite (.bind (runTool_looks _) fun r => .lift _) (.pure _)
  case inr.inr.inr.inr.inr.inr => exact .bind .workspace fun w => .lift _

theorem run_looks {c : Check} (hc : c ∈ all) (ctx : Context) : Looks (c.run ctx) :=
  .ite (perform_looks hc ctx) (.bind (.attempt (perform_looks hc ctx)) fun _ => .lift _)

end Check

namespace Audit

theorem runCheck_looks {c : Check} (hc : c ∈ Check.all) (ctx : Context) : Looks (runCheck ctx c) := by
  refine .bind (.attempt (Check.run_looks hc ctx)) fun went => ?_
  split
  · exact .bind (.publish rfl) fun _ => .pure _
  · exact .throw _
  · exact .pure _

theorem run_looks (root : Path) (config : Config) : Looks (run root config Check.all) := by
  refine .bind .workspace fun w => .bind (.lift _) fun files => .bind (.publish rfl) fun _ => ?_
  refine .bind (.mapM _ fun c hc => runCheck_looks hc _) fun went => .bind (.lift _) fun results => ?_
  exact .session (fun s => .bind (.publish rfl) fun _ => .pure _) fun s events => rfl

end Audit

namespace Count

variable (root : Path) (config : Config) (editor : Option Provider)

theorem typeCheckCategory_looks : Looks (typeCheckCategory root config editor) := by
  refine .bind .workspace fun w => .ite (.pure _) ?_
  exact .bind (.attempt (.call _)) fun reply => .lift _

theorem lintCategory_looks : Looks (lintCategory config editor) :=
  .bind .workspace fun _ => .bind (.attempt (.call _)) fun _ => .lift _

theorem stopIfInterrupted_looks (went : Outcome Category) : Looks (stopIfInterrupted went) := by
  unfold stopIfInterrupted
  split
  · exact .throw _
  · exact .pure _

theorem run_looks : Looks (run root config editor) := by
  refine .bind (.attempt (typeCheckCategory_looks root config editor)) fun typeCheck => ?_
  refine .bind (stopIfInterrupted_looks _) fun _ => ?_
  refine .bind (.attempt (lintCategory_looks config editor)) fun lint => ?_
  refine .bind (stopIfInterrupted_looks _) fun _ => .bind (.lift _) fun t => .bind (.lift _) fun l => ?_
  exact .ite (.bind (.publish rfl) fun _ => .pure _) (.pure _)

theorem run_observes : Observes (run root config editor) := (run_looks root config editor).observes

end Count

namespace Protection

variable (root : Path) (config : Config) (editor : Option Provider)

theorem standard_count_observes : Observes (standard root config editor).count := Count.run_observes root config editor

theorem standard_audit_observes : Observes (standard root config editor).audit := (Audit.run_looks root config).observes

theorem decide_observes {p : Protection} (hcount : Observes p.count) (haudit : Observes p.audit)
    (state : PolicyState) (r : Request) : Observes (p.decide state r) := by
  refine .ite (.pure _) ?_
  split
  · split
    · exact .throw _
    · exact .bind .workspace fun w => .lift _
  · exact .ite (.pure _) (.bind (.attempt haudit) fun report => .lift _)
  · exact .bind (.attempt hcount) fun count => .lift _

theorem decide_looks (state : PolicyState) (r : Request) : Looks ((standard root config editor).decide state r) := by
  refine .ite (.pure _) ?_
  split
  · split
    · exact .throw _
    · exact .bind .workspace fun w => .lift _
  · exact .ite (.pure _) (.bind (.attempt (Audit.run_looks root config)) fun report => .lift _)
  · exact .bind (.attempt (Count.run_looks root config editor)) fun count => .lift _

end Protection

end QualityGate
