import QualityGate.Policy.Concurrent
import QualityGate.Proofs.Run

/-! The transitions of protection as functions of the session: what each leads to
and what it leaves behind. -/

namespace QualityGate

theorem Run.edit_apply {α : Type} (x : Edit α) (s : Session) :
    Run.edit x s = ((x s.workspace).1, { s with workspace := (x s.workspace).2 }) := rfl

namespace Protection

variable {p : Protection} {s : Session}

/-- The class that a count leads to, with the files as they are when it has ended. -/
def classAfter (p : Protection) (count : Outcome ErrorCount) (w : Workspace) : Outcome ProjectClass :=
  match classOfCount count with
  | .error e => .error e
  | .ok (some c) => .ok c
  | .ok none => classOfSize p.config.newProjectFileThreshold (Discovery.files w p.root p.config.files)

/-- What `enable` makes of the class once the count has ended. -/
def settledAfter (p : Protection) (s : Session) : Outcome ProjectClass :=
  settledClass (p.classAfter (p.count s).1 (p.count s).2.workspace)

theorem settledClass_of_error {e : Failure} (h : ∀ detail, e ≠ .unclassified detail) :
    settledClass (.error e) = .error e := by
  cases e with
  | unclassified detail => exact absurd rfl (h detail)
  | _ => rfl

theorem classOfFiles_apply (p : Protection) (s : Session) :
    p.classOfFiles s =
      (classOfSize p.config.newProjectFileThreshold (Discovery.files s.workspace p.root p.config.files), s) := by
  simp [classOfFiles, Run.bind_apply]

/-- Classification leaves nothing but what the count leaves. -/
theorem classify_apply (p : Protection) (s : Session) :
    p.classify s = (p.classAfter (p.count s).1 (p.count s).2.workspace, (p.count s).2) := by
  rw [classify, Run.bind_apply, Run.attempt_apply]
  cases h : classOfCount (p.count s).1 with
  | error e => simp [Run.bind_apply, classAfter, h]
  | ok found =>
    cases found with
    | some c => simp [Run.bind_apply, classAfter, h]
    | none => simp [Run.bind_apply, classAfter, h, classOfFiles_apply]

theorem enter_apply (state : PolicyState) (s : Session) :
    enter state s = (.ok state, { s with events := s.events ++ [.policyTransition state] }) := rfl

theorem installHooks_apply (p : Protection) (level : EnforcementLevel) (s : Session) :
    p.installHooks level s =
      match Hook.installAll p.root level p.config.tools p.config.gitConfigSection Hook.allKinds s.workspace with
      | (.error e, w) => (.error e, { s with workspace := w })
      | (.ok _, w) =>
        let set := s.git.configureProtection p.root p.config.gitConfigSection true (level == .zeroTolerance) w
        (set.1.map fun _ => (), { s with workspace := set.2 }) := by
  rw [installHooks, Run.bind_apply, Run.edit_apply]
  rcases Hook.installAll p.root level p.config.tools p.config.gitConfigSection Hook.allKinds s.workspace with
    ⟨_ | results, w⟩
  · rfl
  · simp only [Run.bind_apply, configureGit, Run.get_apply, Run.edit_apply]
    cases (s.git.configureProtection p.root p.config.gitConfigSection true (level == .zeroTolerance) w).1 <;> rfl

theorem perform_enable_of_error {e : Failure} (strict : Option Bool) (hooks : Bool) (h : p.settledAfter s = .error e) :
    p.perform (.enable strict hooks) s = (.error e, (p.count s).2) := by
  rw [settledAfter] at h
  simp [perform, enableAs, Run.bind_apply, classify_apply, h]

/-- Where no hooks are to be installed, a project that has a class comes under protection. -/
theorem perform_enable {c : ProjectClass} (strict : Option Bool) (h : p.settledAfter s = .ok c) :
    p.perform (.enable strict false) s =
      enter { enabled := true, level := p.levelFor strict, projectClass := c } (p.count s).2 := by
  rw [settledAfter] at h
  simp [perform, enableAs, Run.bind_apply, classify_apply, h]

theorem perform_enable_hooked {c : ProjectClass} (strict : Option Bool) (h : p.settledAfter s = .ok c) :
    p.perform (.enable strict true) s =
      (do
        p.installHooks (p.levelFor strict)
        enter { enabled := true, level := p.levelFor strict, projectClass := c }) (p.count s).2 := by
  rw [settledAfter] at h
  simp [perform, enableAs, Run.bind_apply, classify_apply, h]

end Protection

namespace Protected

variable {p : Protection} {t : Transition} {x x' : Protected} {e : Failure}

theorem transit_of_error {s : Session} (h : p.perform t x.session = (.error e, s)) :
    transit p t x = (.error e, { x with session := s }) := by
  rw [transit, h]

/-- A transition that fails leaves the state. -/
theorem transit_eq_error (h : transit p t x = (.error e, x')) :
    ∃ s, p.perform t x.session = (.error e, s) ∧ x' = { x with session := s } := by
  rcases hperformed : p.perform t x.session with ⟨e' | state, s⟩
  · obtain ⟨he, rfl⟩ := Prod.mk.inj ((transit_of_error hperformed).symm.trans h)
    exact ⟨s, by rw [Except.error.inj he], rfl⟩
  · rw [transit, hperformed] at h
    cases h

end Protected

end QualityGate
