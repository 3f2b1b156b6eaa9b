import Mathlib
import QualityGate.Proofs.Hook.Spared
import QualityGate.Proofs.Observe
import QualityGate.Proofs.Policy.Transition

/-! Transitions spare every file that is no hook, and nothing that only looks
changes a file. -/

namespace QualityGate

open Workspace

/-- A run that leaves a file where it is, if no hook stands in the way. -/
def Run.SparesFile {α : Type} (name : String) (ways : List (List String)) (project : Path) (place : List String)
    (t : Run α) : Prop :=
  ∀ s, Clear name ways project s.workspace → Spares ways place s.workspace (t s).2.workspace

namespace Run.SparesFile

variable {α β : Type} {name : String} {ways : List (List String)} {project : Path} {place : List String} {t : Run α}

theorem ofObserves (h : Run.Observes t) : SparesFile name ways project place t := by
  intro s _
  rw [(h s).workspace]
  exact .refl ways place s.workspace

theorem edit {x : Edit α} (h : ∀ w, Clear name ways project w → Spares ways place w (x w).2) :
    SparesFile name ways project place (Run.edit x) := fun s hs => h s.workspace hs

theorem publish (e : Event) : SparesFile name ways project place (Run.publish e) :=
  fun s _ => .refl ways place s.workspace

theorem bind {f : α → Run β} (h : SparesFile name ways project place t)
    (hf : ∀ a, SparesFile name ways project place (f a)) : SparesFile name ways project place (t >>= f) := by
  intro s hs
  have hfirst := h s hs
  rw [Run.bind_apply]
  rcases ht : t s with ⟨_ | a, s'⟩
  · rwa [ht] at hfirst
  · rw [ht] at hfirst
    exact hfirst.trans (hf a s' (hs.kept hfirst.toKeepsWays))

end Run.SparesFile

namespace Protection

variable {name : String} {ways : List (List String)} {place : List String} {p : Protection}

theorem classify_observes (hcount : Run.Observes p.count) : Run.Observes p.classify := by
  refine .bind (.attempt hcount) fun count => .bind (.lift _) fun found => ?_
  split
  · exact .pure _
  · exact .bind .workspace fun w => .lift _

theorem configureGit_spares (h : Elsewhere name place) (p : Protection) (protection strict : Bool) :
    Run.SparesFile name ways p.root place (p.configureGit protection strict) :=
  .bind (.ofObserves .session) fun _ => .edit fun _ hw => Git.configureProtection_spares h _ _ _ _ hw.unaimed

theorem installHooks_spares (h : Elsewhere name place) (hplace : place ∈ ways) (p : Protection)
    (level : EnforcementLevel) : Run.SparesFile name ways p.root place (p.installHooks level) :=
  .bind (.edit fun _ hw => Hook.installAll_spares h hplace _ _ _ _ hw) fun _ =>
    .bind (configureGit_spares h p _ _) fun _ => .ofObserves (.pure _)

theorem uninstallHooks_spares (h : Elsewhere name place) (hplace : place ∈ ways) (p : Protection) :
    Run.SparesFile name ways p.root place p.uninstallHooks :=
  .bind (.edit fun _ hw => Hook.uninstallAll_spares h hplace _ hw) fun _ =>
    .bind (configureGit_spares h p _ _) fun _ => .ofObserves (.pure _)

theorem enter_spares (project : Path) (state : PolicyState) : Run.SparesFile name ways project place (enter state) :=
  .bind (.publish _) fun _ => .ofObserves (.pure _)

theorem perform_spares (h : Elsewhere name place) (hplace : place ∈ ways) (hcount : Run.Observes p.count)
    (t : Transition) : Run.SparesFile name ways p.root place (p.perform t) := by
  cases t with
  | enable strict hooks =>
    refine .bind (.ofObserves (.attempt (classify_observes hcount))) fun classified => ?_
    refine .bind (.ofObserves (.lift _)) fun c => ?_
    cases hooks with
    | true => exact .bind (installHooks_spares h hplace p _) fun _ => enter_spares _ _
    | false => exact enter_spares _ _
  | disable hooks =>
    cases hooks with
    | true => exact .bind (uninstallHooks_spares h hplace p) fun _ => enter_spares _ _
    | false => exact enter_spares _ _
  | restore state => exact enter_spares _ _

theorem enter_eq_ok {state state' : PolicyState} {s s' : Session} (h : enter state s = (.ok state', s')) :
    state' = state := by
  rw [enter_apply] at h
  cases h
  rfl

theorem enabled_of_perform {p : Protection} {strict : Option Bool} {hooks : Bool} {state : PolicyState} {s s' : Session}
    (h : p.perform (.enable strict hooks) s = (.ok state, s')) : state.enabled = true := by
  obtain ⟨classified, s₁, -, h⟩ := Run.bind_eq_ok h
  obtain ⟨c, s₂, -, h⟩ := Run.bind_eq_ok h
  cases hooks with
  | true =>
    obtain ⟨_, s₃, -, h⟩ := Run.bind_eq_ok h
    rw [enter_eq_ok h]
  | false => rw [enter_eq_ok h]

theorem eq_default_of_perform {p : Protection} {hooks : Bool} {state : PolicyState} {s s' : Session}
    (h : p.perform (.disable hooks) s = (.ok state, s')) : state = {} := by
  cases hooks with
  | true =>
    obtain ⟨_, s₁, -, h⟩ := Run.bind_eq_ok h
    exact enter_eq_ok h
  | false => exact enter_eq_ok h

end Protection

end QualityGate
