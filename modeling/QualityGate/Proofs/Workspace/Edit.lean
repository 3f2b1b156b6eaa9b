import Mathlib
import QualityGate.Workspace.Tree

/-! One edit after another. -/

namespace QualityGate.Edit

variable {α β : Type} {w w' v : Workspace} {x : Edit α} {f : α → Edit β}

theorem bind_of_ok {a : α} (h : x w = (.ok a, v)) : (x >>= f) w = f a v := by
  show (ExceptT.bindCont f (x w).1) (x w).2 = _
  rw [h]
  rfl

theorem bind_of_error {e : Failure} (h : x w = (.error e, v)) : (x >>= f) w = (.error e, v) := by
  show (ExceptT.bindCont f (x w).1) (x w).2 = _
  rw [h]
  rfl

theorem bind_eq_ok {b : β} (h : (x >>= f) w = (.ok b, w')) : ∃ a v, x w = (.ok a, v) ∧ f a v = (.ok b, w') := by
  cases hx : x w with
  | mk r v =>
    cases r with
    | ok a =>
      rw [bind_of_ok hx] at h
      exact ⟨a, v, rfl, h⟩
    | error e =>
      rw [bind_of_error hx] at h
      cases h

theorem get_bind (f : Workspace → Edit β) : ((get : Edit Workspace) >>= f) w = f w w := rfl

theorem lift_of_ok {o : Outcome α} {a : α} (h : o = .ok a) : lift o w = (.ok a, w) := by
  rw [h]
  rfl

theorem change_of_ok {g : Workspace → Outcome Workspace} (h : g w = .ok v) : change g w = (.ok (), v) := by
  show (do set (← lift (g w)) : Edit Unit) w = _
  rw [h]
  rfl

theorem change_of_error {g : Workspace → Outcome Workspace} {e : Failure} (h : g w = .error e) :
    change g w = (.error e, w) := by
  show (do set (← lift (g w)) : Edit Unit) w = _
  rw [h]
  rfl

theorem change_eq_ok {g : Workspace → Outcome Workspace} {u : Unit} (h : change g w = (.ok u, v)) : g w = .ok v := by
  cases hg : g w with
  | ok v' =>
    rw [change_of_ok hg] at h
    cases h
    rfl
  | error e =>
    rw [change_of_error hg] at h
    cases h

theorem bind_state {P : Workspace → Prop} (hfail : P (x w).2) (hgo : ∀ a v, x w = (.ok a, v) → P (f a v).2) :
    P ((x >>= f) w).2 := by
  cases hx : x w with
  | mk r v =>
    cases r with
    | ok a =>
      rw [bind_of_ok hx]
      exact hgo a v hx
    | error e =>
      rw [bind_of_error hx]
      rwa [hx] at hfail

/-- What every edit of a list does, the list of edits does, up to the first that fails. -/
theorem mapM_keeps {P : Workspace → Prop} {R : Workspace → Workspace → Prop} (hrefl : ∀ w, R w w)
    (htrans : ∀ u v w, R u v → R v w → R u w) (as : List α)
    (h : ∀ a ∈ as, ∀ w, P w → P (f a w).2 ∧ R w (f a w).2) {w : Workspace} (hw : P w) :
    P (as.mapM f w).2 ∧ R w (as.mapM f w).2 := by
  induction as generalizing w with
  | nil => exact ⟨hw, hrefl w⟩
  | cons a as ih =>
    obtain ⟨hhead, htail⟩ := List.forall_mem_cons.mp h
    obtain ⟨hP, hR⟩ := hhead w hw
    rw [List.mapM_cons]
    refine bind_state (P := fun v => P v ∧ R w v) ⟨hP, hR⟩ fun b v hb => ?_
    rw [hb] at hP hR
    obtain ⟨hP', hR'⟩ := ih htail hP
    exact bind_state (P := fun v => P v ∧ R w v) ⟨hP', htrans _ _ _ hR hR'⟩ fun bs u hbs => by
      rw [hbs] at hP' hR'
      exact ⟨hP', htrans _ _ _ hR hR'⟩

end QualityGate.Edit
