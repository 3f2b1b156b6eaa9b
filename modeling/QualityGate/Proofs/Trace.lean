import Mathlib.Data.List.Induction

/-! Steps one after the other. -/

namespace QualityGate

variable {σ δ : Type} {Step : σ → δ → σ → Prop} {x y z : σ} {d e : δ} {ds ds' pre post : List δ}

/-- What can be done from a state, the earliest deed first, and where it leads. -/
inductive Trace (Step : σ → δ → σ → Prop) (x : σ) : List δ → σ → Prop where
  | nil : Trace Step x [] x
  | snoc {ds : List δ} {d : δ} {y z : σ} (h : Trace Step x ds y) (hd : Step y d z) : Trace Step x (ds ++ [d]) z

namespace Trace

theorem single (h : Step x d y) : Trace Step x [d] y := .snoc .nil h

theorem trans (h : Trace Step x ds y) (h' : Trace Step y ds' z) : Trace Step x (ds ++ ds') z := by
  induction h' with
  | nil => rwa [List.append_nil]
  | snoc _ hd ih =>
    rw [← List.append_assoc]
    exact .snoc ih hd

theorem cons (h : Step x d y) (h' : Trace Step y ds z) : Trace Step x (d :: ds) z := (single h).trans h'

theorem snoc_iff : Trace Step x (ds ++ [d]) z ↔ ∃ y, Trace Step x ds y ∧ Step y d z := by
  constructor
  · intro h
    generalize hall : ds ++ [d] = all at h
    cases h with
    | nil => simp at hall
    | snoc h hd =>
      obtain ⟨rfl, rfl⟩ : ds = _ ∧ d = _ := by simpa using hall
      exact ⟨_, h, hd⟩
  · rintro ⟨y, h, hd⟩
    exact .snoc h hd

/-- Every deed of a trace is a step, from where the deeds before it have led to. -/
theorem split (h : Trace Step x (pre ++ d :: post) z) : ∃ y y', Trace Step x pre y ∧ Step y d y' := by
  induction post using List.reverseRecOn generalizing z with
  | nil =>
    obtain ⟨y, h, hd⟩ := snoc_iff.mp h
    exact ⟨y, z, h, hd⟩
  | append_singleton post d' ih =>
    rw [← List.cons_append, ← List.append_assoc] at h
    obtain ⟨_, h, -⟩ := snoc_iff.mp h
    exact ih h

end Trace

/-- One of some deeds is the last, or it stands before the last. -/
theorem snoc_eq_split (h : ds ++ [d] = pre ++ e :: post) :
    (post = [] ∧ pre = ds ∧ e = d) ∨ ∃ post', post = post' ++ [d] ∧ ds = pre ++ e :: post' := by
  induction post using List.reverseRecOn with
  | nil =>
    obtain ⟨rfl, hd⟩ := List.append_inj' h rfl
    exact .inl ⟨rfl, rfl, (List.cons.inj hd).1.symm⟩
  | append_singleton post' d' _ =>
    rw [← List.cons_append, ← List.append_assoc] at h
    obtain ⟨rfl, hd⟩ := List.append_inj' h rfl
    rw [(List.cons.inj hd).1]
    exact .inr ⟨post', rfl, rfl⟩

theorem mem_snoc : e ∈ ds ++ [d] ↔ e ∈ ds ∨ e = d := by simp

theorem filterMap_snoc {β : Type} (f : δ → Option β) : (ds ++ [d]).filterMap f = ds.filterMap f ++ (f d).toList := by
  cases h : f d <;> simp [h]

theorem countP_snoc (p : δ → Bool) : (ds ++ [d]).countP p = ds.countP p + (p d).toNat := by
  cases h : p d <;> simp [h]

end QualityGate
