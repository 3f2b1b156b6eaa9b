import Mathlib
import QualityGate.Schema.Reader

/-! What is found under a key after entries were put in, taken out or renamed. -/

namespace QualityGate

section insertKey

variable {κ α : Type} [BEq κ] [LawfulBEq κ] (entries : List (κ × α)) {k q : κ} (v : α)

theorem lookup_replace_of_ne (h : q ≠ k) :
    (entries.map fun e => if e.1 == k then (k, v) else e).lookup q = entries.lookup q := by
  have hk : (q == k) = false := beq_false_of_ne h
  induction entries with
  | nil => rfl
  | cons e entries ih =>
    obtain ⟨key, a⟩ := e
    by_cases he : key = k
    · simp [List.lookup_cons, he, hk, ih]
    · simp [List.lookup_cons, he, ih]

theorem lookup_replace_self (h : entries.any (·.1 == k) = true) :
    (entries.map fun e => if e.1 == k then (k, v) else e).lookup k = some v := by
  induction entries with
  | nil => simp at h
  | cons e entries ih =>
    obtain ⟨key, a⟩ := e
    by_cases he : key = k
    · simp [he]
    · have hk : (k == key) = false := beq_false_of_ne (Ne.symm he)
      simpa [List.lookup_cons, he, hk] using ih (by simpa [he] using h)

theorem lookup_insertKey_of_ne (h : q ≠ k) : (Schema.insertKey entries k v).lookup q = entries.lookup q := by
  unfold Schema.insertKey
  split
  · exact lookup_replace_of_ne entries v h
  · simp [List.lookup_append, List.lookup_cons, beq_false_of_ne h]

theorem lookup_insertKey_self : (Schema.insertKey entries k v).lookup k = some v := by
  unfold Schema.insertKey
  split
  case isTrue h => exact lookup_replace_self entries v h
  case isFalse h =>
    have hnone : entries.lookup k = none := by
      refine List.lookup_eq_none_iff.mpr fun e he => ?_
      have hne := List.any_eq_false.mp (Bool.not_eq_true _ ▸ h) e he
      have hkey : k ≠ e.1 := fun hk => hne (by rw [hk]; exact beq_self_eq_true e.1)
      simpa using hkey
    simp [List.lookup_append, hnone]

theorem mem_insertKey {e : κ × α} (h : e ∈ Schema.insertKey entries k v) : (e ∈ entries ∧ e.1 ≠ k) ∨ e = (k, v) := by
  unfold Schema.insertKey at h
  split at h
  case isTrue =>
    obtain ⟨x, hx, rfl⟩ := List.mem_map.mp h
    by_cases hk : x.1 = k <;> simp [hk, hx]
  case isFalse hany =>
    rcases List.mem_append.mp h with h | h
    · exact .inl ⟨h, fun hk => hany (List.any_eq_true.mpr ⟨e, h, beq_iff_eq.mpr hk⟩)⟩
    · exact .inr (List.mem_singleton.mp h)

theorem keys_replace : (entries.map fun e => if e.1 == k then (k, v) else e).map Prod.fst = entries.map Prod.fst := by
  rw [List.map_map]
  refine List.map_congr_left fun e _ => ?_
  by_cases hk : e.1 = k <;> simp [hk]

theorem nodup_insertKey (h : (entries.map Prod.fst).Nodup) : ((Schema.insertKey entries k v).map Prod.fst).Nodup := by
  unfold Schema.insertKey
  split
  case isTrue => rwa [keys_replace]
  case isFalse hany =>
    have hnew : k ∉ entries.map Prod.fst := by
      intro hk
      obtain ⟨e, he, rfl⟩ := List.mem_map.mp hk
      exact hany (List.any_eq_true.mpr ⟨e, he, beq_self_eq_true e.1⟩)
    rw [List.map_append, List.nodup_append]
    refine ⟨h, List.nodup_singleton _, ?_⟩
    rintro a ha b hb rfl
    obtain rfl : a = k := List.mem_singleton.mp hb
    exact hnew ha

end insertKey

theorem lookup_filter_self {κ α : Type} [BEq κ] [LawfulBEq κ] (entries : List (κ × α)) (k : κ) :
    (entries.filter fun e => e.1 != k).lookup k = none := by
  refine List.lookup_eq_none_iff.mpr fun e he => ?_
  have hne : e.1 ≠ k := bne_iff_ne.mp (List.mem_filter.mp he).2
  simpa using hne.symm

theorem lookup_filter_of_ne {κ α : Type} [BEq κ] [LawfulBEq κ] (entries : List (κ × α)) {k q : κ} (h : q ≠ k) :
    (entries.filter fun e => e.1 != k).lookup q = entries.lookup q := by
  induction entries with
  | nil => rfl
  | cons e entries ih =>
    obtain ⟨key, a⟩ := e
    by_cases hkey : key = k
    · simp [hkey, List.lookup_cons, beq_false_of_ne h, ih]
    · simp [hkey, List.lookup_cons, ih]

/-- Where no key stands twice, the order of the entries does not matter. -/
theorem lookup_of_perm {κ α : Type} [BEq κ] [LawfulBEq κ] {entries entries' : List (κ × α)} (hperm : entries.Perm entries')
    (hkeys : (entries.map Prod.fst).Nodup) (k : κ) : entries.lookup k = entries'.lookup k := by
  induction hperm with
  | nil => rfl
  | cons e _ ih => rw [List.lookup_cons, List.lookup_cons, ih (List.nodup_cons.mp hkeys).2]
  | swap e e' entries =>
    obtain ⟨key, a⟩ := e
    obtain ⟨key', a'⟩ := e'
    have hne : key' ≠ key := fun h => (List.nodup_cons.mp hkeys).1 (by simp [h])
    by_cases hk : k = key'
    · simp [List.lookup_cons, hk, beq_false_of_ne hne]
    · simp [List.lookup_cons, beq_false_of_ne hk]
  | trans hfirst _ ih ih' => exact (ih hkeys).trans (ih' ((hfirst.map Prod.fst).nodup_iff.mp hkeys))

/-- Lists under keys that their own items give: the items that give a key are the list under it. -/
theorem filter_flatMap_of_keys {κ α : Type} [BEq κ] [LawfulBEq κ] {entries : List (κ × List α)} {key : α → κ}
    (hkeys : (entries.map Prod.fst).Nodup) (hown : ∀ e ∈ entries, ∀ x ∈ e.2, key x = e.1) (k : κ) :
    (entries.flatMap Prod.snd).filter (fun x => key x == k) = (entries.lookup k).getD [] := by
  induction entries with
  | nil => rfl
  | cons e entries ih =>
    obtain ⟨key', xs⟩ := e
    obtain ⟨hfresh, hkeys⟩ := List.nodup_cons.mp hkeys
    obtain ⟨hxs, hown⟩ := List.forall_mem_cons.mp hown
    rw [List.flatMap_cons, List.filter_append, ih hkeys hown, List.lookup_cons]
    by_cases hk : k = key'
    · have hnone : entries.lookup k = none := List.lookup_eq_none_iff.mpr fun e he => by
        have hne : k ≠ e.1 := fun h => hfresh (List.mem_map.mpr ⟨e, he, h.symm.trans hk⟩)
        simpa using hne
      have hall : xs.filter (fun x => key x == k) = xs :=
        List.filter_eq_self.mpr fun x hx => beq_iff_eq.mpr ((hxs x hx).trans hk.symm)
      rw [hall, hnone, hk, beq_self_eq_true]
      simp
    · have hall : xs.filter (fun x => key x == k) = [] :=
        List.filter_eq_nil_iff.mpr fun x hx h => hk ((beq_iff_eq.mp h).symm.trans (hxs x hx))
      rw [hall, beq_false_of_ne hk, List.nil_append]

theorem lookup_map_key {κ ι α : Type} [BEq κ] [LawfulBEq κ] [BEq ι] [LawfulBEq ι] {entries : List (ι × α)}
    {f : ι → κ} {k : ι} {q : κ} (h : ∀ x ∈ entries, f x.1 = q ↔ x.1 = k) :
    (entries.map fun x => (f x.1, x.2)).lookup q = entries.lookup k := by
  induction entries with
  | nil => rfl
  | cons e entries ih =>
    obtain ⟨key, a⟩ := e
    obtain ⟨hhead, htail⟩ := List.forall_mem_cons.mp h
    dsimp only at hhead
    by_cases he : key = k
    · have hq := hhead.mpr he
      subst he hq
      simp
    · have hne : ¬ f key = q := fun hq => he (hhead.mp hq)
      simp [List.lookup_cons, beq_false_of_ne (Ne.symm he), beq_false_of_ne (Ne.symm hne), ih htail]

end QualityGate
