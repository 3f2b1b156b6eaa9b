import QualityGate.Text.Pattern

/-! What a pattern reads. The matcher takes the first of several ways to go on;
`Reads` says which ways there are. A run that succeeds went one of them, and it
succeeds where one of them does. -/

namespace QualityGate.Text

namespace Cursor

/-- The place after `w`, with the captures made on the way to it. -/
def after (s : Cursor) (w r : List Char) (captures : List (String × List Char)) : Cursor :=
  ⟨w.getLast?.or s.before, s.pos + w.length, r, captures ++ s.captures⟩

variable {s e : Cursor} {p : Char → Bool} {w r : List Char}

theorem after_nil (h : s.rest = r) : s.after [] r [] = s := by
  subst h
  rfl

theorem step_after (c : Char) (r' : List Char) : (s.step c r').after w r [] = s.after (c :: w) r [] := by
  simp only [after, step, List.length_cons, List.getLast?_cons, Nat.add_assoc, Nat.add_comm 1]
  cases w.getLast? <;> rfl

theorem after_after (u v r' : List Char) (cu cv : List (String × List Char)) :
    (s.after u r' cu).after v r cv = s.after (u ++ v) r (cv ++ cu) := by
  simp only [after, List.length_append, List.getLast?_append, Nat.add_assoc, List.append_assoc, Option.or_assoc]

theorem record_after (name : String) (cs : List (String × List Char)) (h : s.rest = w ++ r) :
    s.record name (s.after w r cs) = s.after w r ((name, w) :: cs) := by
  simp [record, after, h]

/-- The places that `reach` lists, the nearest first. -/
def nearestFirst (p : Char → Bool) (s : Cursor) : List Char → List Cursor
  | [] => [s]
  | c :: r => s :: if p c then nearestFirst p (s.step c r) r else []

theorem nearestFirst_eq_cons (l : List Char) : nearestFirst p s l = s :: (nearestFirst p s l).tail := by
  cases l <;> rfl

theorem reach_go_eq (l : List Char) (acc : List Cursor) :
    reach.go p s l acc = (nearestFirst p s l).tail.reverse ++ acc := by
  induction l generalizing s acc with
  | nil => rfl
  | cons c r ih =>
    rw [reach.go, nearestFirst]
    split
    · rw [ih, List.tail_cons, nearestFirst_eq_cons r]
      simp
    · rfl

theorem reach_eq : s.reach p = (nearestFirst p s s.rest).reverse := by
  rw [reach, reach_go_eq, nearestFirst_eq_cons s.rest]
  simp

theorem nearestFirst_append (hw : ∀ c ∈ w, p c = true) (hr : s.rest = w ++ r) :
    ∃ nearer, nearestFirst p s (w ++ r) = nearer ++ nearestFirst p (s.after w r []) r ∧
      ∀ e ∈ nearer, ∃ u v, w = u ++ v ∧ v ≠ [] ∧ e = s.after u (v ++ r) [] := by
  induction w generalizing s with
  | nil => exact ⟨[], by rw [after_nil (r := r) hr]; rfl, by simp⟩
  | cons c w ih =>
    obtain ⟨hc, hw⟩ := List.forall_mem_cons.mp hw
    obtain ⟨nearer, hsplit, hnearer⟩ := ih (s := s.step c (w ++ r)) hw rfl
    refine ⟨s :: nearer, ?_, ?_⟩
    · simp [nearestFirst, hc, hsplit, step_after]
    · rintro e (_ | ⟨_, he⟩)
      · exact ⟨[], c :: w, rfl, by simp, (after_nil hr).symm⟩
      · obtain ⟨u, v, rfl, hv, rfl⟩ := hnearer e he
        exact ⟨c :: u, v, rfl, hv, step_after c _⟩

theorem mem_nearestFirst_iff (l : List Char) (hs : s.rest = l) :
    e ∈ nearestFirst p s l ↔ ∃ w r, l = w ++ r ∧ (∀ c ∈ w, p c = true) ∧ e = s.after w r [] := by
  constructor
  · intro he
    induction l generalizing s with
    | nil =>
      obtain rfl := List.mem_singleton.mp he
      exact ⟨[], [], rfl, by simp, (after_nil hs).symm⟩
    | cons c l ih =>
      rw [nearestFirst, List.mem_cons] at he
      rcases he with rfl | he
      · exact ⟨[], c :: l, rfl, by simp, (after_nil hs).symm⟩
      · split at he
        case isTrue hc =>
          obtain ⟨w, r, rfl, hw, rfl⟩ := ih rfl he
          exact ⟨c :: w, r, rfl, List.forall_mem_cons.mpr ⟨hc, hw⟩, step_after c _⟩
        case isFalse => simp at he
  · rintro ⟨w, r, rfl, hw, rfl⟩
    obtain ⟨nearer, hsplit, -⟩ := nearestFirst_append hw hs
    rw [hsplit, nearestFirst_eq_cons r]
    simp

theorem mem_farthestFirst_iff {least : Nat} :
    e ∈ s.farthestFirst p least ↔
      ∃ w r, s.rest = w ++ r ∧ least ≤ w.length ∧ (∀ c ∈ w, p c = true) ∧ e = s.after w r [] := by
  rw [farthestFirst, List.mem_filter, reach_eq, List.mem_reverse, mem_nearestFirst_iff _ rfl, decide_eq_true_eq]
  constructor
  · rintro ⟨⟨w, r, hrest, hw, rfl⟩, hleast⟩
    exact ⟨w, r, hrest, by simpa [after] using hleast, hw, rfl⟩
  · rintro ⟨w, r, hrest, hleast, hw, rfl⟩
    exact ⟨⟨w, r, hrest, hw, rfl⟩, by simpa [after] using hleast⟩

end Cursor

namespace Pattern

/-- `p.Reads s w r captures`: at the place `s`, before `w ++ r`, the pattern can take `w` and make
these captures, the latest first. -/
def Reads : Pattern → Cursor → List Char → List Char → List (String × List Char) → Prop
  | empty, _, w, _, cs => w = [] ∧ cs = []
  | one p, _, w, _, cs => (∃ c, w = [c] ∧ p c = true) ∧ cs = []
  | many p least, _, w, _, cs => (least ≤ w.length ∧ ∀ c ∈ w, p c = true) ∧ cs = []
  | fewest p least, _, w, _, cs => (least ≤ w.length ∧ ∀ c ∈ w, p c = true) ∧ cs = []
  | seq a b, s, w, r, cs =>
    ∃ u v cu cv, w = u ++ v ∧ cs = cv ++ cu ∧ a.Reads s u (v ++ r) cu ∧ b.Reads (s.after u (v ++ r) cu) v r cv
  | orElse a b, s, w, r, cs => a.Reads s w r cs ∨ b.Reads s w r cs
  | capture name a, s, w, r, cs => ∃ cu, cs = (name, w) :: cu ∧ a.Reads s w r cu
  | atStart, s, w, _, cs => s.pos = 0 ∧ w = [] ∧ cs = []
  | atEnd, _, w, r, cs => (r = [] ∨ r = ['\n']) ∧ w = [] ∧ cs = []
  | wordEdge, s, w, r, cs => (s.before.any isWordChar != r.head?.any isWordChar) = true ∧ w = [] ∧ cs = []
  | notAhead p, _, w, r, cs => r.head?.any p = false ∧ w = [] ∧ cs = []

variable {β : Type} {a : Pattern} {p : Char → Bool} {least : Nat} {k : Cursor → Option β} {s : Cursor} {x : β}
  {w r : List Char} {cs : List (String × List Char)}

/-- A run that succeeds has read something after which the rest succeeds. -/
theorem exists_reads_of_run (h : a.run k s = some x) :
    ∃ w r cs, s.rest = w ++ r ∧ a.Reads s w r cs ∧ k (s.after w r cs) = some x := by
  induction a generalizing k s with
  | empty => exact ⟨[], s.rest, [], rfl, ⟨rfl, rfl⟩, by rwa [Cursor.after_nil rfl]⟩
  | one p =>
    obtain ⟨e, he, hk⟩ := Option.bind_eq_some_iff.mp h
    rw [Cursor.step?] at he
    split at he
    case h_1 c r hrest =>
      split at he
      case isTrue hc =>
        cases he
        exact ⟨[c], r, [], hrest, ⟨⟨c, rfl, hc⟩, rfl⟩, hk⟩
      case isFalse => cases he
    case h_2 => cases he
  | many p least =>
    obtain ⟨e, he, hk⟩ := List.exists_of_findSome?_eq_some h
    obtain ⟨w, r, hrest, hleast, hw, rfl⟩ := Cursor.mem_farthestFirst_iff.mp he
    exact ⟨w, r, [], hrest, ⟨⟨hleast, hw⟩, rfl⟩, hk⟩
  | fewest p least =>
    obtain ⟨e, he, hk⟩ := List.exists_of_findSome?_eq_some h
    obtain ⟨w, r, hrest, hleast, hw, rfl⟩ := Cursor.mem_farthestFirst_iff.mp (List.mem_reverse.mp he)
    exact ⟨w, r, [], hrest, ⟨⟨hleast, hw⟩, rfl⟩, hk⟩
  | seq a b iha ihb =>
    obtain ⟨u, r', cu, hrest, ha, hb⟩ := iha h
    obtain ⟨v, r, cv, rfl, hb, hk⟩ := ihb hb
    refine ⟨u ++ v, r, cv ++ cu, by rw [hrest, List.append_assoc], ⟨u, v, cu, cv, rfl, rfl, ha, hb⟩, ?_⟩
    rwa [Cursor.after_after] at hk
  | orElse a b iha ihb =>
    rw [run] at h
    split at h
    case h_1 y hy =>
      obtain rfl := Option.some.inj h
      obtain ⟨w, r, cs, hrest, ha, hk⟩ := iha hy
      exact ⟨w, r, cs, hrest, .inl ha, hk⟩
    case h_2 =>
      obtain ⟨w, r, cs, hrest, hb, hk⟩ := ihb h
      exact ⟨w, r, cs, hrest, .inr hb, hk⟩
  | capture name a ih =>
    obtain ⟨w, r, cu, hrest, ha, hk⟩ := ih h
    rw [Cursor.record_after name cu hrest] at hk
    exact ⟨w, r, (name, w) :: cu, hrest, ⟨cu, rfl, ha⟩, hk⟩
  | atStart =>
    obtain ⟨hs, hk⟩ := Option.ite_none_right_eq_some.mp h
    exact ⟨[], s.rest, [], rfl, ⟨by simpa using hs, rfl, rfl⟩, by rwa [Cursor.after_nil rfl]⟩
  | atEnd =>
    obtain ⟨hs, hk⟩ := Option.ite_none_right_eq_some.mp h
    exact ⟨[], s.rest, [], rfl, ⟨by simpa [Cursor.atEnd] using hs, rfl, rfl⟩, by rwa [Cursor.after_nil rfl]⟩
  | wordEdge =>
    obtain ⟨hs, hk⟩ := Option.ite_none_right_eq_some.mp h
    exact ⟨[], s.rest, [], rfl, ⟨hs, rfl, rfl⟩, by rwa [Cursor.after_nil rfl]⟩
  | notAhead p =>
    obtain ⟨hs, hk⟩ := Option.ite_none_left_eq_some.mp h
    exact ⟨[], s.rest, [], rfl, ⟨by simpa using hs, rfl, rfl⟩, by rwa [Cursor.after_nil rfl]⟩

/-- A run succeeds if the rest does after something that can be read. -/
theorem run_isSome_of_reads (h : a.Reads s w r cs) (hrest : s.rest = w ++ r)
    (hk : (k (s.after w r cs)).isSome = true) : (a.run k s).isSome = true := by
  induction a generalizing k s w r cs with
  | empty =>
    obtain ⟨rfl, rfl⟩ := h
    rwa [Cursor.after_nil (r := r) hrest] at hk
  | one p =>
    obtain ⟨⟨c, rfl, hc⟩, rfl⟩ := h
    have hstep : s.step? p = some (s.after [c] r []) := by simp [Cursor.step?, hrest, hc, Cursor.after, Cursor.step]
    rwa [run, hstep]
  | many p least =>
    obtain ⟨⟨hleast, hw⟩, rfl⟩ := h
    exact List.findSome?_isSome_iff.mpr ⟨_, Cursor.mem_farthestFirst_iff.mpr ⟨w, r, hrest, hleast, hw, rfl⟩, hk⟩
  | fewest p least =>
    obtain ⟨⟨hleast, hw⟩, rfl⟩ := h
    exact List.findSome?_isSome_iff.mpr
      ⟨_, List.mem_reverse.mpr (Cursor.mem_farthestFirst_iff.mpr ⟨w, r, hrest, hleast, hw, rfl⟩), hk⟩
  | seq a b iha ihb =>
    obtain ⟨u, v, cu, cv, rfl, rfl, ha, hb⟩ := h
    refine iha ha (by rw [hrest, List.append_assoc]) (ihb hb rfl ?_)
    rwa [Cursor.after_after]
  | orElse a b iha ihb =>
    rw [run]
    split
    · rfl
    next hnone =>
      rcases h with ha | hb
      · have hsome := iha ha hrest hk
        simp [hnone] at hsome
      · exact ihb hb hrest hk
  | capture name a ih =>
    obtain ⟨cu, rfl, ha⟩ := h
    refine ih ha hrest ?_
    rwa [Cursor.record_after name cu hrest]
  | atStart =>
    obtain ⟨hs, rfl, rfl⟩ := h
    rw [Cursor.after_nil (r := r) hrest] at hk
    simpa [run, hs] using hk
  | atEnd =>
    obtain ⟨hs, rfl, rfl⟩ := h
    rw [Cursor.after_nil (r := r) hrest] at hk
    rw [List.nil_append] at hrest
    simpa [run, Cursor.atEnd, hrest, hs] using hk
  | wordEdge =>
    obtain ⟨hs, rfl, rfl⟩ := h
    rw [Cursor.after_nil (r := r) hrest] at hk
    rw [List.nil_append] at hrest
    rwa [run, Cursor.atWordEdge, hrest, if_pos hs]
  | notAhead p =>
    obtain ⟨hs, rfl, rfl⟩ := h
    rw [Cursor.after_nil (r := r) hrest] at hk
    rw [List.nil_append] at hrest
    rwa [run, hrest, if_neg (by simp [hs])]

/-- The shortest run of characters is taken first. -/
theorem run_fewest_of_shortest (hrest : s.rest = w ++ r) (hleast : least ≤ w.length) (hw : ∀ c ∈ w, p c = true)
    (hk : k (s.after w r []) = some x)
    (hshorter : ∀ u v, w = u ++ v → v ≠ [] → least ≤ u.length → k (s.after u (v ++ r) []) = none) :
    (fewest p least).run k s = some x := by
  obtain ⟨nearer, hsplit, hnearer⟩ := Cursor.nearestFirst_append hw hrest
  rw [run, Cursor.farthestFirst, Cursor.reach_eq, hrest, hsplit, Cursor.nearestFirst_eq_cons r,
    ← List.filter_reverse, List.reverse_reverse, List.filter_append, List.findSome?_append]
  -- The nearer places are either too near or fail.
  have hnone : (nearer.filter fun e => decide (s.pos + least ≤ e.pos)).findSome? k = none := by
    refine List.findSome?_eq_none_iff.mpr fun e he => ?_
    obtain ⟨he, hpos⟩ := List.mem_filter.mp he
    obtain ⟨u, v, huv, hv, rfl⟩ := hnearer e he
    exact hshorter u v huv hv (by simpa [Cursor.after] using hpos)
  have hpos : s.pos + least ≤ (s.after w r []).pos := by simpa [Cursor.after] using hleast
  rw [hnone, Option.none_or, List.filter_cons, if_pos (decide_eq_true hpos), List.findSome?_cons, hk]

/-- The longest run of characters is taken first. -/
theorem run_many_of_longest (hrest : s.rest = w ++ r) (hleast : least ≤ w.length) (hw : ∀ c ∈ w, p c = true)
    (hstop : ∀ c ∈ r.head?, p c = false) (hk : k (s.after w r []) = some x) : (many p least).run k s = some x := by
  obtain ⟨nearer, hsplit, -⟩ := Cursor.nearestFirst_append hw hrest
  have hlast : Cursor.nearestFirst p (s.after w r []) r = [s.after w r []] := by
    cases r with
    | nil => rfl
    | cons c r => simp [Cursor.nearestFirst, hstop c rfl]
  have hpos : s.pos + least ≤ (s.after w r []).pos := by simpa [Cursor.after] using hleast
  rw [run, Cursor.farthestFirst, Cursor.reach_eq, hrest, hsplit, hlast, List.reverse_append, List.reverse_singleton,
    List.singleton_append, List.filter_cons, if_pos (decide_eq_true hpos), List.findSome?_cons, hk]

theorem run_ofList_cons (ps : List Pattern) : (ofList (a :: ps)).run k = a.run ((ofList ps).run k) := by
  cases ps <;> rfl

theorem run_ofList_append (ps qs : List Pattern) : (ofList (ps ++ qs)).run k = (ofList ps).run ((ofList qs).run k) := by
  induction ps with
  | nil => rfl
  | cons a ps ih => rw [List.cons_append, run_ofList_cons, ih, run_ofList_cons]

/-! Matches. -/

theorem exists_reads_of_foundAt {m : Found} (h : a.foundAt? s = some m) :
    ∃ w r cs, s.rest = w ++ r ∧ a.Reads s w r cs ∧ m = ⟨s.pos, s.pos + w.length, cs ++ s.captures⟩ := by
  obtain ⟨w, r, cs, hrest, hreads, hm⟩ := exists_reads_of_run h
  exact ⟨w, r, cs, hrest, hreads, (Option.some.inj hm).symm⟩

theorem foundAt?_isSome_iff :
    (a.foundAt? s).isSome = true ↔ ∃ w r cs, s.rest = w ++ r ∧ a.Reads s w r cs := by
  constructor
  · intro h
    obtain ⟨m, hm⟩ := Option.isSome_iff_exists.mp h
    obtain ⟨w, r, cs, hrest, hreads, -⟩ := exists_reads_of_foundAt hm
    exact ⟨w, r, cs, hrest, hreads⟩
  · rintro ⟨w, r, cs, hrest, hreads⟩
    exact run_isSome_of_reads hreads hrest rfl

theorem find?_go_of_foundAt {before : Option Char} {pos : Nat} {t : List Char} {m : Found}
    (h : a.foundAt? ⟨before, pos, t, []⟩ = some m) : find?.go a before pos t = some m := by
  cases t with
  | nil => exact h
  | cons c t => rw [find?.go, h]

theorem find?_go_of_none {before : Option Char} {pos : Nat} {c : Char} {t : List Char}
    (h : a.foundAt? ⟨before, pos, c :: t, []⟩ = none) :
    find?.go a before pos (c :: t) = find?.go a (some c) (pos + 1) t := by
  rw [find?.go, h]

theorem exists_foundAt_of_find {t : List Char} {m : Found} (h : a.find? t = some m) :
    ∃ before pos rest, a.foundAt? ⟨before, pos, rest, []⟩ = some m := by
  suffices hgo : ∀ before pos, find?.go a before pos t = some m →
      ∃ before pos rest, a.foundAt? ⟨before, pos, rest, []⟩ = some m from hgo none 0 h
  clear h
  induction t with
  | nil => exact fun before pos h => ⟨before, pos, [], h⟩
  | cons c t ih =>
    intro before pos h
    cases hfirst : a.foundAt? ⟨before, pos, c :: t, []⟩ with
    | some m' =>
      rw [find?_go_of_foundAt hfirst] at h
      exact ⟨before, pos, c :: t, hfirst.trans h⟩
    | none =>
      rw [find?_go_of_none hfirst] at h
      exact ih (some c) (pos + 1) h

/-- What can be read wherever it stands is found in a text that it is part of. -/
theorem occursIn_append (u : List Char) {v : List Char}
    (h : ∀ before pos, (a.foundAt? ⟨before, pos, v, []⟩).isSome = true) : a.occursIn (u ++ v) = true := by
  suffices hgo : ∀ before pos, (find?.go a before pos (u ++ v)).isSome = true from hgo none 0
  induction u with
  | nil =>
    intro before pos
    obtain ⟨m, hm⟩ := Option.isSome_iff_exists.mp (h before pos)
    rw [List.nil_append, find?_go_of_foundAt hm]
    rfl
  | cons c u ih =>
    intro before pos
    rw [List.cons_append]
    cases hfirst : a.foundAt? ⟨before, pos, c :: (u ++ v), []⟩ with
    | some m =>
      rw [find?_go_of_foundAt hfirst]
      rfl
    | none =>
      rw [find?_go_of_none hfirst]
      exact ih (some c) (pos + 1)

/-- The search goes past what does not begin a match. -/
theorem find?_append_of_none {u t : List Char}
    (h : ∀ u' v, u = u' ++ v → v ≠ [] → ∀ before pos, a.foundAt? ⟨before, pos, v ++ t, []⟩ = none) :
    ∃ before pos, a.find? (u ++ t) = find?.go a before pos t := by
  suffices hgo : ∀ before pos, ∃ before' pos', find?.go a before pos (u ++ t) = find?.go a before' pos' t from hgo none 0
  induction u with
  | nil => exact fun before pos => ⟨before, pos, rfl⟩
  | cons c u ih =>
    intro before pos
    have hfirst := h [] (c :: u) rfl (List.cons_ne_nil c u) before pos
    rw [List.cons_append] at hfirst
    rw [List.cons_append, find?_go_of_none hfirst]
    exact ih (fun u' v huv => h (c :: u') v (congrArg (c :: ·) huv)) (some c) (pos + 1)

/-- What is found begins nowhere before its place. -/
theorem exists_leftmost_of_find {t : List Char} {m : Found} (h : a.find? t = some m) :
    ∃ u v, t = u ++ v ∧ (∃ before pos, a.foundAt? ⟨before, pos, v, []⟩ = some m) ∧
      ∀ u' w, u = u' ++ w → w ≠ [] → ∃ before pos, a.foundAt? ⟨before, pos, w ++ v, []⟩ = none := by
  suffices hgo : ∀ before pos, find?.go a before pos t = some m →
      ∃ u v, t = u ++ v ∧ (∃ before pos, a.foundAt? ⟨before, pos, v, []⟩ = some m) ∧
        ∀ u' w, u = u' ++ w → w ≠ [] → ∃ before pos, a.foundAt? ⟨before, pos, w ++ v, []⟩ = none from hgo none 0 h
  clear h
  induction t with
  | nil =>
    intro before pos h
    refine ⟨[], [], rfl, ⟨before, pos, h⟩, fun u' w hu hw => ?_⟩
    exact absurd (List.append_eq_nil_iff.mp hu.symm).2 hw
  | cons c t ih =>
    intro before pos h
    cases hfirst : a.foundAt? ⟨before, pos, c :: t, []⟩ with
    | some m' =>
      rw [find?_go_of_foundAt hfirst] at h
      refine ⟨[], c :: t, rfl, ⟨before, pos, hfirst.trans h⟩, fun u' w hu hw => ?_⟩
      exact absurd (List.append_eq_nil_iff.mp hu.symm).2 hw
    | none =>
      rw [find?_go_of_none hfirst] at h
      obtain ⟨u, v, rfl, hfound, hleft⟩ := ih (some c) (pos + 1) h
      refine ⟨c :: u, v, rfl, hfound, fun u' w hu hw => ?_⟩
      cases u' with
      | nil =>
        obtain rfl : c :: u = w := hu
        exact ⟨before, pos, hfirst⟩
      | cons d u' => exact hleft u' w (List.cons.inj hu).2 hw

theorem exists_foundAt_of_mem_findAll {t : List Char} {m : Found} (h : m ∈ a.findAll t) :
    ∃ before pos rest, a.foundAt? ⟨before, pos, rest, []⟩ = some m := by
  suffices hgo : ∀ before pos free acc, m ∈ findAll.go a before pos free t acc →
      m ∈ acc ∨ ∃ before pos rest, a.foundAt? ⟨before, pos, rest, []⟩ = some m from
    (hgo none 0 0 [] (List.mem_reverse.mp h)).resolve_left List.not_mem_nil
  clear h
  induction t with
  | nil => exact fun before pos free acc h => .inl h
  | cons c t ih =>
    intro before pos free acc h
    rw [findAll.go] at h
    split at h
    · exact ih _ _ _ _ h
    · split at h
      · rcases ih _ _ _ _ h with hmem | hfound
        · rcases List.mem_cons.mp hmem with rfl | hacc
          · exact .inr ⟨before, pos, c :: t, by assumption⟩
          · exact .inl hacc
        · exact .inr hfound
      · exact ih _ _ _ _ h

/-! Captures. -/

/-- Whether all that the pattern captures under a name is as `q` says. -/
def CapturesAre (q : String → List Char → Prop) : Pattern → Prop
  | seq a b | orElse a b => a.CapturesAre q ∧ b.CapturesAre q
  | capture name a => (∀ s w r cs, a.Reads s w r cs → q name w) ∧ a.CapturesAre q
  | _ => True

theorem Reads.captures {q : String → List Char → Prop} (h : a.Reads s w r cs) (hq : a.CapturesAre q) :
    ∀ c ∈ cs, q c.1 c.2 := by
  induction a generalizing s w r cs with
  | seq a b iha ihb =>
    obtain ⟨u, v, cu, cv, rfl, rfl, ha, hb⟩ := h
    intro c hc
    rcases List.mem_append.mp hc with hc | hc
    · exact ihb hb hq.2 c hc
    · exact iha ha hq.1 c hc
  | orElse a b iha ihb =>
    rcases h with ha | hb
    · exact iha ha hq.1
    · exact ihb hb hq.2
  | capture name a ih =>
    obtain ⟨cu, rfl, ha⟩ := h
    exact List.forall_mem_cons.mpr ⟨hq.1 _ _ _ _ ha, ih ha hq.2⟩
  | empty | one p | many p least | fewest p least =>
    obtain ⟨-, rfl⟩ := h
    simp
  | atStart | atEnd | wordEdge | notAhead p =>
    obtain ⟨-, -, rfl⟩ := h
    simp

theorem group_of_foundAt {q : String → List Char → Prop} (hq : a.CapturesAre q) {m : Found} {before : Option Char}
    {pos : Nat} {rest : List Char} (hm : a.foundAt? ⟨before, pos, rest, []⟩ = some m) {name : String}
    (hw : m.group? name = some w) : q name w := by
  obtain ⟨u, r, cs, -, hreads, rfl⟩ := exists_reads_of_foundAt hm
  obtain ⟨l, l', hcs, -⟩ := List.lookup_eq_some_iff.mp hw
  exact hreads.captures hq (name, w) (by simp only [List.append_nil] at hcs; simp [hcs])

/-! What each pattern reads, for the simplifier. -/

@[simp] theorem reads_one : (one p).Reads s w r cs ↔ (∃ c, w = [c] ∧ p c = true) ∧ cs = [] := Iff.rfl

@[simp] theorem reads_many : (many p least).Reads s w r cs ↔ (least ≤ w.length ∧ ∀ c ∈ w, p c = true) ∧ cs = [] :=
  Iff.rfl

@[simp] theorem reads_fewest : (fewest p least).Reads s w r cs ↔ (least ≤ w.length ∧ ∀ c ∈ w, p c = true) ∧ cs = [] :=
  Iff.rfl

@[simp] theorem reads_orElse {b : Pattern} : (orElse a b).Reads s w r cs ↔ a.Reads s w r cs ∨ b.Reads s w r cs :=
  Iff.rfl

@[simp] theorem reads_capture {name : String} :
    (capture name a).Reads s w r cs ↔ ∃ cu, cs = (name, w) :: cu ∧ a.Reads s w r cu :=
  Iff.rfl

@[simp] theorem reads_atEnd : atEnd.Reads s w r cs ↔ (r = [] ∨ r = ['\n']) ∧ w = [] ∧ cs = [] := Iff.rfl

@[simp] theorem reads_notAhead : (notAhead p).Reads s w r cs ↔ r.head?.any p = false ∧ w = [] ∧ cs = [] := Iff.rfl

@[simp] theorem reads_ofList_nil : (ofList []).Reads s w r cs ↔ w = [] ∧ cs = [] := Iff.rfl

@[simp] theorem reads_ofList_cons (ps : List Pattern) :
    (ofList (a :: ps)).Reads s w r cs ↔
      ∃ u v cu cv, w = u ++ v ∧ cs = cv ++ cu ∧ a.Reads s u (v ++ r) cu ∧
        (ofList ps).Reads (s.after u (v ++ r) cu) v r cv := by
  cases ps with
  | nil =>
    constructor
    · intro h
      exact ⟨w, [], cs, [], by simp, rfl, h, rfl, rfl⟩
    · rintro ⟨u, v, cu, cv, rfl, rfl, ha, rfl, rfl⟩
      rw [List.append_nil]
      exact ha
  | cons b ps => exact Iff.rfl

@[simp] theorem reads_char {c : Char} : (char c).Reads s w r cs ↔ w = [c] ∧ cs = [] := by
  simp only [char, Reads, beq_iff_eq]
  grind

theorem reads_chars (l : List Char) : (ofList (l.map char)).Reads s w r cs ↔ w = l ∧ cs = [] := by
  induction l generalizing s w cs with
  | nil => exact reads_ofList_nil
  | cons c l ih =>
    rw [List.map_cons, reads_ofList_cons]
    constructor
    · rintro ⟨u, v, cu, cv, rfl, rfl, hc, hl⟩
      obtain ⟨rfl, rfl⟩ := reads_char.mp hc
      obtain ⟨rfl, rfl⟩ := ih.mp hl
      exact ⟨rfl, rfl⟩
    · rintro ⟨rfl, rfl⟩
      exact ⟨[c], l, [], [], rfl, rfl, reads_char.mpr ⟨rfl, rfl⟩, ih.mpr ⟨rfl, rfl⟩⟩

@[simp] theorem reads_word {t : String} : (word t).Reads s w r cs ↔ w = t.toList ∧ cs = [] := reads_chars t.toList

theorem reads_oneOf (ps : List Pattern) : (oneOf ps).Reads s w r cs ↔ ∃ a ∈ ps, a.Reads s w r cs := by
  induction ps with
  | nil => simp [oneOf]
  | cons a ps ih =>
    cases ps with
    | nil => simp [oneOf]
    | cons b ps =>
      change a.Reads s w r cs ∨ (oneOf (b :: ps)).Reads s w r cs ↔ _
      rw [ih]
      constructor
      · rintro (ha | ⟨c, hc, hreads⟩)
        · exact ⟨a, List.mem_cons_self, ha⟩
        · exact ⟨c, List.mem_cons_of_mem a hc, hreads⟩
      · rintro ⟨c, _ | ⟨_, hc⟩, hreads⟩
        · exact .inl hreads
        · exact .inr ⟨c, hc, hreads⟩

@[simp] theorem reads_words (ts : List String) : (words ts).Reads s w r cs ↔ ∃ t ∈ ts, w = t.toList ∧ cs = [] := by
  rw [words, reads_oneOf]
  constructor
  · rintro ⟨a, ha, hreads⟩
    obtain ⟨t, ht, rfl⟩ := List.mem_map.mp ha
    exact ⟨t, ht, reads_word.mp hreads⟩
  · rintro ⟨t, ht, hw⟩
    exact ⟨word t, List.mem_map.mpr ⟨t, ht, rfl⟩, reads_word.mpr hw⟩

@[simp] theorem reads_optional : (Pattern.optional a).Reads s w r cs ↔ a.Reads s w r cs ∨ w = [] ∧ cs = [] := Iff.rfl

@[simp] theorem reads_blanks : (blanks least).Reads s w r cs ↔ (least ≤ w.length ∧ ∀ c ∈ w, isBlank c = true) ∧ cs = [] :=
  Iff.rfl

theorem capturesAre_ofList {q : String → List Char → Prop} {ps : List Pattern} :
    (ofList ps).CapturesAre q ↔ ∀ a ∈ ps, a.CapturesAre q := by
  induction ps with
  | nil => simp [ofList, CapturesAre]
  | cons a ps ih =>
    cases ps with
    | nil => simp [ofList]
    | cons b ps =>
      rw [List.forall_mem_cons, ← ih]
      exact Iff.rfl

theorem capturesAre_word {q : String → List Char → Prop} (t : String) : (word t).CapturesAre q := by
  refine capturesAre_ofList.mpr fun a ha => ?_
  obtain ⟨c, -, rfl⟩ := List.mem_map.mp ha
  trivial

theorem capturesAre_words {q : String → List Char → Prop} (ts : List String) : (words ts).CapturesAre q := by
  suffices hone : ∀ ps : List Pattern, (∀ a ∈ ps, a.CapturesAre q) → (oneOf ps).CapturesAre q from
    hone _ (List.forall_mem_map.mpr fun t _ => capturesAre_word t)
  intro ps hps
  induction ps with
  | nil => trivial
  | cons a ps ih =>
    obtain ⟨ha, hps⟩ := List.forall_mem_cons.mp hps
    cases ps with
    | nil => exact ha
    | cons b ps => exact ⟨ha, ih hps⟩

theorem capturesAre_wordIgnoringCase {q : String → List Char → Prop} (t : String) :
    (wordIgnoringCase t).CapturesAre q := by
  refine capturesAre_ofList.mpr fun a ha => ?_
  obtain ⟨c, -, rfl⟩ := List.mem_map.mp ha
  trivial

end Pattern

end QualityGate.Text
