import Mathlib
import QualityGate.Proofs.Text.Lines
import QualityGate.Proofs.Text.Occurrences

/-! Places in a text. Reading a text line by line finds a character at its line and its column, and at no others. Many
characters end lines: where all of them count, the lines have the same numbers as long as line feeds alone, or after
carriage returns, have ended lines. -/

namespace QualityGate.Text

/-- A line and a column that belong to one place in a text. -/
structure Locates (text : List Char) (index line column : Nat) : Prop where
  line_eq : line = (text.take index).count '\n' + 1
  column_of_feed : ∀ u v, text.take index = u ++ '\n' :: v → '\n' ∉ v → column = index - u.length
  column_of_no_feed : '\n' ∉ text.take index → column = index + 1
  character : (text.splitOn '\n')[line - 1]?.bind (·[column - 1]?) = text[index]?
  unique : ∀ j < text.length, lineOf text j = line → columnOf text j = column → j = index

/-- The lines of a text, each with the index of its first character, where the text begins at `index`. -/
def linesFrom (index : Nat) : List Char → List (Nat × List Char)
  | [] => []
  | '\r' :: '\n' :: r => (index, []) :: linesFrom (index + 2) r
  | c :: r =>
    if isLineBreak c then (index, []) :: linesFrom (index + 1) r
    else match linesFrom (index + 1) r with
      | [] => [(index, [c])]
      | (_, l) :: ls => (index, c :: l) :: ls

/-- The number of line ends. A carriage return and the line feed after it are one. -/
def lineEnds : List Char → Nat
  | [] => 0
  | '\r' :: '\n' :: r => lineEnds r + 1
  | c :: r => if isLineBreak c then lineEnds r + 1 else lineEnds r

/-- The number of the line that an index is in, where all line ends count. -/
def splitLineOf (s : List Char) (index : Nat) : Nat := lineEnds (s.take index) + 1

/-- Every line ends with a line feed, alone or after a carriage return. -/
def FeedsOnly (s : List Char) : Prop :=
  ∀ u c v, s = u ++ c :: v → isLineBreak c = true → c = '\n' ∨ c = '\r' ∧ v.head? = some '\n'

section feeds

variable {s u v text : List Char} {c : Char} {i j : Nat}

/-! What stands after the last line feed. -/

def lastLine (s : List Char) : List Char := (s.reverse.takeWhile (· != '\n')).reverse

theorem columnOf_eq (text : List Char) (index : Nat) : columnOf text index = (lastLine (text.take index)).length + 1 := by
  rw [columnOf, lastLine, List.length_reverse]

theorem lastLine_append (u : List Char) (h : '\n' ∉ v) : lastLine (u ++ v) = lastLine u ++ v := by
  have hall : ∀ c ∈ v.reverse, (c != '\n') = true := fun c hc =>
    bne_iff_ne.mpr (ne_of_mem_of_not_mem (List.mem_reverse.mp hc) h)
  rw [lastLine, List.reverse_append, List.takeWhile_append_of_pos hall, List.reverse_append, List.reverse_reverse, ← lastLine]

theorem lastLine_of_notMem (h : '\n' ∉ s) : lastLine s = s := lastLine_append [] h

theorem lastLine_feed (u : List Char) (h : '\n' ∉ v) : lastLine (u ++ '\n' :: v) = v := by
  have hfeed : lastLine (u ++ ['\n']) = [] := by simp [lastLine]
  rw [List.append_cons, lastLine_append _ h, hfeed, List.nil_append]

theorem exists_last_feed (h : '\n' ∈ s) : ∃ u v, s = u ++ '\n' :: v ∧ '\n' ∉ v := by
  obtain ⟨v, u, hs, hv⟩ := List.eq_append_cons_of_mem (List.mem_reverse.mpr h)
  refine ⟨u.reverse, v.reverse, ?_, by simpa using hv⟩
  rw [← List.reverse_reverse s, hs]
  simp

/-! Reading a text by its lines. -/

theorem length_splitOn (s : List Char) : (s.splitOn '\n').length = s.count '\n' + 1 := by
  induction s with
  | nil => rfl
  | cons c s ih =>
    rw [List.splitOn_cons_eq_if_modifyHead, List.count_cons]
    split <;> simp [ih]

theorem exists_splitOn_append (h : '\n' ∉ s) (rest : List Char) :
    ∃ t ls, (s ++ rest).splitOn '\n' = (s ++ t) :: ls := by
  induction s with
  | nil => exact List.exists_cons_of_ne_nil (List.splitOn_ne_nil '\n' rest)
  | cons c s ih =>
    obtain ⟨hc, hs⟩ : '\n' ≠ c ∧ '\n' ∉ s := by simpa using h
    obtain ⟨t, ls, hsplit⟩ := ih hs
    refine ⟨t, ls, ?_⟩
    rw [List.cons_append, List.splitOn_cons_eq_if_modifyHead, if_neg (by simpa using hc.symm), hsplit,
      List.modifyHead_cons, List.cons_append]

/-- The line feeds before a character count the lines before its own, and the last line before it how far it stands from
the beginning of its own. -/
theorem splitOn_getElem?_count (p rest : List Char) (hc : c ≠ '\n') :
    ((p ++ c :: rest).splitOn '\n')[p.count '\n']?.bind (·[(lastLine p).length]?) = some c := by
  -- In its own line the character stands after what is left of the text before it.
  have hline (v : List Char) (hv : '\n' ∉ v) :
      ((v ++ c :: rest).splitOn '\n')[0]?.bind (·[v.length]?) = some c := by
    have hown : '\n' ∉ v ++ [c] := by simpa [hv] using hc.symm
    obtain ⟨t, ls, hsplit⟩ := exists_splitOn_append hown rest
    rw [List.append_cons, hsplit]
    simp
  by_cases hp : '\n' ∈ p
  · obtain ⟨u, v, rfl, hv⟩ := exists_last_feed hp
    have hcount : (u ++ '\n' :: v).count '\n' = (u.splitOn '\n').length := by
      rw [length_splitOn, List.count_append, List.count_cons_self, List.count_eq_zero_of_not_mem hv]
    rw [lastLine_feed u hv, hcount, List.append_assoc, List.cons_append, List.splitOn_append_cons_self,
      List.getElem?_append_right le_rfl, Nat.sub_self, hline v hv]
  · rw [lastLine_of_notMem hp, List.count_eq_zero_of_not_mem hp, hline p hp]

/-- Within one line the columns grow. -/
theorem eq_of_lineOf_columnOf (hij : i ≤ j) (hj : j ≤ text.length) (hline : lineOf text i = lineOf text j)
    (hcolumn : columnOf text i = columnOf text j) : i = j := by
  have hsplit : text.take j = text.take i ++ (text.take j).drop i := by
    rw [← List.take_append_drop i (text.take j), List.take_take, Nat.min_eq_left hij, List.drop_left' (by simp; omega)]
  have hbetween : '\n' ∉ (text.take j).drop i := by
    rw [lineOf, lineOf, hsplit, List.count_append] at hline
    exact List.count_eq_zero.mp (by omega)
  rw [columnOf_eq, columnOf_eq, hsplit, lastLine_append _ hbetween, List.length_append, List.length_drop,
    List.length_take, Nat.min_eq_left hj] at hcolumn
  omega

theorem locates (h : text[i]? = some c) (hc : c ≠ '\n') : Locates text i (lineOf text i) (columnOf text i) where
  line_eq := rfl
  column_of_feed u v hsplit hv := by
    have hlength := congrArg List.length hsplit
    have hi := (List.getElem?_eq_some_iff.mp h).1
    rw [List.length_take, List.length_append, List.length_cons] at hlength
    rw [columnOf_eq, hsplit, lastLine_feed u hv]
    omega
  column_of_no_feed hnone := by
    have hi := (List.getElem?_eq_some_iff.mp h).1
    rw [columnOf_eq, lastLine_of_notMem hnone, List.length_take, Nat.min_eq_left hi.le]
  character := by
    obtain ⟨hi, rfl⟩ := List.getElem?_eq_some_iff.mp h
    have hsplit : text.take i ++ text[i] :: text.drop (i + 1) = text := by
      rw [List.getElem_cons_drop, List.take_append_drop]
    have hread := splitOn_getElem?_count (text.take i) (text.drop (i + 1)) hc
    rw [hsplit] at hread
    rw [lineOf, columnOf_eq, Nat.add_sub_cancel, Nat.add_sub_cancel, h, hread]
  unique j hj hline hcolumn := by
    have hi := (List.getElem?_eq_some_iff.mp h).1
    rcases Nat.le_total i j with hij | hij
    · exact (eq_of_lineOf_columnOf hij hj.le hline.symm hcolumn.symm).symm
    · exact eq_of_lineOf_columnOf hij hi.le hline hcolumn

end feeds

section ends

variable {s u v w l : List Char} {c : Char} {index o n : Nat}

/-! One character more. -/

theorem ne_feed_of_not_lineBreak (hc : isLineBreak c = false) : c ≠ '\n' := by
  rintro rfl
  cases hc

theorem lineEnds_return_feed (s : List Char) : lineEnds ('\r' :: '\n' :: s) = lineEnds s + 1 := rfl

theorem lineEnds_cons (hs : ∀ r, c = '\r' → s ≠ '\n' :: r) :
    lineEnds (c :: s) = if isLineBreak c then lineEnds s + 1 else lineEnds s := by
  rw [lineEnds]
  exact hs

theorem lineEnds_break (hc : isLineBreak c = true) (hs : ∀ r, c = '\r' → s ≠ '\n' :: r) :
    lineEnds (c :: s) = lineEnds s + 1 := (lineEnds_cons hs).trans (if_pos hc)

theorem lineEnds_other (hc : isLineBreak c = false) (s : List Char) : lineEnds (c :: s) = lineEnds s := by
  have hs : ∀ r, c = '\r' → s ≠ '\n' :: r := by
    rintro r rfl
    cases hc
  rw [lineEnds_cons hs, hc]
  rfl

/-- A text is empty or begins with a carriage return and its line feed, with another line end, or with a character that
is none. -/
@[elab_as_elim]
theorem lineEnds_induction {motive : List Char → Prop} (empty : motive [])
    (pair : ∀ s, motive s → motive ('\r' :: '\n' :: s))
    (ending : ∀ c s, (∀ r, c = '\r' → s ≠ '\n' :: r) → isLineBreak c = true → motive s → motive (c :: s))
    (other : ∀ c s, isLineBreak c = false → motive s → motive (c :: s)) (s : List Char) : motive s := by
  fun_induction lineEnds s with
  | case1 => exact empty
  | case2 s ih => exact pair s ih
  | case3 c s hs hc ih => exact ending c s hs hc ih
  | case4 c s _ hc ih => exact other c s (Bool.eq_false_iff.mpr hc) ih

theorem feedsOnly_nil : FeedsOnly [] := by
  rintro u c v h
  simp at h

theorem feedsOnly_cons :
    FeedsOnly (c :: s) ↔ (isLineBreak c = true → c = '\n' ∨ c = '\r' ∧ s.head? = some '\n') ∧ FeedsOnly s := by
  constructor
  · intro h
    exact ⟨h [] c s rfl, fun u d v hs => h (c :: u) d v (congrArg (c :: ·) hs)⟩
  · rintro ⟨hc, hs⟩ u d v h
    cases u with
    | nil =>
      obtain ⟨rfl, rfl⟩ := List.cons.inj h
      exact hc
    | cons e u => exact hs u d v (List.cons.inj h).2

/-! The number of a line. -/

/-- Characters in a line end none, also after a carriage return. -/
theorem lineEnds_append (u : List Char) (h : ∀ c ∈ w, isLineBreak c = false) : lineEnds (u ++ w) = lineEnds u := by
  induction u using lineEnds_induction with
  | empty =>
    induction w with
    | nil => rfl
    | cons c w ih =>
      obtain ⟨hc, hw⟩ := List.forall_mem_cons.mp h
      rw [List.nil_append, lineEnds_other hc]
      exact ih hw
  | pair r ih => rw [List.cons_append, List.cons_append, lineEnds_return_feed, lineEnds_return_feed, ih]
  | ending c r hreturn hc ih =>
    rw [List.cons_append, lineEnds_break hc, lineEnds_break hc hreturn, ih]
    -- A carriage return at the end of `u` stays a line end of its own: `w` has no line feed to go with it.
    rintro s rfl hs
    cases r with
    | nil => exact absurd (h '\n' (by rw [List.nil_append] at hs; simp [hs])) (by decide)
    | cons d r =>
      obtain ⟨rfl, -⟩ := List.cons.inj hs
      exact hreturn r rfl rfl
  | other c r hc ih => rw [List.cons_append, lineEnds_other hc, lineEnds_other hc, ih]

theorem count_le_lineEnds (s : List Char) : s.count '\n' ≤ lineEnds s := by
  induction s using lineEnds_induction with
  | empty => simp
  | pair r ih => simpa [List.count_cons, lineEnds_return_feed] using ih
  | ending c r hreturn hc ih =>
    rw [List.count_cons, lineEnds_break hc hreturn]
    split <;> omega
  | other c r hc ih =>
    simpa [ne_feed_of_not_lineBreak hc, lineEnds_other hc] using ih

theorem lineEnds_eq_count_iff : lineEnds s = s.count '\n' ↔ FeedsOnly s := by
  induction s using lineEnds_induction with
  | empty => exact iff_of_true rfl feedsOnly_nil
  | pair r ih => simp [feedsOnly_cons, lineEnds_return_feed, ih]
  | ending c r hreturn hc ih =>
    rw [feedsOnly_cons, ← ih, lineEnds_break hc hreturn]
    by_cases hfeed : c = '\n'
    · simp [hfeed]
    · have hle := count_le_lineEnds r
      have hend : ¬ (c = '\r' ∧ r.head? = some '\n') := by
        rintro ⟨rfl, hr⟩
        obtain ⟨r, rfl⟩ := List.head?_eq_some_iff.mp hr
        exact hreturn r rfl rfl
      simp only [List.count_cons_of_ne hfeed, hc, hfeed, hend, or_self, forall_const, false_and, iff_false]
      omega
  | other c r hc ih =>
    rw [feedsOnly_cons, ← ih, List.count_cons_of_ne (ne_feed_of_not_lineBreak hc), lineEnds_other hc]
    simp [hc]

theorem splitLineOf_eq_lineOf_iff : splitLineOf s index = lineOf s index ↔ FeedsOnly (s.take index) := by
  rw [splitLineOf, lineOf, Nat.add_right_cancel_iff, lineEnds_eq_count_iff]

/-! The lines. -/

theorem splitLines_break (hc : isLineBreak c = true) (hs : ∀ r, c = '\r' → s ≠ '\n' :: r) :
    splitLines (c :: s) = [] :: splitLines s := by
  by_cases hreturn : c = '\r'
  · subst hreturn
    rw [splitLines, unifyNewlines_return_other fun r => hs r rfl, List.foldr_cons, consToLines.eq_def, if_pos (by decide),
      ← splitLines]
  · rw [splitLines, unifyNewlines_cons hreturn, List.foldr_cons, consToLines.eq_def, if_pos hc, ← splitLines]

theorem map_snd_linesFrom (index : Nat) (s : List Char) : (linesFrom index s).map Prod.snd = splitLines s := by
  fun_induction linesFrom index s with
  | case1 => rfl
  | case2 index r ih =>
    rw [List.map_cons, ih, splitLines, splitLines, unifyNewlines_return_feed, List.foldr_cons]
    rfl
  | case3 index c r hreturn hc ih => rw [List.map_cons, ih, splitLines_break hc hreturn]
  | case4 index c r _ hc hlines ih | case5 index c r _ hc _ _ _ hlines ih =>
    have hreturn : c ≠ '\r' := by
      rintro rfl
      exact hc (by decide)
    rw [splitLines, unifyNewlines_cons hreturn, List.foldr_cons, ← splitLines, ← ih, hlines, consToLines.eq_def, if_neg hc]
    rfl

theorem linesFrom_head (h : (linesFrom index s)[0]? = some (o, l)) : o = index ∧ l <+: s := by
  fun_induction linesFrom index s generalizing o l with
  | case1 => cases h
  | case2 index r | case3 index c r =>
    cases h
    exact ⟨rfl, List.nil_prefix⟩
  | case4 index c r =>
    cases h
    exact ⟨rfl, List.cons_prefix_cons.mpr ⟨rfl, List.nil_prefix⟩⟩
  | case5 index c r _ _ o' l' ls hlines ih =>
    cases h
    rw [hlines] at ih
    exact ⟨rfl, List.cons_prefix_cons.mpr ⟨rfl, (ih rfl).2⟩⟩

/-- A line stands where it begins, and its number tells how many line ends there are before it. -/
theorem linesFrom_stands (h : (linesFrom index s)[n]? = some (o, l)) :
    ∃ u v, s = u ++ (l ++ v) ∧ o = index + u.length ∧ lineEnds u = n := by
  fun_induction linesFrom index s generalizing n o l with
  | case1 => cases h
  | case2 index r ih =>
    cases n with
    | zero =>
      cases h
      exact ⟨[], _, rfl, rfl, rfl⟩
    | succ n =>
      obtain ⟨u, v, rfl, rfl, rfl⟩ := ih h
      refine ⟨'\r' :: '\n' :: u, v, rfl, ?_, lineEnds_return_feed u⟩
      simp only [List.length_cons]
      omega
  | case3 index c r hreturn hc ih =>
    cases n with
    | zero =>
      cases h
      exact ⟨[], _, rfl, rfl, rfl⟩
    | succ n =>
      obtain ⟨u, v, rfl, rfl, rfl⟩ := ih h
      refine ⟨c :: u, v, rfl, ?_, lineEnds_break hc ?_⟩
      · simp only [List.length_cons]
        omega
      · rintro s hs rfl
        exact hreturn _ hs rfl
  | case4 index c r =>
    cases n with
    | zero =>
      cases h
      exact ⟨[], r, rfl, rfl, rfl⟩
    | succ n => cases h
  | case5 index c r _ hc o' l' ls hlines ih =>
    cases n with
    | zero =>
      cases h
      have hfirst : (linesFrom (index + 1) r)[0]? = some (o', l') := by rw [hlines]; rfl
      obtain ⟨-, v, rfl⟩ := linesFrom_head hfirst
      exact ⟨[], v, rfl, rfl, rfl⟩
    | succ n =>
      have hlater : (linesFrom (index + 1) r)[n + 1]? = some (o, l) := by rw [hlines]; exact h
      obtain ⟨u, v, rfl, rfl, hends⟩ := ih hlater
      refine ⟨c :: u, v, rfl, ?_, (lineEnds_other (by simpa using hc) u).trans hends⟩
      simp only [List.length_cons]
      omega

/-! The index of a line has the number of the line, and so has every index up to its end. -/

theorem splitLineOf_line {line : Nat × List Char} (h : (linesFrom 0 s)[n]? = some line) :
    splitLineOf s line.1 = n + 1 := by
  obtain ⟨u, v, htext, hstart, hends⟩ := linesFrom_stands h
  rw [splitLineOf, hstart, Nat.zero_add, htext, List.take_left, hends]

theorem splitLineOf_of_mem {line : Nat × List Char} {k : Nat} (h : line ∈ linesFrom 0 s) (hk : k ≤ line.2.length) :
    splitLineOf s (line.1 + k) = splitLineOf s line.1 := by
  obtain ⟨n, hn⟩ := List.mem_iff_getElem?.mp h
  obtain ⟨u, v, htext, hstart, -⟩ := linesFrom_stands hn
  have hl : ∀ c ∈ line.2.take k, isLineBreak c = false := fun c hc =>
    isLineBreak_of_mem_splitLines (map_snd_linesFrom 0 s ▸ List.mem_map_of_mem h) c (List.mem_of_mem_take hc)
  rw [splitLineOf, splitLineOf, hstart, Nat.zero_add, htext, List.take_left, List.take_length_add_append,
    List.take_append_of_le_length hk, lineEnds_append u hl]

theorem prefix_drop_of_mem {line : Nat × List Char} (h : line ∈ linesFrom 0 s) : line.2 <+: s.drop line.1 := by
  obtain ⟨n, hn⟩ := List.mem_iff_getElem?.mp h
  obtain ⟨u, v, htext, hstart, -⟩ := linesFrom_stands hn
  rw [htext, hstart, Nat.zero_add, List.drop_left]
  exact List.prefix_append line.2 v

end ends

end QualityGate.Text
