import Mathlib
import QualityGate.Proofs.Text.Utf8
import QualityGate.Text.Lines

/-! Blanks, and the lines of a text. A text printed line by line is split into
these lines again. -/

namespace QualityGate.Text

/-! Classes of characters. -/

/-- The numbers of all blanks. -/
def blankCodes : List Nat :=
  [9, 10, 11, 12, 13, 28, 29, 30, 31, 32, 0x85, 0xa0, 0x1680, 0x2000, 0x2001, 0x2002, 0x2003, 0x2004, 0x2005,
    0x2006, 0x2007, 0x2008, 0x2009, 0x200a, 0x2028, 0x2029, 0x202f, 0x205f, 0x3000]

variable {c : Char}

theorem toNat_mem_of_isBlank (h : isBlank c = true) : c.toNat ∈ blankCodes := by
  simp only [isBlank, Bool.or_eq_true, Bool.and_eq_true, decide_eq_true_eq, beq_iff_eq] at h
  simp only [blankCodes, List.mem_cons, List.not_mem_nil]
  omega

theorem inRanges_eq (ranges : Array (Nat × Nat)) (n : Nat) :
    inRanges ranges n = (ranges.toList.find? fun r => n ≤ r.2).any fun r => r.1 ≤ n := by
  rw [inRanges, ← Array.find?_toList]
  cases ranges.toList.find? fun r => n ≤ r.2 <;> rfl

theorem isWordChar_ofNat_blankCodes : ∀ n ∈ blankCodes, isWordChar (Char.ofNat n) = false := by
  -- A list is searched in far fewer steps than an array.
  simp only [isWordChar, isAlphanumeric, isLetter, isDecimal, decimalValue?, inRanges_eq, ← Array.find?_toList]
  decide +kernel

theorem isWordChar_of_isBlank (h : isBlank c = true) : isWordChar c = false := by
  have hc := isWordChar_ofNat_blankCodes c.toNat (toNat_mem_of_isBlank h)
  rwa [Char.ofNat_toNat] at hc

theorem isBlank_of_isWordChar (h : isWordChar c = true) : isBlank c = false := by
  by_contra hc
  rw [isWordChar_of_isBlank (by simpa using hc)] at h
  cases h

theorem isBlank_of_isLineBreak (h : isLineBreak c = true) : isBlank c = true := by
  simp only [isLineBreak, Bool.or_eq_true, Bool.and_eq_true, decide_eq_true_eq, beq_iff_eq] at h
  simp only [isBlank, Bool.or_eq_true, Bool.and_eq_true, decide_eq_true_eq, beq_iff_eq]
  omega

theorem isLineBreak_of_isBlank (h : isBlank c = false) : isLineBreak c = false := by
  by_contra hc
  rw [isBlank_of_isLineBreak (by simpa using hc)] at h
  cases h

theorem isWordChar_of_isDecimal (h : isDecimal c = true) : isWordChar c = true := by
  by_cases hc : c.toNat < 128
  · have hdigit : 48 ≤ c.toNat ∧ c.toNat ≤ 57 := by
      by_contra hno
      simp [isDecimal, decimalValue?, hc, hno] at h
    have hascii : c.isDigit = true := by
      simp only [Char.isDigit, Bool.and_eq_true, decide_eq_true_eq, ge_iff_le, UInt32.le_iff_toNat_le]
      exact hdigit
    simp [isWordChar, isAlphanumeric, hc, Char.isAlphanum, hascii]
  · simp [isWordChar, isAlphanumeric, hc, h]

/-! Runs of one class of characters. -/

theorem takeWhile_run {p : Char → Bool} {w r : List Char} (hw : ∀ c ∈ w, p c = true) (hr : ∀ c ∈ r.head?, p c = false) :
    (w ++ r).takeWhile p = w := by
  have hnil : r.takeWhile p = [] := by
    cases r with
    | nil => rfl
    | cons c r => exact List.takeWhile_cons_of_neg (by simp [hr c rfl])
  rw [List.takeWhile_append_of_pos hw, hnil, List.append_nil]

/-- A run of one class ends where the class does. -/
theorem run_append_inj {p : Char → Bool} {u v x y : List Char} (hu : ∀ c ∈ u, p c = true) (hv : ∀ c ∈ v, p c = true)
    (hx : ∀ c ∈ x.head?, p c = false) (hy : ∀ c ∈ y.head?, p c = false) (h : u ++ x = v ++ y) : u = v ∧ x = y := by
  have huv : u = v := by rw [← takeWhile_run hu hx, h, takeWhile_run hv hy]
  subst huv
  exact ⟨rfl, List.append_cancel_left h⟩

theorem run_inj {p : Char → Bool} {u v r r' : List Char} {x y : Char} (hu : ∀ c ∈ u, p c = true)
    (hv : ∀ c ∈ v, p c = true) (hx : p x = false) (hy : p y = false) (h : u ++ x :: r = v ++ y :: r') :
    u = v ∧ x = y ∧ r = r' := by
  obtain ⟨huv, hrest⟩ := run_append_inj hu hv (by simpa using hx) (by simpa using hy) h
  exact ⟨huv, List.cons.inj hrest⟩

/-! Trimming. -/

variable {s blank : List Char}

theorem dropBlanks_append (hb : ∀ c ∈ blank, isBlank c = true) (s : List Char) :
    dropBlanks (blank ++ s) = dropBlanks s :=
  List.dropWhile_append_of_pos hb

theorem trimRight_append (hb : ∀ c ∈ blank, isBlank c = true) (s : List Char) :
    trimRight (s ++ blank) = trimRight s := by
  rw [trimRight, List.reverse_append, dropBlanks_append (by simpa using hb), ← trimRight]

theorem dropBlanks_eq_self_iff : dropBlanks s = s ↔ ∀ c ∈ s.head?, isBlank c = false := by
  rw [dropBlanks, List.dropWhile_eq_self_iff]
  cases s <;> simp

theorem trim_append_left (hb : ∀ c ∈ blank, isBlank c = true) (s : List Char) : trim (blank ++ s) = trim s := by
  rw [trim, dropBlanks_append hb, ← trim]

theorem trim_append_right (hb : ∀ c ∈ blank, isBlank c = true) (s : List Char) : trim (s ++ blank) = trim s := by
  rw [trim, dropBlanks, List.dropWhile_append]
  split
  case isTrue h =>
    have hnil : blank.dropWhile isBlank = [] := List.dropWhile_eq_nil_iff.mpr hb
    rw [hnil, trim, dropBlanks, List.isEmpty_iff.mp h]
  case isFalse => exact trimRight_append hb _

theorem trim_eq_self_iff : trim s = s ↔ dropBlanks s = s ∧ trimRight s = s := by
  constructor
  · intro h
    -- Both ends can only lose characters, so neither of them loses any.
    have hleft : (dropBlanks s).length ≤ s.length := (List.dropWhile_sublist isBlank).length_le
    have hright : (trimRight (dropBlanks s)).length ≤ (dropBlanks s).length := by
      simpa [trimRight, dropBlanks] using (List.dropWhile_sublist (l := (dropBlanks s).reverse) isBlank).length_le
    have hlength : (dropBlanks s).length = s.length := by
      have := congrArg List.length h
      rw [trim] at this
      omega
    have hself : dropBlanks s = s := (List.dropWhile_sublist isBlank).eq_of_length hlength
    exact ⟨hself, by rwa [trim, hself] at h⟩
  · rintro ⟨hl, hr⟩
    rw [trim, hl, hr]

theorem trimRight_eq_self_iff : trimRight s = s ↔ ∀ c ∈ s.getLast?, isBlank c = false := by
  rw [trimRight, ← List.head?_reverse, ← dropBlanks_eq_self_iff, List.reverse_eq_iff]

theorem exists_trimRight_append (s : List Char) :
    ∃ blank, s = trimRight s ++ blank ∧ ∀ c ∈ blank, isBlank c = true := by
  refine ⟨(s.reverse.takeWhile isBlank).reverse, ?_, fun c hc => List.mem_takeWhile_imp (List.mem_reverse.mp hc)⟩
  rw [trimRight, dropBlanks, ← List.reverse_append, List.takeWhile_append_dropWhile, List.reverse_reverse]

theorem trimRight_append_of_last {t : List Char} (h : ∀ c ∈ t.getLast?, isBlank c = false) (s : List Char) :
    trimRight (t ++ s) = t ++ trimRight s := by
  have hself : t.reverse.dropWhile isBlank = t.reverse := dropBlanks_eq_self_iff.mpr (by rwa [List.head?_reverse])
  rw [trimRight, dropBlanks, List.reverse_append, List.dropWhile_append, hself]
  split
  case isTrue hnone =>
    rw [trimRight, dropBlanks, List.isEmpty_iff.mp hnone]
    simp
  case isFalse => simp [trimRight, dropBlanks]

theorem getLast?_trimRight (s : List Char) : ∀ c ∈ (trimRight s).getLast?, isBlank c = false := by
  refine trimRight_eq_self_iff.mp ?_
  rw [trimRight, trimRight, List.reverse_reverse, dropBlanks, dropBlanks, List.dropWhile_idempotent]

/-- Trimming leaves the first character that is not blank in front. -/
theorem head?_trim (s : List Char) : (trim s).head? = (dropBlanks s).head? := by
  cases hs : dropBlanks s with
  | nil =>
    rw [trim, hs]
    rfl
  | cons c r =>
    have hself : dropBlanks (dropBlanks s) = dropBlanks s := List.dropWhile_idempotent isBlank s
    have hc : isBlank c = false := dropBlanks_eq_self_iff.mp hself c (by rw [hs]; rfl)
    have hright : trimRight ([c] ++ r) = [c] ++ trimRight r := trimRight_append_of_last (by simpa using hc) r
    rw [trim, hs, ← List.singleton_append, hright]
    rfl

theorem trim_of_visible {q : List Char} (hq : ∀ c ∈ q, isBlank c = false) : trim q = q := by
  rw [trim_eq_self_iff, dropBlanks_eq_self_iff, trimRight_eq_self_iff]
  exact ⟨fun c hc => hq c (List.mem_of_mem_head? hc), fun c hc => hq c (List.mem_of_mem_getLast? hc)⟩

theorem exists_cons_of_trim (hne : s ≠ []) (htrim : trim s = s) : ∃ c t, s = c :: t ∧ isBlank c = false := by
  obtain ⟨c, t, rfl⟩ := List.exists_cons_of_ne_nil hne
  have hleft := dropBlanks_eq_self_iff.mp (trim_eq_self_iff.mp htrim).1
  exact ⟨c, t, rfl, hleft c rfl⟩

theorem exists_concat_of_trim (hne : s ≠ []) (htrim : trim s = s) : ∃ t c, s = t ++ [c] ∧ isBlank c = false := by
  obtain ⟨t, c, rfl⟩ := (List.eq_nil_or_concat' s).resolve_left hne
  have hright := trimRight_eq_self_iff.mp (trim_eq_self_iff.mp htrim).2
  exact ⟨t, c, rfl, hright c (by simp)⟩

theorem mem_dropBlanks {c : Char} (hc : c ∈ s) (hvisible : isBlank c = false) : c ∈ dropBlanks s := by
  rw [← List.takeWhile_append_dropWhile (p := isBlank) (l := s), List.mem_append] at hc
  refine hc.resolve_left fun hblank => ?_
  simp [List.mem_takeWhile_imp hblank] at hvisible

theorem mem_trim {c : Char} (hc : c ∈ s) (hvisible : isBlank c = false) : c ∈ trim s := by
  have hleft : c ∈ (dropBlanks s).reverse := List.mem_reverse.mpr (mem_dropBlanks hc hvisible)
  exact List.mem_reverse.mpr (mem_dropBlanks hleft hvisible)

/-- Trimming takes nothing between two characters that are not blank. -/
theorem mem_trim_between {u v m : List Char} {x y : Char} (hx : isBlank x = false) (hy : isBlank y = false)
    (hc : c ∈ m) : c ∈ trim (u ++ x :: (m ++ y :: v)) := by
  have hleft : ∃ u', dropBlanks (u ++ x :: (m ++ y :: v)) = u' ++ x :: m ++ y :: v := by
    rw [dropBlanks, List.dropWhile_append]
    split
    · exact ⟨[], by simp [hx]⟩
    · exact ⟨u.dropWhile isBlank, by simp⟩
  obtain ⟨u', hu'⟩ := hleft
  obtain ⟨blank, hsplit, hblank⟩ := exists_trimRight_append (u' ++ x :: m ++ y :: v)
  rw [trim, hu']
  -- What is cut off is blank, so that it begins after `y`.
  rcases List.append_eq_append_iff.mp hsplit with ⟨w, hw, -⟩ | ⟨w, -, hw⟩
  · rw [hw]
    simp [hc]
  · have hmem : y ∈ blank := by
      rw [hw]
      simp
    rw [hblank y hmem] at hy
    cases hy

/-! Lines. -/

variable {l : List Char} {ls : List (List Char)}

theorem foldr_consToLines (hl : ∀ c ∈ l, isLineBreak c = false) (line : List Char) (ls : List (List Char)) :
    l.foldr consToLines (line :: ls) = (l ++ line) :: ls := by
  induction l with
  | nil => rfl
  | cons c l ih =>
    obtain ⟨hc, hl⟩ := List.forall_mem_cons.mp hl
    rw [List.foldr_cons, ih hl]
    exact if_neg (by simp [hc])

theorem isLineBreak_of_mem_splitLines (h : l ∈ splitLines s) : ∀ c ∈ l, isLineBreak c = false := by
  rw [splitLines] at h
  generalize unifyNewlines s = t at h
  induction t generalizing l with
  | nil => simp at h
  | cons c t ih =>
    rw [List.foldr_cons, consToLines.eq_def] at h
    split at h
    case isTrue =>
      rcases List.mem_cons.mp h with rfl | h
      · simp
      · exact ih h
    case isFalse hc =>
      have hc : isLineBreak c = false := Bool.eq_false_iff.mpr hc
      split at h
      case h_1 =>
        obtain rfl := List.mem_singleton.mp h
        simpa using hc
      case h_2 first rest hlines =>
        rw [hlines] at ih
        rcases List.mem_cons.mp h with rfl | h
        · exact List.forall_mem_cons.mpr ⟨hc, ih List.mem_cons_self⟩
        · exact ih (List.mem_cons_of_mem first h)

theorem newline_notMem_of_line (hl : ∀ c ∈ l, isLineBreak c = false) : '\n' ∉ l := fun hc => absurd (hl _ hc) (by decide)

theorem splitLines_line (hl : ∀ c ∈ l, isLineBreak c = false) (rest : List Char) :
    splitLines (l ++ '\n' :: rest) = l :: splitLines rest := by
  have hreturn : '\r' ∉ l := fun h => absurd (hl _ h) (by decide)
  have hfeed : consToLines '\n' (splitLines rest) = [] :: splitLines rest := if_pos (by decide)
  rw [splitLines, unifyNewlines_append hreturn, unifyNewlines_cons (by decide), List.foldr_append, List.foldr_cons,
    ← splitLines, hfeed, foldr_consToLines hl, List.append_nil]

/-- The lines, each with a line feed at its end. -/
def unlines (ls : List (List Char)) : List Char := ls.flatMap (· ++ ['\n'])

theorem splitLines_unlines (h : ∀ l ∈ ls, ∀ c ∈ l, isLineBreak c = false) (rest : List Char) :
    splitLines (unlines ls ++ rest) = ls ++ splitLines rest := by
  induction ls with
  | nil => rfl
  | cons l ls ih =>
    obtain ⟨hl, hls⟩ := List.forall_mem_cons.mp h
    have hsplit : unlines (l :: ls) ++ rest = l ++ '\n' :: (unlines ls ++ rest) := by simp [unlines]
    rw [hsplit, splitLines_line hl, ih hls, List.cons_append]

/-! Parts between separators. -/

theorem splitAtChar_eq_splitOn (sep : Char) (s : List Char) : splitAtChar sep s = s.splitOn sep := by
  induction s with
  | nil => rfl
  | cons c s ih =>
    have hne : splitAtChar sep s ≠ [] := ih ▸ List.splitOn_ne_nil sep s
    rw [List.splitOn_cons_eq_if_modifyHead, ← ih]
    unfold splitAtChar at hne ⊢
    rw [List.foldr_cons]
    split
    · rfl
    · split
      case h_1 h => exact absurd h hne
      case h_2 h => rw [h, List.modifyHead_cons]

theorem notMem_of_mem_splitOn {sep : Char} {s part : List Char} (h : part ∈ s.splitOn sep) : sep ∉ part := by
  induction s generalizing part with
  | nil => simp_all
  | cons c s ih =>
    rw [List.splitOn_cons_eq_if_modifyHead] at h
    split at h
    case isTrue =>
      rcases List.mem_cons.mp h with rfl | h
      · exact List.not_mem_nil
      · exact ih h
    case isFalse hc =>
      cases hs : s.splitOn sep with
      | nil => exact absurd hs (List.splitOn_ne_nil sep s)
      | cons first rest =>
        rw [hs, List.modifyHead_cons] at h
        rcases List.mem_cons.mp h with rfl | h
        · have hfirst : sep ∉ first := ih (hs ▸ List.mem_cons_self)
          simpa [hfirst] using fun he => hc (beq_iff_eq.mpr he.symm)
        · exact ih (hs ▸ List.mem_cons_of_mem first h)

end QualityGate.Text
