import Mathlib
import QualityGate.Json.Reader
import QualityGate.Json.Writer

/-! A whole number is read back from its digits when these are within the reader's
bound, and only then. -/

namespace QualityGate.Json

variable {σ : Type}

theorem isAsciiDigit_of_mem_toDigits {c : Char} {n : Nat} (h : c ∈ Nat.toDigits 10 n) : isAsciiDigit c = true := by
  have hd : c.isDigit = true := Nat.isDigit_of_mem_toDigits (by decide) (by decide) h
  simpa [isAsciiDigit, Char.isDigit, Char.le_def] using hd

theorem asciiNat_toDigits (n : Nat) : asciiNat (Nat.toDigits 10 n) = n := by
  have hfold : asciiNat (Nat.toDigits 10 n) = Nat.ofDigitChars 10 (Nat.toDigits 10 n) 0 := by
    simp only [asciiNat, Nat.ofDigitChars_eq_foldl, Nat.mul_comm _ 10]
    rfl
  rw [hfold, Nat.ofDigitChars_ten_toDigits]

/-- What may follow a number without becoming a part of it. -/
def EndsNumber (rest : List Char) : Prop :=
  ∀ c ∈ rest.head?, isAsciiDigit c = false ∧ c ≠ '.' ∧ c ≠ 'e' ∧ c ≠ 'E'

theorem takeWhile_digits {n : Nat} {rest : List Char} (h : EndsNumber rest) :
    (Nat.toDigits 10 n ++ rest).takeWhile isAsciiDigit = Nat.toDigits 10 n := by
  rw [List.takeWhile_append_of_pos fun c hc => isAsciiDigit_of_mem_toDigits hc]
  cases rest with
  | nil => simp
  | cons c rest => simp [(h c rfl).1]

theorem fractionDigits_of_ends {rest : List Char} (h : EndsNumber rest) : fractionDigits rest = [] := by
  cases rest with
  | nil => rfl
  | cons c rest =>
    rw [fractionDigits]
    exact fun r he => (h c rfl).2.1 (by simp_all)

theorem exponentPart_of_ends {rest : List Char} (h : EndsNumber rest) : exponentPart rest = (0, 0) := by
  cases rest with
  | nil => rfl
  | cons c rest => simp [exponentPart, h c rfl]

/-- No number but zero is written with a zero in front. -/
theorem toDigits_eq_zero_or (n : Nat) :
    Nat.toDigits 10 n = ['0'] ∨ ∃ d ds, Nat.toDigits 10 n = d :: ds ∧ d ≠ '0' := by
  induction n using Nat.strongRecOn with
  | ind n ih =>
    by_cases h : n < 10
    · rw [Nat.toDigits_of_lt_base h]
      by_cases hz : n = 0
      · exact .inl (by simp [hz])
      · exact .inr ⟨_, _, rfl, by simpa using hz⟩
    · rw [Nat.toDigits_of_base_le (by decide) (by omega)]
      rcases ih (n / 10) (by omega) with hz | ⟨d, ds, hd, hne⟩
      · have hvalue := asciiNat_toDigits (n / 10)
        rw [hz] at hvalue
        simp [asciiNat] at hvalue
        omega
      · exact .inr ⟨d, ds ++ [(n % 10).digitChar], by simp [hd], hne⟩

/-- Digits are read as the number they spell, unless there are too many of them. -/
theorem number_toDigits (n : Nat) (negative : Bool) (start index : Nat) {rest : List Char} (h : EndsNumber rest) :
    number (σ := σ) start negative index (Nat.toDigits 10 n ++ rest) =
      if (Nat.toDigits 10 n).length > Numeral.mostDigits then
        .error ⟨.tooManyDigits (Nat.toDigits 10 n).length, start⟩
      else .ok ⟨int (Numeral.withSign negative n), index + (Nat.toDigits 10 n).length, rest⟩ := by
  have hvalue := asciiNat_toDigits n
  rcases toDigits_eq_zero_or n with hz | ⟨d, ds, hd, hne⟩
  · rw [hz] at hvalue ⊢
    simp [number, fractionDigits_of_ends h, exponentPart_of_ends h, hvalue, Numeral.mostDigits]
  · have hwhole := takeWhile_digits h (n := n)
    rw [hd] at hvalue hwhole ⊢
    rw [List.cons_append] at hwhole ⊢
    simp [number, hne, hwhole, fractionDigits_of_ends h, exponentPart_of_ends h, hvalue]

theorem toDigits_tooMany_iff {n : Nat} :
    (Nat.toDigits 10 n).length > Numeral.mostDigits ↔ 10 ^ Numeral.mostDigits ≤ n := by
  rw [← Nat.not_lt, ← Nat.length_toDigits_le_iff (by decide) (by decide), Nat.not_le]

/-- No word begins as a number does. -/
theorem word_heads : ∀ w ∈ (words : List (String × Json σ)), ∃ c cs, w.1.toList = c :: cs ∧ isAsciiDigit c = false ∧
    (c = '-' → cs = "Infinity".toList) := by
  simp only [words, List.forall_mem_cons, List.not_mem_nil, false_implies, implies_true, and_true]
  exact ⟨⟨_, _, rfl, by decide⟩, ⟨_, _, rfl, by decide⟩, ⟨_, _, rfl, by decide⟩,
    ⟨_, _, rfl, by decide⟩, ⟨_, _, rfl, by decide⟩, ⟨_, _, rfl, by decide⟩⟩

theorem word_eq_none {s : List Char} (h : ∀ w ∈ (words : List (String × Json σ)), ¬ w.1.toList <+: s) (index : Nat) :
    (word? index s : Option (Step (Json σ))) = none := by
  refine List.findSome?_eq_none_iff.mpr fun w hw => if_neg fun hprefix => ?_
  exact h w hw (List.isPrefixOf_iff_prefix.mp hprefix)

theorem word_of_digit {d : Char} (hd : isAsciiDigit d = true) (index : Nat) (rest : List Char) :
    (word? index (d :: rest) : Option (Step (Json σ))) = none := by
  refine word_eq_none (fun w hw hprefix => ?_) index
  obtain ⟨c, cs, he, hdigit, -⟩ := word_heads w hw
  rw [he, List.cons_prefix_cons] at hprefix
  simp [← hprefix.1, hdigit] at hd

theorem word_of_minus {d : Char} (hd : isAsciiDigit d = true) (index : Nat) (rest : List Char) :
    (word? index ('-' :: d :: rest) : Option (Step (Json σ))) = none := by
  refine word_eq_none (fun w hw hprefix => ?_) index
  obtain ⟨c, cs, he, -, hinfinity⟩ := word_heads w hw
  rw [he, List.cons_prefix_cons] at hprefix
  rw [hinfinity hprefix.1] at hprefix
  have hI : 'I' = d := (List.cons_prefix_cons.mp hprefix.2).1
  simp [← hI, isAsciiDigit] at hd

theorem toDigits_eq_cons (n : Nat) : ∃ d ds, Nat.toDigits 10 n = d :: ds ∧ isAsciiDigit d = true := by
  obtain ⟨d, ds, hd⟩ := List.exists_cons_of_ne_nil (Nat.toDigits_ne_nil (n := n) (b := 10))
  exact ⟨d, ds, hd, isAsciiDigit_of_mem_toDigits (n := n) (by simp [hd])⟩

theorem int_toList (n : Int) :
    (toString n).toList = if 0 ≤ n then Nat.toDigits 10 n.natAbs else '-' :: Nat.toDigits 10 n.natAbs := by
  rw [Int.toString_eq_repr, Int.repr_eq_if]
  split
  case isTrue hn => simp [show n.toNat = n.natAbs by omega]
  case isFalse hn => simp [show (-n).toNat = n.natAbs by omega]

/-- A whole number is read from its text, unless it has too many digits. -/
theorem scalar_int (n : Int) (index : Nat) {rest : List Char} (h : EndsNumber rest) :
    ∃ index', scalar (σ := σ) index ((toString n).toList ++ rest) =
      if 10 ^ Numeral.mostDigits ≤ n.natAbs then
        .error ⟨.tooManyDigits (Nat.toDigits 10 n.natAbs).length, index⟩
      else .ok ⟨int n, index', rest⟩ := by
  obtain ⟨d, ds, hd, hdigit⟩ := toDigits_eq_cons n.natAbs
  rw [int_toList]
  simp only [← toDigits_tooMany_iff]
  by_cases hn : 0 ≤ n
  · have hread := @number_toDigits σ n.natAbs false index index rest h
    have hvalue : Numeral.withSign false n.natAbs = n := Int.natAbs_of_nonneg hn
    have hminus : d ≠ '-' := by rintro rfl; simp [isAsciiDigit] at hdigit
    refine ⟨index + (Nat.toDigits 10 n.natAbs).length, ?_⟩
    rw [hvalue] at hread
    rw [if_pos hn, ← hread, hd]
    simp [scalar, word_of_digit hdigit, hminus]
  · have hread := @number_toDigits σ n.natAbs true index (index + 1) rest h
    have hvalue : Numeral.withSign true n.natAbs = n := by
      show -(n.natAbs : Int) = n
      omega
    refine ⟨index + 1 + (Nat.toDigits 10 n.natAbs).length, ?_⟩
    rw [hvalue] at hread
    rw [if_neg hn, ← hread, hd]
    simp [scalar, word_of_minus hdigit]

end QualityGate.Json
