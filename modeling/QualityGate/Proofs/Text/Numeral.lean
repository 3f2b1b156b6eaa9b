import Mathlib
import QualityGate.Json.Writer
import QualityGate.Timestamp
import QualityGate.Decimal.Numeral
import QualityGate.Proofs.Json.WholeNumber
import QualityGate.Proofs.Text.Lines

/-! Numbers written with a fixed number of digits. -/

namespace QualityGate

/-- The last digit of a number that is filled up with zeros is its remainder; those before it are the
quotient, filled up likewise. -/
theorem filled_toDigits_succ {base width : Nat} (hbase : 1 < base) (hwidth : 0 < width) (n : Nat) :
    List.replicate (width + 1 - (Nat.toDigits base n).length) '0' ++ Nat.toDigits base n =
      List.replicate (width - (Nat.toDigits base (n / base)).length) '0' ++ Nat.toDigits base (n / base) ++
        [(n % base).digitChar] := by
  by_cases h : n < base
  · obtain ⟨width, rfl⟩ : ∃ k, width = k + 1 := ⟨width - 1, by omega⟩
    simp [Nat.toDigits_of_lt_base h, Nat.div_eq_of_lt h, Nat.mod_eq_of_lt h, List.replicate_succ']
  · rw [Nat.toDigits_of_base_le hbase (by omega)]
    simp

theorem hexDigits_four {n : Nat} (h : n < 65536) :
    hexDigits 4 n =
      [(n / 4096).digitChar, (n / 256 % 16).digitChar, (n / 16 % 16).digitChar, (n % 16).digitChar] := by
  have hfirst : Nat.toDigits 16 (n / 16 / 16 / 16) = [(n / 4096).digitChar] := by
    rw [Nat.toDigits_of_lt_base (by omega), show n / 16 / 16 / 16 = n / 4096 by omega]
  simp only [hexDigits]
  rw [filled_toDigits_succ (by decide) (by decide), filled_toDigits_succ (by decide) (by decide),
    filled_toDigits_succ (by decide) (by decide), hfirst]
  simp [Nat.div_div_eq_div_mul]

end QualityGate

/-! Decimal digits, of whatever script, spell a whole number unless there are too
many of them. -/

namespace QualityGate.Numeral

open Text

variable {c : Char} {ds : List Char}

theorem decimalValue?_lt {d : Nat} (h : decimalValue? c = some d) : d < 10 := by
  simp only [decimalValue?] at h
  split at h
  · split at h
    case isTrue hrange =>
      obtain rfl := Option.some.inj h
      simp only [Bool.and_eq_true, decide_eq_true_eq] at hrange
      omega
    case isFalse => cases h
  · obtain ⟨z, hz, rfl⟩ := Option.map_eq_some_iff.mp h
    have hrange := Array.find?_some hz
    simp only [Bool.and_eq_true, decide_eq_true_eq] at hrange
    omega

/-- The ASCII digit of the same value. -/
def asciiDigit (c : Char) : Char := Char.ofNat (48 + (decimalValue? c).getD 0)

theorem isBlank_of_isDecimal (h : isDecimal c = true) : isBlank c = false :=
  isBlank_of_isWordChar (isWordChar_of_isDecimal h)

theorem trimSpaces_of_visible {cs : List Char} (h : ∀ c ∈ cs, isSpace c = false) : trimSpaces cs = cs := by
  have hdrop (l : List Char) (hl : ∀ c ∈ l, isSpace c = false) : l.dropWhile isSpace = l := by
    cases l with
    | nil => rfl
    | cons c l => simp [hl c]
  rw [trimSpaces, hdrop cs h, hdrop cs.reverse (by simpa using h), List.reverse_reverse]

theorem inAscii_digits (h : ∀ c ∈ ds, isDecimal c = true) : inAscii ds = ds.map asciiDigit := by
  have hblank : ∀ c ∈ ds, isBlank c = false := fun c hc => isBlank_of_isDecimal (h c hc)
  have htrimSpaces : trimSpaces ds = ds := trimSpaces_of_visible fun c hc => by simp [isSpace, hblank c hc]
  rw [inAscii, trim_of_visible hblank, htrimSpaces, ite_self]
  refine List.map_congr_left fun c hc => ?_
  obtain ⟨d, hd⟩ := Option.isSome_iff_exists.mp (h c hc)
  simp [asciiDigit, hd]

theorem hexValue?_asciiDigit (h : isDecimal c = true) :
    ∃ d, d < 10 ∧ hexValue? (asciiDigit c) = some d ∧ asciiDigit c ≠ '-' ∧ asciiDigit c ≠ '+' ∧
      asciiDigit c ≠ '_' := by
  obtain ⟨d, hd⟩ := Option.isSome_iff_exists.mp h
  have hlt := decimalValue?_lt hd
  have hall : ∀ d < 10, hexValue? (Char.ofNat (48 + d)) = some d ∧ Char.ofNat (48 + d) ≠ '-' ∧
      Char.ofNat (48 + d) ≠ '+' ∧ Char.ofNat (48 + d) ≠ '_' := by decide
  simp only [asciiDigit, hd, Option.getD_some]
  exact ⟨d, hlt, hall d hlt⟩

theorem ungrouped?_digits {isDigit : Char → Bool} (h : ∀ c ∈ ds, c ≠ '_') (afterDigit : Bool) :
    ungrouped? isDigit afterDigit ds = some ds := by
  induction ds generalizing afterDigit with
  | nil => rfl
  | cons c ds ih =>
    obtain ⟨hc, hds⟩ := List.forall_mem_cons.mp h
    simp [ungrouped?, hc, ih hds]

theorem whole_digits (h : ∀ c ∈ ds, isDecimal c = true) (hne : ds ≠ []) :
    whole 10 ds = if mostDigits < ds.length then .error (.tooLong ds.length)
      else .ok (valueIn 10 (ds.map asciiDigit)) := by
  have hdigit : ∀ c ∈ ds.map asciiDigit, ∃ d, d < 10 ∧ hexValue? c = some d ∧ c ≠ '-' ∧ c ≠ '+' ∧ c ≠ '_' := by
    simpa using fun c hc => hexValue?_asciiDigit (h c hc)
  have hgrouped : ∀ c ∈ ds.map asciiDigit,
      (((hexValue? c).filter (· < 10)).isSome || c == '_') = true := fun c hc => by
    obtain ⟨d, hd, hvalue, -⟩ := hdigit c hc
    simp [hvalue, hd, Option.filter]
  have hlength : (ds.map asciiDigit).length = ds.length := List.length_map _
  have hsigned : signed (inAscii ds) = (false, ds.map asciiDigit) := by
    rw [inAscii_digits h]
    cases ds with
    | nil => rfl
    | cons c ds =>
      obtain ⟨-, -, -, hminus, hplus, -⟩ := hdigit _ List.mem_cons_self
      simp [signed, hminus, hplus]
  have hmark : dropBaseMark 10 (ds.map asciiDigit) = ds.map asciiDigit := by
    rw [dropBaseMark.eq_def]
    split
    · simp [baseLetter, *]
    · rfl
  have htake := List.takeWhile_eq_self_iff.mpr hgrouped
  have hdrop := List.dropWhile_eq_nil_iff.mpr hgrouped
  simp only [whole, hsigned, hmark, htake, hdrop, ungrouped?_digits fun c hc => (hdigit c hc).choose_spec.2.2.2.2]
  simp [hlength, hne, withSign]

/-! The digits of a number. -/

theorem isDecimal_of_isAsciiDigit (h : Json.isAsciiDigit c = true) : isDecimal c = true ∧ asciiDigit c = c := by
  have hrange : 48 ≤ c.toNat ∧ c.toNat ≤ 57 := by
    simpa [Json.isAsciiDigit, Char.le_def, UInt32.le_iff_toNat_le] using h
  have hvalue : decimalValue? c = some (c.toNat - 48) := by
    simp only [decimalValue?, if_pos (show c.toNat < 128 by omega)]
    exact if_pos (by simp [hrange])
  refine ⟨by simp [isDecimal, hvalue], ?_⟩
  rw [asciiDigit, hvalue, Option.getD_some, show 48 + (c.toNat - 48) = c.toNat by omega, Char.ofNat_toNat]

theorem valueIn_eq_asciiNat (h : ∀ c ∈ ds, Json.isAsciiDigit c = true) : valueIn 10 ds = Json.asciiNat ds := by
  refine List.foldl_ext _ _ 0 fun n c hc => ?_
  have hdigit : '0' ≤ c ∧ c ≤ '9' := by simpa [Json.isAsciiDigit] using h c hc
  simp [hexValue?, hdigit]

theorem isDecimal_of_mem_toDigits {n : Nat} (h : c ∈ Nat.toDigits 10 n) : isDecimal c = true :=
  (isDecimal_of_isAsciiDigit (Json.isAsciiDigit_of_mem_toDigits h)).1

/-- A number is read back from its digits unless it has too many. -/
theorem whole_toDigits (n : Nat) :
    whole 10 (Nat.toDigits 10 n) =
      if 10 ^ mostDigits ≤ n then .error (.tooLong (Nat.toDigits 10 n).length) else .ok n := by
  have hascii : (Nat.toDigits 10 n).map asciiDigit = Nat.toDigits 10 n :=
    (List.map_congr_left fun c hc => (isDecimal_of_isAsciiDigit (Json.isAsciiDigit_of_mem_toDigits hc)).2).trans
      (List.map_id _)
  rw [whole_digits (fun c hc => isDecimal_of_mem_toDigits hc) Nat.toDigits_ne_nil, hascii,
    valueIn_eq_asciiNat fun c hc => Json.isAsciiDigit_of_mem_toDigits hc, Json.asciiNat_toDigits]
  simp only [← gt_iff_lt, Json.toDigits_tooMany_iff]

end QualityGate.Numeral
