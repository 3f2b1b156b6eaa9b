import Mathlib
import QualityGate.Text.Utf8

/-! The decoder reads every text back from its bytes. -/

namespace QualityGate.Text

namespace Utf8

theorem isContinuation_iff {b : UInt8} : isContinuation b = true ↔ 0x80 ≤ b.toNat ∧ b.toNat < 0xc0 := by
  simp [isContinuation, UInt8.le_iff_toNat_le, UInt8.lt_iff_toNat_lt]

theorem secondFits_of_bounds {first second : UInt8} (h : 0x80 ≤ second.toNat ∧ second.toNat < 0xc0)
    (hlow : (first.toNat = 0xe0 → 0xa0 ≤ second.toNat) ∧ (first.toNat = 0xf0 → 0x90 ≤ second.toNat))
    (hhigh : (first.toNat = 0xed → second.toNat < 0xa0) ∧ (first.toNat = 0xf4 → second.toNat < 0x90)) :
    secondFits first second = true := by
  simp only [secondFits, beq_iff_eq, ← UInt8.toNat_inj]
  split <;> rename_i he
  · simp [UInt8.le_iff_toNat_le, UInt8.lt_iff_toNat_lt, h.2, hlow.1 he]
  split <;> rename_i he
  · simp [UInt8.le_iff_toNat_le, UInt8.lt_iff_toNat_lt, h.1, hhigh.1 he]
  split <;> rename_i he
  · simp [UInt8.le_iff_toNat_le, UInt8.lt_iff_toNat_lt, h.2, hlow.2 he]
  split <;> rename_i he
  · simp [UInt8.le_iff_toNat_le, UInt8.lt_iff_toNat_lt, h.1, hhigh.2 he]
  · exact isContinuation_iff.mpr h

/-- A first byte with all the bytes that go on its character. -/
theorem head_of_fits {first second : UInt8} (tail rest : List UInt8)
    (hfirst : 0xc2 ≤ first.toNat ∧ first.toNat ≤ 0xf4) (hsecond : secondFits first second = true)
    (htail : ∀ b ∈ tail, isContinuation b = true) (hlength : continuationLength first = tail.length + 1) :
    head first (second :: tail ++ rest) =
      .char (Char.ofNat ((second :: tail).foldl (fun v b => v * 64 + (b.toNat - 0x80)) (leadingBits first)))
        (tail.length + 2) := by
  have hascii : ¬ first < 0x80 := by
    simp [UInt8.lt_iff_toNat_lt]; omega
  have hstart : (decide (first < 0xc2) || decide (0xf4 < first)) = false := by
    simp [UInt8.lt_iff_toNat_lt]; omega
  have hfound : continuation first (tail.length + 1) (second :: tail ++ rest) = second :: tail := by
    simp [continuation, hsecond, List.takeWhile_eq_self_iff.mpr htail]
  simp only [head, if_neg hascii, hstart, Bool.false_eq_true, if_false, hlength, hfound, List.length_cons,
    beq_self_eq_true, if_true]

theorem continuationLength_eq (first : UInt8) :
    continuationLength first = if first.toNat < 0xe0 then 1 else if first.toNat < 0xf0 then 2 else 3 := by
  simp [continuationLength, UInt8.lt_iff_toNat_lt]

theorem leadingBits_eq (first : UInt8) :
    leadingBits first =
      first.toNat - if first.toNat < 0xe0 then 0xc0 else if first.toNat < 0xf0 then 0xe0 else 0xf0 := by
  simp only [leadingBits, UInt8.lt_iff_toNat_lt, UInt8.reduceToNat]
  split <;> [rfl; split <;> rfl]

/-- The encoder writes a character as the decoder's first byte with all that goes on it. -/
theorem head_encoded (c : Char) (rest : List UInt8) :
    ∃ b r, String.utf8EncodeChar c = b :: r ∧ head b (r ++ rest) = .char c (r.length + 1) := by
  have hval : c.val.toNat = c.toNat := rfl
  have hvalid : c.toNat < 0xd800 ∨ 0xdfff < c.toNat ∧ c.toNat < 0x110000 := c.valid
  have hnat {n : Nat} (h : n < 256) : (UInt8.ofNat n).toNat = n := UInt8.toNat_ofNat_of_lt' h
  have hnatTail (n : Nat) : (UInt8.ofNat (n % 64 + 128)).toNat = n % 64 + 128 := hnat (by omega)
  have htail (n : Nat) : isContinuation (UInt8.ofNat (n % 64 + 128)) = true := by
    rw [isContinuation_iff, hnatTail]
    omega
  have hlast := hnatTail c.toNat
  have hmiddle := hnatTail (c.toNat / 64)
  have hupper := hnatTail (c.toNat / 4096)
  simp only [String.utf8EncodeChar, hval]
  split
  case isTrue h1 =>
    have hfirst : (UInt8.ofNat c.toNat).toNat = c.toNat := hnat (by omega)
    have hascii : UInt8.ofNat c.toNat < 0x80 := by
      rw [UInt8.lt_iff_toNat_lt, hfirst]
      exact Nat.lt_succ_of_le h1
    exact ⟨_, _, rfl, by simp only [head, if_pos hascii, hfirst, Char.ofNat_toNat, List.length_nil]⟩
  split
  case isTrue h1 h2 =>
    have hfirst : (UInt8.ofNat (c.toNat / 64 % 32 + 192)).toNat = c.toNat / 64 + 192 := by
      rw [hnat (by omega)]; omega
    refine ⟨_, _, rfl, ?_⟩
    generalize UInt8.ofNat (c.toNat / 64 % 32 + 192) = first at *
    have hlength : continuationLength first = 1 := by rw [continuationLength_eq, if_pos (by omega)]
    have hbits : leadingBits first = c.toNat / 64 := by rw [leadingBits_eq, if_pos (by omega)]; omega
    have hfits : secondFits first (.ofNat (c.toNat % 64 + 128)) = true :=
      secondFits_of_bounds (by omega) (by omega) (by omega)
    refine (head_of_fits [] rest (by omega) hfits (by simp) hlength).trans ?_
    simp only [List.foldl, hbits, hlast]
    rw [show c.toNat / 64 * 64 + (c.toNat % 64 + 128 - 128) = c.toNat by omega, Char.ofNat_toNat]
    rfl
  split
  case isTrue h1 h2 h3 =>
    have hfirst : (UInt8.ofNat (c.toNat / 4096 % 16 + 224)).toNat = c.toNat / 4096 + 224 := by
      rw [hnat (by omega)]; omega
    refine ⟨_, _, rfl, ?_⟩
    generalize UInt8.ofNat (c.toNat / 4096 % 16 + 224) = first at *
    have hlength : continuationLength first = 2 := by
      rw [continuationLength_eq, if_neg (by omega), if_pos (by omega)]
    have hbits : leadingBits first = c.toNat / 4096 := by
      rw [leadingBits_eq, if_neg (by omega), if_pos (by omega)]; omega
    have hfits : secondFits first (.ofNat (c.toNat / 64 % 64 + 128)) = true :=
      secondFits_of_bounds (by omega) (by omega) (by omega)
    refine (head_of_fits [_] rest (by omega) hfits (List.forall_mem_cons.mpr ⟨htail _, nofun⟩) hlength).trans ?_
    simp only [List.foldl, hbits, hlast, hmiddle]
    rw [show (c.toNat / 4096 * 64 + (c.toNat / 64 % 64 + 128 - 128)) * 64 + (c.toNat % 64 + 128 - 128) = c.toNat by
      omega, Char.ofNat_toNat]
    rfl
  case isFalse h1 h2 h3 =>
    have hfirst : (UInt8.ofNat (c.toNat / 262144 % 8 + 240)).toNat = c.toNat / 262144 + 240 := by
      rw [hnat (by omega)]; omega
    refine ⟨_, _, rfl, ?_⟩
    generalize UInt8.ofNat (c.toNat / 262144 % 8 + 240) = first at *
    have hlength : continuationLength first = 3 := by
      rw [continuationLength_eq, if_neg (by omega), if_neg (by omega)]
    have hbits : leadingBits first = c.toNat / 262144 := by
      rw [leadingBits_eq, if_neg (by omega), if_neg (by omega)]; omega
    have hfits : secondFits first (.ofNat (c.toNat / 4096 % 64 + 128)) = true :=
      secondFits_of_bounds (by omega) (by omega) (by omega)
    refine (head_of_fits [_, _] rest (by omega) hfits
      (List.forall_mem_cons.mpr ⟨htail _, List.forall_mem_cons.mpr ⟨htail _, nofun⟩⟩) hlength).trans ?_
    simp only [List.foldl, hbits, hlast, hmiddle, hupper]
    rw [show ((c.toNat / 262144 * 64 + (c.toNat / 4096 % 64 + 128 - 128)) * 64 +
      (c.toNat / 64 % 64 + 128 - 128)) * 64 + (c.toNat % 64 + 128 - 128) = c.toNat by omega, Char.ofNat_toNat]
    rfl

theorem decodeFrom_encoded (cs : List Char) (index : Nat) (acc : List Char) :
    decodeFrom index (cs.flatMap String.utf8EncodeChar) acc = .ok (acc.reverse ++ cs) := by
  induction cs generalizing index acc with
  | nil => simp [decodeFrom]
  | cons c cs ih =>
    obtain ⟨b, r, hc, hhead⟩ := head_encoded c (cs.flatMap String.utf8EncodeChar)
    rw [List.flatMap_cons, hc, List.cons_append, decodeFrom]
    simp only [hhead, Nat.add_sub_cancel, List.drop_left, ih, List.reverse_cons, List.append_assoc,
      List.singleton_append]

theorem toUTF8_data (s : String) : s.toUTF8.data.toList = s.toList.flatMap String.utf8EncodeChar := by
  rw [show s.toUTF8 = s.toList.utf8Encode from String.utf8Encode_toList.symm]
  simp [List.utf8Encode]

@[simp]
theorem decode_toUTF8 (s : String) : decode s.toUTF8.data.toList = .ok s.toList := by
  rw [toUTF8_data, decode, decodeFrom_encoded]
  rfl

/-- A text that begins with an ASCII character has no mark in front. -/
theorem decodeMarked_toUTF8 {s : String} {c : Char} {cs : List Char} (h : s.toList = c :: cs) (hc : c.toNat < 0x80) :
    decodeMarked s.toUTF8.data.toList = .ok s.toList := by
  obtain ⟨r, hbytes⟩ : ∃ r, s.toUTF8.data.toList = UInt8.ofNat c.toNat :: r := by
    have hle : c.toNat ≤ 127 := Nat.le_of_lt_succ hc
    rw [toUTF8_data, h, List.flatMap_cons, String.utf8EncodeChar]
    exact ⟨cs.flatMap String.utf8EncodeChar, by simp [hle]⟩
  have hmark : UInt8.ofNat c.toNat ≠ 0xef := by
    intro he
    have htoNat : (UInt8.ofNat c.toNat).toNat = 0xef := congrArg UInt8.toNat he
    rw [UInt8.toNat_ofNat'] at htoNat
    omega
  have hdecode := decode_toUTF8 s
  rw [hbytes] at hdecode ⊢
  rw [decodeMarked, if_neg, if_neg, hdecode]
  · intro hprefix
    rw [byteOrderMark, List.isPrefixOf_cons_cons, Bool.and_eq_true, beq_iff_eq] at hprefix
    exact hmark hprefix.1.symm
  · intro hprefix
    rw [byteOrderMark, List.isPrefixOf_cons_cons, Bool.and_eq_true, beq_iff_eq] at hprefix
    exact hmark hprefix.1

end Utf8

/-! Line ends. -/

theorem unifyNewlines_go_append (s acc before : List Char) :
    unifyNewlines.go s (acc ++ before) = unifyNewlines.go s acc ++ before := by
  fun_induction unifyNewlines.go s acc with
  | case1 acc => rfl
  | case2 acc r ih => rw [unifyNewlines.go, ← List.cons_append, ih]
  | case3 acc r h ih =>
    rw [unifyNewlines.go, ← List.cons_append, ih]
    exact h
  | case4 acc c r h h' ih =>
    rw [unifyNewlines.go, ← List.cons_append, ih]
    · exact h
    · exact h'

theorem unifyNewlines_go_eq (s acc : List Char) : unifyNewlines.go s acc = unifyNewlines.go s [] ++ acc :=
  unifyNewlines_go_append s [] acc

theorem unifyNewlines_cons {c : Char} (h : c ≠ '\r') (s : List Char) :
    unifyNewlines (c :: s) = c :: unifyNewlines s := by
  rw [unifyNewlines, unifyNewlines.go, unifyNewlines_go_eq]
  · simp [unifyNewlines]
  · exact fun r he _ => h he
  · exact h

/-- What holds no carriage return is already as it should be. -/
theorem unifyNewlines_append {s : List Char} (h : '\r' ∉ s) (rest : List Char) :
    unifyNewlines (s ++ rest) = s ++ unifyNewlines rest := by
  induction s with
  | nil => rfl
  | cons c s ih =>
    rw [List.mem_cons, not_or] at h
    rw [List.cons_append, unifyNewlines_cons (Ne.symm h.1), ih h.2, List.cons_append]

theorem unifyNewlines_of_notMem {s : List Char} (h : '\r' ∉ s) : unifyNewlines s = s := by
  simpa [unifyNewlines, unifyNewlines.go] using unifyNewlines_append h []

end QualityGate.Text
