import Mathlib
import QualityGate.Proofs.Text.Numeral
import QualityGate.Proofs.Text.Utf8

/-! Every calendar time is read from its text as it was, but for its distance from
universal time, which is lost when it is shorter than a second. -/

namespace QualityGate

theorem byteArray_toList_loop (bs : ByteArray) (i : Nat) (acc : List UInt8) :
    ByteArray.toList.loop bs i acc = acc.reverse ++ bs.data.toList.drop i := by
  fun_induction ByteArray.toList.loop bs i acc with
  | case1 i acc h ih =>
    have hi : i < bs.data.toList.length := by simpa using h
    rw [ih, List.drop_eq_getElem_cons hi]
    simp [ByteArray.get!, h]
  | case2 i acc h =>
    rw [List.drop_eq_nil_of_le (by simpa using Nat.le_of_not_lt h), List.append_nil]

namespace Timestamp

/-- The bytes of a plain text are the numbers of its characters. -/
theorem bytes_of_ascii {s : String} (h : ∀ c ∈ s.toList, c.toNat < 128) :
    s.toUTF8.toList.map UInt8.toNat = s.toList.map Char.toNat := by
  rw [ByteArray.toList, byteArray_toList_loop, Text.Utf8.toUTF8_data]
  simp only [List.reverse_nil, List.nil_append, List.drop_zero]
  generalize s.toList = cs at *
  induction cs with
  | nil => rfl
  | cons c cs ih =>
    have hc : c.toNat < 128 := h c List.mem_cons_self
    have hsize : c.val.toNat ≤ 0x7f := Nat.le_of_lt_succ hc
    have hbyte : (UInt8.ofNat c.val.toNat).toNat = c.toNat := UInt8.toNat_ofNat_of_lt' (Nat.lt_trans hc (by decide))
    have hcs := ih fun b hb => h b (List.mem_cons_of_mem c hb)
    simp only [List.flatMap_cons, String.utf8EncodeChar, if_pos hsize, List.singleton_append, List.map_cons, hbyte, hcs]

/-! Characters at known places. -/

/-- Whether the characters stand in the bytes from a place on. -/
def At (bs : List Nat) (i : Nat) (cs : List Char) : Prop := ∀ k (h : k < cs.length), bs[i + k]? = some cs[k].toNat

theorem At.left {bs : List Nat} {i : Nat} {as cs : List Char} (h : At bs i (as ++ cs)) : At bs i as := fun k hk => by
  have hget := h k (by simp; omega)
  rwa [List.getElem_append_left hk] at hget

theorem At.right {bs : List Nat} {i : Nat} {as cs : List Char} (h : At bs i (as ++ cs)) : At bs (i + as.length) cs :=
  fun k hk => by
    have hget := h (as.length + k) (by simp; omega)
    rw [List.getElem_append_right (by omega)] at hget
    simpa [Nat.add_assoc] using hget

theorem At.charAt {bs : List Nat} {i : Nat} {c : Char} {cs : List Char} (h : At bs i (c :: cs)) (d : Char) :
    charAt bs i d = (c == d) := by
  have hget := h 0 (by simp)
  simp only [Nat.add_zero, List.getElem_cons_zero] at hget
  simp only [Timestamp.charAt, hget]
  by_cases hd : c = d
  · simp [hd]
  · have hne : c.toNat ≠ d.toNat := fun he => hd (Char.toNat_inj.mp he)
    simp [hd, hne]

theorem At.digit {bs : List Nat} {i n : Nat} {cs : List Char} (h : At bs i (n.digitChar :: cs)) (hn : n < 10) :
    digit? bs i = some n := by
  have hget := h 0 (by simp)
  simp only [Nat.add_zero, List.getElem_cons_zero, Nat.toNat_digitChar_of_lt_ten hn] at hget
  simp only [digit?, hget]
  have hrange : 48 + n ≤ 57 := by omega
  simp [hrange]

theorem padded_toList (width n : Nat) :
    (padded width n).toList = List.replicate (width - (Nat.toDigits 10 n).length) '0' ++ Nat.toDigits 10 n := by
  simp [padded]

theorem padded_length {width n : Nat} (hwidth : 0 < width) (hn : n < 10 ^ width) :
    (padded width n).toList.length = width := by
  have hlength := (Nat.length_toDigits_le_iff (by decide) hwidth).mpr hn
  rw [padded_toList, List.length_append, List.length_replicate]
  omega

/-- A number of known width is read back. -/
theorem At.digits {bs : List Nat} {i n : Nat} {cs : List Char} {k : Nat} (h : At bs i ((padded (k + 1) n).toList ++ cs))
    (hn : n < 10 ^ (k + 1)) : digits? bs i (k + 1) = some n := by
  induction k generalizing n cs with
  | zero =>
    have hdigit : Nat.toDigits 10 n = [n.digitChar] := Nat.toDigits_of_lt_base hn
    rw [padded_toList, hdigit] at h
    simp [digits?, At.digit h hn]
  | succ k ih =>
    have hhigh : n / 10 < 10 ^ (k + 1) := Nat.div_lt_of_lt_mul (by rwa [Nat.pow_succ, Nat.mul_comm] at hn)
    rw [padded_toList, filled_toDigits_succ (by decide) (by omega), ← padded_toList, List.append_assoc] at h
    have hlow := h.right.digit (Nat.mod_lt n (by decide))
    rw [padded_length (by omega) hhigh] at hlow
    have hsum : n / 10 * 10 + n % 10 = n := by omega
    rw [digits?, ih h hhigh]
    simp [hlow, hsum]

theorem At.afterDigits {bs : List Nat} {i n : Nat} {cs : List Char} {k : Nat}
    (h : At bs i ((padded (k + 1) n).toList ++ cs)) (hn : n < 10 ^ (k + 1)) : At bs (i + (k + 1)) cs := by
  have hafter := h.right
  rwa [padded_length (by omega) hn] at hafter

theorem At.tail {bs : List Nat} {i : Nat} {c : Char} {cs : List Char} (h : At bs i (c :: cs)) : At bs (i + 1) cs :=
  At.right (show At bs i ([c] ++ cs) from h)

/-! Reading a clock. -/

section clock

variable {bs : List Nat} {i n stop : Nat} {cs : List Char}

theorem clock_field (h : At bs i ((padded 2 n).toList ++ ':' :: cs)) (hn : n < 100) (hstop : i + 3 < stop)
    (fuel field : Nat) (c : Clock) :
    clock? bs stop (fuel + 1) field true c i = clock? bs stop fuel (field + 1) true (c.set field n) (i + 3) := by
  have hcolon : charAt bs (i + 2) ':' = true := by simp [(h.afterDigits hn).charAt]
  have hgo : ¬ i + 2 + 1 ≥ stop := by omega
  simp [clock?, h.digits hn, hcolon, hgo]

theorem clock_last (h : At bs i ((padded 2 n).toList ++ cs)) (hn : n < 100) (hstop : stop = i + 2)
    (fuel field : Nat) (separated : Bool) (c : Clock) :
    clock? bs stop (fuel + 1) field separated c i = some (c.set field n, atTextEnd bs stop) := by
  simp [clock?, h.digits hn, hstop]

theorem clock_fraction {u : Nat} (h : At bs i ((padded 2 n).toList ++ '.' :: ((padded 6 u).toList ++ cs)))
    (hn : n < 100) (hu : u < 1000000) (hstop : stop = i + 9) (hend : isDigitAt bs stop = false) (fuel field : Nat)
    (hfield : field ≠ 0) (c : Clock) :
    clock? bs stop (fuel + 1) field true c i =
      some ({ c.set field n with microsecond := u }, atTextEnd bs stop) := by
  have hpoint := h.afterDigits hn
  have hmark : charAt bs (i + 2) '.' = true := by simp [hpoint.charAt]
  have hcolon : charAt bs (i + 2) ':' = false := by simp [hpoint.charAt]
  have hskip : skipDigits bs bs.length stop = stop := by
    cases bs.length with
    | zero => rfl
    | succ m => simp [skipDigits, hend]
  subst hstop
  simp [clock?, h.digits hn, hmark, hcolon, hfield, clockFraction?, hpoint.tail.digits hu, hskip, Decimal.tenTo]

end clock

/-- The text of a clock with its seconds. -/
def clockText (c : Clock) : List Char :=
  (padded 2 c.hour).toList ++ ':' :: ((padded 2 c.minute).toList ++ ':' :: ((padded 2 c.second).toList ++
    (fraction c.microsecond).toList))

structure Clock.InRange (c : Clock) : Prop where
  hour : c.hour < 100
  minute : c.minute < 100
  second : c.second < 100
  microsecond : c.microsecond < 1000000

theorem clockText_length {c : Clock} (hc : c.InRange) :
    (clockText c).length = if c.microsecond = 0 then 8 else 15 := by
  obtain ⟨hhour, hminute, hsecond, hmicrosecond⟩ := hc
  simp only [clockText, List.length_append, List.length_cons, padded_length (show 0 < 2 by decide) hhour,
    padded_length (show 0 < 2 by decide) hminute, padded_length (show 0 < 2 by decide) hsecond]
  by_cases h : c.microsecond = 0
  · simp [h, fraction]
  · simp [h, fraction, padded_length (show 0 < 6 by decide) hmicrosecond]

/-- A clock is read up to the end of its text. -/
theorem clockBetween_text {bs : List Nat} {i stop : Nat} {c : Clock} {cs : List Char} (hc : c.InRange)
    (h : At bs i (clockText c ++ cs)) (hstop : stop = i + (clockText c).length) (hend : isDigitAt bs stop = false) :
    clockBetween? bs i stop = some (c, atTextEnd bs stop) := by
  rw [clockText_length hc] at hstop
  obtain ⟨hhour, hminute, hsecond, hmicrosecond⟩ := hc
  simp only [clockText, List.append_assoc, List.cons_append] at h
  have hlong : i + 6 < stop := by split at hstop <;> omega
  have hminutes := (h.afterDigits hhour).tail
  have hseconds := (hminutes.afterDigits hminute).tail
  rw [clockBetween?, clock_field h hhour (by omega), clock_field hminutes hminute (by omega)]
  by_cases hzero : c.microsecond = 0
  · rw [if_pos hzero] at hstop
    rw [clock_last hseconds hsecond (by omega)]
    cases c
    simp_all [Clock.set]
  · rw [if_neg hzero] at hstop
    simp only [fraction, beq_eq_false_iff_ne.mpr hzero] at hseconds
    simp at hseconds
    rw [clock_fraction hseconds hsecond hmicrosecond (by omega) hend _ _ (by decide)]
    simp [Clock.set]

/-- A clock without seconds. -/
theorem clockBetween_minutes {bs : List Nat} {i hour minute stop : Nat} {cs : List Char} (hhour : hour < 100)
    (hminute : minute < 100) (h : At bs i ((padded 2 hour).toList ++ ':' :: ((padded 2 minute).toList ++ cs)))
    (hstop : stop = i + 5) : clockBetween? bs i stop = some (⟨hour, minute, 0, 0⟩, atTextEnd bs stop) := by
  rw [clockBetween?, clock_field h hhour (by omega),
    clock_last (h.afterDigits hhour).tail hminute (by omega)]
  rfl

/-! The characters of a text. -/

theorem mem_padded {width n : Nat} {c : Char} (h : c ∈ (padded width n).toList) : 48 ≤ c.toNat ∧ c.toNat ≤ 57 := by
  rw [padded_toList, List.mem_append, List.mem_replicate] at h
  rcases h with ⟨-, rfl⟩ | h
  · decide
  · have hdigit := Nat.isDigit_of_mem_toDigits (by decide) (by decide) h
    simpa [Char.isDigit, UInt32.le_iff_toNat_le] using hdigit

theorem mem_fraction {u : Nat} {c : Char} (h : c ∈ (fraction u).toList) : 46 ≤ c.toNat ∧ c.toNat ≤ 57 := by
  unfold fraction at h
  split at h
  · simp at h
  · rw [String.toList_append, List.mem_append] at h
    rcases h with h | h
    · have hc : c = '.' := by simpa using h
      subst hc
      decide
    · have hrange := mem_padded h
      omega

/-- No mark of a zone stands in a clock. -/
theorem mem_clockText {k : Clock} {c : Char} (h : c ∈ clockText k) : 46 ≤ c.toNat ∧ c.toNat ≤ 58 := by
  simp only [clockText, List.mem_append, List.mem_cons] at h
  rcases h with h | rfl | h | rfl | h | h
  · have hrange := mem_padded h; omega
  · decide
  · have hrange := mem_padded h; omega
  · decide
  · have hrange := mem_padded h; omega
  · have hrange := mem_fraction h; omega

/-! Offsets. -/

/-- The clock that an offset is written as. -/
def offsetClock (offset : Int) : Clock :=
  let seconds := offset.natAbs / 1000000
  ⟨seconds / 3600, seconds / 60 % 60, seconds % 60, offset.natAbs % 1000000⟩

def signOf (offset : Int) : Char := if offset < 0 then '-' else '+'

theorem offsetClock_inRange {offset : Int} (h : offset.natAbs < 86400000000) : (offsetClock offset).InRange := by
  constructor <;> simp only [offsetClock] <;> omega

/-- The offset that is read where `offset` was written. -/
def readOffset (offset : Int) : Int := if offset.natAbs < 1000000 then 0 else offset

theorem asOffset_offsetClock (offset : Int) : (offsetClock offset).asOffset = (readOffset offset).natAbs := by
  have hseconds (n : Nat) : n / 3600 * 3600 + n / 60 % 60 * 60 + n % 60 = n := by omega
  have hsum : offset.natAbs / 1000000 * 1000000 + offset.natAbs % 1000000 = offset.natAbs := by omega
  simp only [Clock.asOffset, offsetClock, hseconds, hsum, readOffset]
  by_cases h : offset.natAbs < 1000000
  · have hnone : offset.natAbs / 1000000 = 0 := Nat.div_eq_of_lt h
    simp [h, hnone]
  · have hsome : offset.natAbs / 1000000 ≠ 0 := by omega
    simp [h, hsome]

theorem signed_readOffset (offset : Int) :
    (if offset < 0 then -((readOffset offset).natAbs : Int) else (readOffset offset).natAbs) = readOffset offset := by
  unfold readOffset
  split <;> split <;> omega

/-- The minutes end an offset when there is nothing after them. -/
theorem offsetText_toList (offset : Int) :
    (offsetText offset).toList = signOf offset ::
      if (offsetClock offset).second = 0 ∧ (offsetClock offset).microsecond = 0 then
        (padded 2 (offsetClock offset).hour).toList ++ ':' :: (padded 2 (offsetClock offset).minute).toList
      else clockText (offsetClock offset) := by
  have hsign : (if offset < 0 then "-" else "+").toList = [signOf offset] := by
    unfold signOf
    split <;> rfl
  by_cases h : (offsetClock offset).second = 0 ∧ (offsetClock offset).microsecond = 0
  · rw [if_pos h]
    simp only [offsetClock] at h
    simp [offsetText, hsign, h.1, h.2, fraction, offsetClock]
  · rw [if_neg h]
    simp only [offsetClock] at h
    have hmore : (offset.natAbs / 1000000 % 60 != 0 || offset.natAbs % 1000000 != 0) = true := by
      simp; omega
    simp only [offsetText, hmore, if_true, String.toList_append, hsign]
    simp [clockText, offsetClock]

theorem digitAt_end (bs : List Nat) : isDigitAt bs bs.length = false := by
  simp [isDigitAt, digit?]

theorem clockBetween_offset {bs : List Nat} {i : Nat} {offset : Int} (hrange : offset.natAbs < 86400000000)
    (h : At bs i (offsetText offset).toList) (hend : bs.length = i + (offsetText offset).toList.length) :
    clockBetween? bs (i + 1) bs.length = some (offsetClock offset, true) := by
  have hin := offsetClock_inRange hrange
  rw [offsetText_toList] at h hend
  have hclock := h.tail
  by_cases hzero : (offsetClock offset).second = 0 ∧ (offsetClock offset).microsecond = 0
  · rw [if_pos hzero] at hclock hend
    rw [← List.append_nil ((padded 2 (offsetClock offset).minute).toList)] at hclock
    have hlength : bs.length = i + 1 + 5 := by
      simp only [List.length_cons, List.length_append, padded_length (show 0 < 2 by decide) hin.hour,
        padded_length (show 0 < 2 by decide) hin.minute] at hend
      omega
    rw [clockBetween_minutes hin.hour hin.minute hclock hlength]
    generalize offsetClock offset = c at hzero
    cases c
    simp_all [atTextEnd]
  · rw [if_neg hzero] at hclock hend
    rw [← List.append_nil (clockText (offsetClock offset))] at hclock
    rw [clockBetween_text hin hclock (by rw [List.length_cons] at hend; omega) (digitAt_end bs)]
    simp [atTextEnd]

/-- What stands after the clock. -/
def zoneText (offset : Option Int) : List Char := ((offset.map offsetText).getD "").toList

def isMark (bs : List Nat) (i : Nat) : Bool := charAt bs i '+' || charAt bs i '-' || charAt bs i 'Z'

theorem not_isMark_of_clock {bs : List Nat} {i k : Nat} {c : Clock} {cs : List Char}
    (h : At bs i (clockText c ++ cs)) (hk : i ≤ k ∧ k < i + (clockText c).length) : isMark bs k = false := by
  have hlt : k - i < (clockText c).length := by omega
  have hget := h.left (k - i) hlt
  rw [show i + (k - i) = k by omega] at hget
  have hrange := mem_clockText (List.getElem_mem hlt)
  simp only [isMark, charAt, hget, Bool.or_eq_false_iff, beq_eq_false_iff_ne, ne_eq, Option.some.injEq]
  refine ⟨⟨?_, ?_⟩, ?_⟩ <;> intro he <;> rw [he] at hrange <;> revert hrange <;> decide

theorem zone_none {bs : List Nat} {i : Nat} {c : Clock} (h : At bs i (clockText c))
    (hend : bs.length = i + (clockText c).length) : ((List.range bs.length).drop i).find? (isMark bs) = none := by
  rw [List.range_eq_range', List.drop_range', List.find?_range'_eq_none]
  intro k hlow hhigh
  rw [← List.append_nil (clockText c)] at h
  rw [not_isMark_of_clock h (show i ≤ k ∧ k < i + (clockText c).length by omega)]
  rfl

theorem zone_some {bs : List Nat} {i : Nat} {c : Clock} {offset : Int}
    (h : At bs i (clockText c ++ (offsetText offset).toList)) (hi : i + (clockText c).length < bs.length) :
    ((List.range bs.length).drop i).find? (isMark bs) = some (i + (clockText c).length) := by
  have hsign := h.right
  rw [offsetText_toList] at hsign
  rw [List.range_eq_range', List.drop_range', List.find?_range'_eq_some]
  refine ⟨?_, List.mem_range'_1.mpr ⟨by omega, by omega⟩, fun k hlow hhigh => ?_⟩
  · simp only [isMark, hsign.charAt, signOf]
    split <;> decide
  · simp [not_isMark_of_clock h ⟨by omega, hhigh⟩]

theorem isMark_eq (bs : List Nat) :
    isMark bs = fun i => charAt bs i '+' || charAt bs i '-' || charAt bs i 'Z' := rfl

theorem time_text {bs : List Nat} {i : Nat} {c : Clock} {offset : Option Int} (hc : c.InRange)
    (hrange : (offset.getD 0).natAbs < 86400000000) (h : At bs i (clockText c ++ zoneText offset))
    (hend : bs.length = i + (clockText c ++ zoneText offset).length) :
    time? bs i = some (c, offset.map readOffset) := by
  rw [List.length_append] at hend
  cases offset with
  | none =>
    have hlength : bs.length = i + (clockText c).length := by simpa [zoneText] using hend
    have hzone := zone_none h.left hlength
    have hclock := clockBetween_text hc h hlength (digitAt_end bs)
    rw [isMark_eq] at hzone
    simp [time?, hzone, hclock, atTextEnd]
  | some o =>
    have hsign := h.right
    simp only [zoneText, Option.map_some, Option.getD_some] at h hend hsign hrange
    have hoffset := clockBetween_offset hrange hsign (by omega)
    have hvalue := signed_readOffset o
    rw [← asOffset_offsetClock] at hvalue
    rw [offsetText_toList] at hsign hend
    rw [List.length_cons] at hend
    have hzone := zone_some h (by omega)
    have hdigit : isDigitAt bs (i + (clockText c).length) = false := by
      have hget := hsign 0 (by simp)
      simp only [Nat.add_zero, List.getElem_cons_zero] at hget
      simp only [isDigitAt, digit?, hget, signOf]
      split <;> simp
    have hclock := clockBetween_text hc h rfl hdigit
    have hZ : charAt bs (i + (clockText c).length) 'Z' = false := by
      rw [hsign.charAt, signOf]
      split <;> decide
    have hminus : charAt bs (i + (clockText c).length) '-' = decide (o < 0) := by
      rw [hsign.charAt, signOf]
      split <;> simp_all
    rw [isMark_eq] at hzone
    simp [time?, hzone, hclock, hZ, hoffset, hminus, hvalue]

/-! Dates. -/

theorem At.charAt_digit {bs : List Nat} {i width n : Nat} {cs : List Char}
    (h : At bs i ((padded width n).toList ++ cs)) {c : Char} (hc : 57 < c.toNat) :
    Timestamp.charAt bs i c = false := by
  have hne : (padded width n).toList ≠ [] := by simp [padded_toList]
  obtain ⟨d, ds, hd⟩ := List.exists_cons_of_ne_nil hne
  have hrange := mem_padded (show d ∈ (padded width n).toList by simp [hd])
  rw [hd] at h
  rw [At.charAt h, beq_eq_false_iff_ne]
  rintro rfl
  omega

theorem separatorIndex_text {bs : List Nat} {year month : Nat} {cs : List Char}
    (h : At bs 0 ((padded 4 year).toList ++ '-' :: ((padded 2 month).toList ++ cs))) (hyear : year < 10000)
    (hlength : 10 ≤ bs.length) : separatorIndex bs = 10 := by
  have hdash := h.afterDigits hyear
  have hseven : ¬ bs.length = 7 := by omega
  have hyearDash : charAt bs 4 '-' = true := by simp [hdash.charAt]
  have hweek : charAt bs 5 'W' = false := hdash.tail.charAt_digit (show 57 < 'W'.toNat by decide)
  simp [separatorIndex, hyearDash, hweek, hseven]

theorem date_text {bs : List Nat} {year month day : Nat} {cs : List Char}
    (h : At bs 0 ((padded 4 year).toList ++ '-' :: ((padded 2 month).toList ++ '-' :: ((padded 2 day).toList ++ cs))))
    (hyear : year < 10000) (hmonth : month < 100) (hday : day < 100) : date? bs 10 = some (year, month, day) := by
  have hdash := h.afterDigits hyear
  have hmonths := hdash.tail
  have hmonthDash := hmonths.afterDigits hmonth
  have hyearDash : charAt bs 4 '-' = true := by simp [hdash.charAt]
  have hweek : charAt bs 5 'W' = false := hmonths.charAt_digit (show 57 < 'W'.toNat by decide)
  have hdayDash : charAt bs 7 '-' = true := by simp [hmonthDash.charAt]
  have hmonthRead : digits? bs 5 2 = some month := hmonths.digits hmonth
  have hdayRead : digits? bs 8 2 = some day := hmonthDash.tail.digits hday
  simp [date?, h.digits hyear, hyearDash, hweek, hmonthRead, hdayDash, hdayRead]

/-! Whole texts. -/

/-- A time that the calendar and the clock have, to the microsecond. -/
structure Proper (t : Timestamp) : Prop where
  inRange : rangeFault? t = none
  microsecond : t.microsecond < 1000000

theorem daysInMonth_le (year month : Nat) : daysInMonth year month ≤ 31 := by
  unfold daysInMonth
  repeat' split
  all_goals omega

/-- Fields without a fault fit into the digits they are written with. -/
theorem bounds_of_inRange {t : Timestamp} (h : rangeFault? t = none) :
    (t.offset.getD 0).natAbs < 86400000000 ∧ t.year < 10000 ∧ t.month < 100 ∧ t.day < 100 ∧ t.hour < 100 ∧
      t.minute < 100 ∧ t.second < 100 := by
  have hdays := daysInMonth_le t.year t.month
  unfold rangeFault? at h
  split_ifs at h
  simp_all
  omega

def clock (t : Timestamp) : Clock := ⟨t.hour, t.minute, t.second, t.microsecond⟩

theorem text_toList (t : Timestamp) :
    t.text.toList = (padded 4 t.year).toList ++ '-' :: ((padded 2 t.month).toList ++ '-' ::
      ((padded 2 t.day).toList ++ 'T' :: (clockText t.clock ++ zoneText t.offset))) := by
  simp [text, clockText, clock, zoneText]

theorem mem_zoneText {offset : Option Int} {c : Char} (h : c ∈ zoneText offset) : c.toNat < 128 := by
  cases offset with
  | none => simp [zoneText] at h
  | some o =>
    simp only [zoneText, Option.map_some, Option.getD_some, offsetText_toList, List.mem_cons] at h
    rcases h with rfl | h
    · unfold signOf
      split <;> decide
    · split at h
      · rw [List.mem_append, List.mem_cons] at h
        rcases h with h | rfl | h
        · have hrange := mem_padded h; omega
        · decide
        · have hrange := mem_padded h; omega
      · have hrange := mem_clockText h
        omega

theorem mem_text {t : Timestamp} {c : Char} (h : c ∈ t.text.toList) : c.toNat < 128 := by
  simp only [text_toList, List.mem_append, List.mem_cons] at h
  rcases h with h | rfl | h | rfl | h | rfl | h | h
  · have hrange := mem_padded h; omega
  · decide
  · have hrange := mem_padded h; omega
  · decide
  · have hrange := mem_padded h; omega
  · decide
  · have hrange := mem_clockText h; omega
  · exact mem_zoneText h

theorem at_zero (cs : List Char) : At (cs.map Char.toNat) 0 cs := by
  intro k hk
  simp [hk]

/-- A time as it is read from its text. -/
def asRead (t : Timestamp) : Timestamp := { t with offset := t.offset.map readOffset }

/-- An offset that is told from universal time when it is read. -/
def KeepsOffset (offset : Option Int) : Prop := ∀ o ∈ offset, o = 0 ∨ 1000000 ≤ o.natAbs

theorem asRead_eq_iff {t : Timestamp} : t.asRead = t ↔ KeepsOffset t.offset := by
  have hread (o : Int) : readOffset o = o ↔ o = 0 ∨ 1000000 ≤ o.natAbs := by
    unfold readOffset
    split <;> omega
  have hoffset : t.asRead = t ↔ t.offset.map readOffset = t.offset := by
    cases t
    simp [asRead]
  rw [hoffset, KeepsOffset]
  cases t.offset with
  | none => simp
  | some o => simp [hread]

/-- A time of a zone equals what its text is read as exactly where its folds agree and its offset is kept. -/
theorem equals_asRead_iff {z : Zoned} :
    z.equals z.asRead = true ↔ z.refolded = z.offset ∧ KeepsOffset z.offset := by
  rw [Zoned.equals, Bool.and_eq_true, beq_iff_eq, ← asRead_eq_iff]
  refine and_congr_right fun _ => ?_
  split
  case isTrue => rw [beq_iff_eq, eq_comm]
  case isFalse hoffset =>
    have hdiffers : z.asRead ≠ z.toTimestamp := fun he => hoffset (by rw [he, beq_self_eq_true])
    refine iff_of_false (fun hsame => ?_) hdiffers
    -- Both show the same time, so that with different distances they are different moments.
    have hwall : z.asRead.wallTime = z.wallTime := rfl
    cases hz : z.offset with
    | none => simp [hz, asRead] at hsame
    | some o =>
      have hread : z.asRead.offset = some (readOffset o) := by simp [asRead, hz]
      simp only [hz, hread, hwall, beq_iff_eq] at hsame
      have hkept : readOffset o = o := by omega
      rw [hz, hread, hkept, beq_self_eq_true] at hoffset
      exact hoffset rfl

theorem inRange_asRead {t : Timestamp} (h : rangeFault? t = none) : rangeFault? t.asRead = none := by
  have hoffset := (bounds_of_inRange h).1
  have hread : (t.asRead.offset.getD 0).natAbs < 86400000000 := by
    cases ht : t.offset with
    | none => simp [asRead, ht]
    | some o =>
      simp only [ht, Option.getD_some] at hoffset
      simp only [asRead, ht, Option.map_some, Option.getD_some, readOffset]
      split <;> omega
  rw [rangeFault?, if_neg (Nat.not_le.mpr hoffset)] at h
  rw [rangeFault?, if_neg (Nat.not_le.mpr hread)]
  exact h

theorem parse_text {t : Timestamp} (ht : t.Proper) : parse? t.text = some t.asRead := by
  obtain ⟨hoffset, hyear, hmonth, hday, hhour, hminute, hsecond⟩ := bounds_of_inRange ht.inRange
  have hclock : t.clock.InRange := ⟨hhour, hminute, hsecond, ht.microsecond⟩
  have hbytes := bytes_of_ascii fun c hc => mem_text (t := t) hc
  have hat := at_zero t.text.toList
  have hlength : (t.text.toList.map Char.toNat).length = 11 + (clockText t.clock ++ zoneText t.offset).length := by
    simp only [List.length_map, text_toList, List.length_append, List.length_cons,
      padded_length (show 0 < 4 by decide) hyear, padded_length (show 0 < 2 by decide) hmonth,
      padded_length (show 0 < 2 by decide) hday]
    omega
  rw [← hbytes] at hat hlength
  simp only [parse?]
  generalize t.text.toUTF8.toList.map UInt8.toNat = bs at hat hlength
  rw [text_toList] at hat
  have hseparator := separatorIndex_text hat hyear (by omega)
  have hdate := date_text hat hyear hmonth hday
  have hT := (((hat.afterDigits hyear).tail.afterDigits hmonth).tail).afterDigits hday
  have htime : time? bs 11 = some (t.clock, t.offset.map readOffset) := time_text hclock hoffset hT.tail hlength
  have hT10 : bs[10]? = some 'T'.toNat := hT 0 (by simp)
  have hstart : 10 + separatorWidth (bs[10]?.getD 0) = 11 := by
    rw [hT10]
    rfl
  rw [if_neg (by omega), hseparator, hdate]
  simp only [Option.bind_eq_bind, Option.bind_some, if_pos (show bs.length > 10 by omega), hstart, htime]
  rfl

theorem ofText_text {t : Timestamp} (ht : t.Proper) : ofText t.text = .ok t.asRead := by
  simp only [ofText, parse_text ht, inRange_asRead ht.inRange]

end Timestamp

end QualityGate
