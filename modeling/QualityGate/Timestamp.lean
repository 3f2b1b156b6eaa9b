import QualityGate.Json.Writer

/-! Points in time in the extended and basic ISO 8601 forms. -/

namespace QualityGate

/-- A calendar time, with its distance from universal time in microseconds if one is known. -/
structure Timestamp where
  year : Nat
  month : Nat
  day : Nat
  hour : Nat := 0
  minute : Nat := 0
  second : Nat := 0
  microsecond : Nat := 0
  offset : Option Int := none
  deriving DecidableEq, Repr

namespace Timestamp

def padded (width n : Nat) : String :=
  let ds := Nat.toDigits 10 n
  String.ofList (List.replicate (width - ds.length) '0' ++ ds)

def fraction (microsecond : Nat) : String :=
  if microsecond == 0 then "" else "." ++ padded 6 microsecond

def offsetText (offset : Int) : String :=
  let n := offset.natAbs
  let seconds := n / 1000000
  let rest := n % 1000000
  (if offset < 0 then "-" else "+") ++ padded 2 (seconds / 3600) ++ ":" ++ padded 2 (seconds / 60 % 60) ++
    (if seconds % 60 != 0 || rest != 0 then ":" ++ padded 2 (seconds % 60) else "") ++ fraction rest

def text (t : Timestamp) : String :=
  padded 4 t.year ++ "-" ++ padded 2 t.month ++ "-" ++ padded 2 t.day ++ "T" ++ padded 2 t.hour ++ ":" ++
    padded 2 t.minute ++ ":" ++ padded 2 t.second ++ fraction t.microsecond ++
    (t.offset.map offsetText).getD ""

/-! The calendar. -/

def isLeap (year : Nat) : Bool := year % 4 == 0 && (year % 100 != 0 || year % 400 == 0)

def daysInMonth (year month : Nat) : Nat :=
  if month == 2 then (if isLeap year then 29 else 28)
  else if month == 4 || month == 6 || month == 9 || month == 11 then 30
  else 31

def daysBeforeYear (year : Nat) : Nat :=
  let y := year - 1
  y * 365 + y / 4 - y / 100 + y / 400

def daysBeforeMonth (year month : Nat) : Nat :=
  ((List.range (month - 1)).map fun m => daysInMonth year (m + 1)).foldl (· + ·) 0

/-- Days since the first day of year one, which counts as one. -/
def ordinal (year month day : Nat) : Nat := daysBeforeYear year + daysBeforeMonth year month + day

/-- Monday is zero. -/
def weekday (year month day : Nat) : Nat := (ordinal year month day + 6) % 7

def monthDay (year : Nat) : Nat → Nat → Nat → Nat × Nat
  | 0, month, rest => (month, rest + 1)
  | fuel + 1, month, rest =>
    if rest < daysInMonth year month then (month, rest + 1)
    else monthDay year fuel (month + 1) (rest - daysInMonth year month)

def ofOrdinal (n : Nat) : Nat × Nat × Nat :=
  let estimate := (n - 1) / 366 + 1
  let year := ((List.range 40).map (estimate + ·)).reverse.find? fun y => daysBeforeYear y < n
  let year := year.getD estimate
  let (month, day) := monthDay year 12 1 (n - 1 - daysBeforeYear year)
  (year, month, day)

/-- The universal time a number of seconds after the year 1970 began, as a time without an offset. -/
def ofEpoch (seconds : Nat) : Timestamp :=
  let (year, month, day) := ofOrdinal (ordinal 1970 1 1 + seconds / 86400)
  { year, month, day, hour := seconds / 3600 % 24, minute := seconds / 60 % 60, second := seconds % 60 }

/-- The Monday of the first ISO week of a year. -/
def firstMonday (year : Nat) : Nat :=
  let first := ordinal year 1 1
  let w := (first + 6) % 7
  if w > 3 then first - w + 7 else first - w

def hasWeek53 (year : Nat) : Bool :=
  let w := weekday year 1 1
  w == 3 || (w == 2 && isLeap year)

/-- The day of a week of a year. The weeks of year zero lie before the first month. -/
def ofWeek? (year week day : Nat) : Option (Nat × Nat × Nat) :=
  if (1 ≤ week && week ≤ 52 || week == 53 && year != 0 && hasWeek53 year) && 1 ≤ day && day ≤ 7 then
    some (if year == 0 then (1, 0, 1) else ofOrdinal (firstMonday year + (week - 1) * 7 + (day - 1)))
  else none

/-- What the calendar and the clock show, in microseconds. -/
def wallTime (t : Timestamp) : Int :=
  (((ordinal t.year t.month t.day * 24 + t.hour) * 60 + t.minute) * 60 + t.second) * 1000000 + t.microsecond

end Timestamp

/-- A time by the clocks of a zone. When these are put back the same time comes twice, and the two folds of it differ
in their distance from universal time; so they do for a time that is skipped when clocks are put forward. -/
structure Zoned extends Timestamp where
  /-- The distance from universal time in the other fold. -/
  refolded : Option Int
  deriving DecidableEq, Repr

/-- Whether a time of a zone equals one at a fixed distance from universal time: where the distances differ, by the
moment in universal time. Of two folds that differ neither is equal to a time outside of the zone. -/
def Zoned.equals (z : Zoned) (t : Timestamp) : Bool :=
  z.refolded == z.offset &&
    if z.offset == t.offset then z.toTimestamp == t
    else match z.offset, t.offset with
      | some o, some o' => z.wallTime - o == t.wallTime - o'
      | _, _ => false

namespace Timestamp

/-! Reading. The text is looked at byte by byte, and a zero byte stands for its end. -/

def digit? (bs : List Nat) (i : Nat) : Option Nat :=
  match bs[i]? with
  | some b => if 48 ≤ b && b ≤ 57 then some (b - 48) else none
  | none => none

def isDigitAt (bs : List Nat) (i : Nat) : Bool := (digit? bs i).isSome

def charAt (bs : List Nat) (i : Nat) (c : Char) : Bool := bs[i]? == some c.toNat

def digits? (bs : List Nat) : Nat → Nat → Option Nat
  | _, 0 => some 0
  | i, count + 1 => do
    let high ← digits? bs i count
    let low ← digit? bs (i + count)
    some (high * 10 + low)

/-- Where the date ends and the separator of date and time stands. -/
def separatorIndex (bs : List Nat) : Nat :=
  let n := bs.length
  if n == 7 then 7
  else if charAt bs 4 '-' then
    if charAt bs 5 'W' then
      if n > 8 && charAt bs 8 '-' then
        if n > 10 && isDigitAt bs 10 then 8 else 10
      else 8
    else 10
  else if charAt bs 4 'W' then
    let run := ((List.range n).drop 7).takeWhile (isDigitAt bs)
    let pos := 7 + run.length
    if pos < 9 then pos else if pos % 2 == 0 then 7 else 8
  else 8

def date? (bs : List Nat) (stop : Nat) : Option (Nat × Nat × Nat) := do
  let year ← digits? bs 0 4
  let separated := charAt bs 4 '-'
  let i := if separated then 5 else 4
  if charAt bs i 'W' then
    let week ← digits? bs (i + 1) 2
    let i := i + 3
    if i < stop then
      if separated && !charAt bs i '-' then none
      else
        let day ← digits? bs (if separated then i + 1 else i) 1
        ofWeek? year week day
    else ofWeek? year week 1
  else
    let month ← digits? bs i 2
    let i := i + 2
    if separated && !charAt bs i '-' then none
    else
      let i := if separated then i + 1 else i
      let day ← digits? bs i 2
      if i + 2 == stop then some (year, month, day) else none

structure Clock where
  hour : Nat := 0
  minute : Nat := 0
  second : Nat := 0
  microsecond : Nat := 0

/-- Whether the reader stopped at the end of the whole text. -/
def atTextEnd (bs : List Nat) (i : Nat) : Bool := i ≥ bs.length

def Clock.set (c : Clock) (field value : Nat) : Clock :=
  match field with
  | 0 => { c with hour := value }
  | 1 => { c with minute := value }
  | _ => { c with second := value }

def skipDigits (bs : List Nat) : Nat → Nat → Nat
  | 0, i => i
  | fuel + 1, i => if isDigitAt bs i then skipDigits bs fuel (i + 1) else i

/-- The digits after the seconds; those past the sixth are dropped. -/
def clockFraction? (bs : List Nat) (i stop : Nat) (c : Clock) : Option (Clock × Bool) := do
  let count := min 6 (stop - i)
  let value ← digits? bs i count
  let i := skipDigits bs bs.length (i + count)
  some ({ c with microsecond := value * Decimal.tenTo (6 - count) }, atTextEnd bs i)

/-- Reads hours, minutes, seconds and a fraction between two places. The second component says
whether the reading ended at the end of the text. -/
def clock? (bs : List Nat) (stop : Nat) : Nat → Nat → Bool → Clock → Nat → Option (Clock × Bool)
  | 0, _, _, c, i => clockFraction? bs i stop c
  | fuel + 1, field, separated, c, i => do
    let value ← digits? bs i 2
    let c := c.set field value
    let i := i + 2
    let separated := if field == 0 then charAt bs i ':' else separated
    if i + 1 ≥ stop then some (c, atTextEnd bs i)
    else if separated && charAt bs i ':' then clock? bs stop fuel (field + 1) separated c (i + 1)
    else if charAt bs i '.' || charAt bs i ',' then clockFraction? bs (i + 1) stop c
    else if !separated then clock? bs stop fuel (field + 1) separated c i
    else none

def clockBetween? (bs : List Nat) (start stop : Nat) : Option (Clock × Bool) :=
  clock? bs stop 3 0 true {} start

/-- The microseconds of an offset. One of less than a second counts as none. -/
def Clock.asOffset (c : Clock) : Int :=
  let seconds := c.hour * 3600 + c.minute * 60 + c.second
  if seconds == 0 then 0 else (seconds * 1000000 + c.microsecond : Nat)

/-- The clock and the offset, which is given when a zone mark is there. -/
def time? (bs : List Nat) (start : Nat) : Option (Clock × Option Int) := do
  let isMark (i : Nat) : Bool := charAt bs i '+' || charAt bs i '-' || charAt bs i 'Z'
  let zone? := ((List.range bs.length).drop start).find? isMark
  match zone? with
  | none =>
    let (c, complete) ← clockBetween? bs start bs.length
    if complete then some (c, none) else none
  | some z =>
    let (c, _) ← clockBetween? bs start z
    if charAt bs z 'Z' then
      if z + 1 == bs.length then some (c, some 0) else none
    else
      let (zone, complete) ← clockBetween? bs (z + 1) bs.length
      if complete then some (c, some (if charAt bs z '-' then -zone.asOffset else zone.asOffset)) else none

/-- The length of the separating character in bytes. -/
def separatorWidth (b : Nat) : Nat :=
  if b < 128 then 1 else if b / 16 == 14 then 3 else if b / 16 == 15 then 4 else 2

inductive Fault where
  | malformed (given : String)
  | outOfRange (detail : String)

def Fault.message : Fault → String
  | malformed given => "Invalid isoformat string: " ++ Plain.quoted given
  | outOfRange detail => detail

/-- The text of a span of time in days, seconds and microseconds. -/
def spanText (microseconds : Int) : String :=
  let days := microseconds.fdiv 86400000000
  let rest := microseconds - days * 86400000000
  let seconds := rest / 1000000
  let micro := rest % 1000000
  let part (name : String) (n : Int) : List String := if n == 0 then [] else [name ++ "=" ++ toString n]
  let parts := part "days" days ++ part "seconds" seconds ++ part "microseconds" micro
  "datetime.timedelta(" ++ (if parts.isEmpty then "0" else ", ".intercalate parts) ++ ")"

def rangeFault? (t : Timestamp) : Option String :=
  if (t.offset.getD 0).natAbs ≥ 86400000000 then
    some ("offset must be a timedelta strictly between -timedelta(hours=24) and timedelta(hours=24), not " ++
      spanText (t.offset.getD 0) ++ ".")
  else if t.year == 0 || 9999 < t.year then some ("year " ++ toString t.year ++ " is out of range")
  else if t.month < 1 || 12 < t.month then some "month must be in 1..12"
  else if t.day < 1 || daysInMonth t.year t.month < t.day then some "day is out of range for month"
  else if 23 < t.hour then some "hour must be in 0..23"
  else if 59 < t.minute then some "minute must be in 0..59"
  else if 59 < t.second then some "second must be in 0..59"
  else none

def parse? (s : String) : Option Timestamp := do
  let bs := s.toUTF8.toList.map UInt8.toNat
  if bs.length < 7 then none
  else
    let sep := separatorIndex bs
    let (year, month, day) ← date? bs sep
    if bs.length > sep then
      let start := sep + separatorWidth (bs[sep]?.getD 0)
      let (c, offset) ← time? bs start
      some ⟨year, month, day, c.hour, c.minute, c.second, c.microsecond, offset⟩
    else some { year, month, day }

def ofText (s : String) : Except Fault Timestamp :=
  match parse? s with
  | none => .error (.malformed s)
  | some t => match rangeFault? t with
    | some detail => .error (.outOfRange detail)
    | none => .ok t

end Timestamp

end QualityGate
