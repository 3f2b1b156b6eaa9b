import QualityGate.Failure
import QualityGate.Text.Pattern
import QualityGate.Timestamp

/-! What a plain scalar stands for when no tag says it: the spellings of null,
truth values, numbers and moments. Any other text is a string. -/

namespace QualityGate.Yaml

/-! Dates and times. -/

open Text

def isAsciiDigit (c : Char) : Bool := '0' ≤ c && c ≤ '9'

namespace Moment

open Pattern

def digit : Pattern := one isAsciiDigit

def exactly (n : Nat) : Pattern := ofList (List.replicate n digit)

def oneOrTwo : Pattern := seq digit (optional digit)

def gap (least : Nat) : Pattern := many (fun c => c == ' ' || c == '\t') least

def zone : Pattern :=
  oneOf [capture "universal" (char 'Z'),
    ofList [capture "sign" (one fun c => c == '-' || c == '+'), capture "zoneHour" oneOrTwo,
      optional (seq (char ':') (capture "zoneMinute" (exactly 2)))]]

def clock : Pattern :=
  ofList [orElse (one fun c => c == 'T' || c == 't') (gap 1), capture "hour" oneOrTwo,
    char ':', capture "minute" (exactly 2), char ':', capture "second" (exactly 2),
    optional (seq (char '.') (capture "fraction" (many isAsciiDigit 0))), optional (seq (gap 0) zone)]

/-- A date, and perhaps a time of the day with its distance from universal time. -/
def pattern : Pattern :=
  ofList [capture "year" (exactly 4), char '-', capture "month" oneOrTwo, char '-', capture "day" oneOrTwo,
    optional clock, .atEnd]

end Moment

/-- A date, or a point in time. -/
structure Moment where
  time : Timestamp
  isDate : Bool
  /-- A date whose month and day have two digits, or a point in time. -/
  isFull : Bool

namespace Moment

def number (cs : List Char) : Nat := cs.foldl (fun n c => n * 10 + (c.toNat - 48)) 0

/-- The offset in microseconds. -/
def offset? (m : Found) : Option Int :=
  match m.group? "sign" with
  | some sign =>
    let n (name : String) : Nat := number ((m.group? name).getD [])
    let size : Int := ((n "zoneHour" * 60 + n "zoneMinute") * 60000000 : Nat)
    some (if sign == ['-'] then -size else size)
  | none => (m.group? "universal").map fun _ => 0

def ofText? (s : String) : Option Moment := do
  let m ← pattern.matchPrefix? s.toList
  let n (name : String) : Nat := number ((m.group? name).getD [])
  let width (name : String) : Nat := ((m.group? name).getD []).length
  let fraction := ((m.group? "fraction").getD []).take 6
  let isDate := (m.group? "hour").isNone
  some
    { time :=
        { year := n "year", month := n "month", day := n "day"
          hour := n "hour", minute := n "minute", second := n "second"
          microsecond := number fraction * Decimal.tenTo (6 - fraction.length), offset := offset? m }
      isDate
      isFull := !isDate || (width "month" == 2 && width "day" == 2) }

def zoneShown (offset : Int) : String :=
  ", tzinfo=" ++ (if offset == 0 then "datetime.timezone.utc"
    else "datetime.timezone(" ++ Timestamp.spanText offset ++ ")")

/-- The form in which a moment is quoted in a report. -/
def shown (m : Moment) : String :=
  let t := m.time
  let list (ns : List Nat) : String := ", ".intercalate (ns.map fun n => toString n)
  let day := [t.year, t.month, t.day]
  if m.isDate then "datetime.date(" ++ list day ++ ")"
  else
    let seconds := if t.microsecond != 0 then [t.second, t.microsecond] else if t.second != 0 then [t.second] else []
    "datetime.datetime(" ++ list (day ++ [t.hour, t.minute] ++ seconds) ++ (t.offset.map zoneShown).getD "" ++ ")"

def check (m : Moment) : Outcome Moment :=
  match Timestamp.rangeFault? m.time with
  | some detail => .error (.badValue detail)
  | none => .ok m

end Moment

end QualityGate.Yaml

namespace QualityGate.Yaml

inductive ScalarKind where
  | null
  | bool
  | int
  | float
  | moment
  | str
  /-- The key under which the entries of another mapping are taken over. -/
  | merge
  /-- Spellings that are set aside. -/
  | value
  | indicator
  deriving DecidableEq, Repr

namespace ScalarKind

def label : ScalarKind → String
  | null => "null"
  | bool => "bool"
  | int => "int"
  | float => "float"
  | moment => "timestamp"
  | str => "str"
  | merge => "merge"
  | value => "value"
  | indicator => "yaml"

/-- A word, the word with a capital, or all in capitals. -/
def inCases (word : String) : List String := [word, word.capitalize, word.toUpper]

def truthWords : List (String × Bool) :=
  [("yes", true), ("no", false), ("true", true), ("false", false), ("on", true), ("off", false)]

def isTruth (s : String) : Bool := truthWords.any fun w => (inCases w.1).contains s

def isNull (s : String) : Bool := s == "" || s == "~" || (inCases "null").contains s

def dropSign : List Char → List Char
  | '-' :: r => r
  | '+' :: r => r
  | r => r

/-- A digit, then digits and underscores. -/
def isGrouped (cs : List Char) : Bool :=
  cs.head?.any isAsciiDigit && cs.all fun c => isAsciiDigit c || c == '_'

/-- Digits of a base and underscores, at least one of either. -/
def isGroupedIn (digit : Char → Bool) (cs : List Char) : Bool :=
  !cs.isEmpty && cs.all fun c => digit c || c == '_'

/-- One of the parts, after the first, of a number to base sixty. -/
def isSixtieth (cs : List Char) : Bool :=
  cs.all isAsciiDigit && (cs.length == 1 || (cs.length == 2 && cs.head?.any (· ≤ '5')))

def isInt (cs : List Char) : Bool :=
  match dropSign cs with
  | ['0'] => true
  | '0' :: 'b' :: r => isGroupedIn (fun c => c == '0' || c == '1') r
  | '0' :: 'x' :: r => isGroupedIn (fun c => (Text.hexValue? c).isSome) r
  | '0' :: r => isGroupedIn (fun c => '0' ≤ c && c ≤ '7') r
  | r => match Text.splitAtChar ':' r with
    | first :: parts => isGrouped first && parts.all isSixtieth
    | [] => false

/-- A signed exponent. -/
def isExponent : List Char → Bool
  | e :: sign :: r => (e == 'e' || e == 'E') && (sign == '-' || sign == '+') && !r.isEmpty && r.all isAsciiDigit
  | _ => false

def isFraction (cs : List Char) : Bool :=
  let rest := cs.dropWhile fun c => isAsciiDigit c || c == '_'
  rest.isEmpty || isExponent rest

/-- Floats have a point; an exponent has a sign. -/
def isFloat (cs : List Char) : Bool :=
  let unsigned := dropSign cs
  let word := String.ofList unsigned
  if (inCases "inf").any (fun w => word == "." ++ w) then true
  else if [".nan", ".NaN", ".NAN"].contains (String.ofList cs) then true
  else
    let whole := unsigned.takeWhile (· != '.')
    match unsigned.dropWhile (· != '.') with
    | [] => false
    | _ :: fraction =>
      if whole.isEmpty then cs == unsigned && fraction.head?.any isAsciiDigit && isFraction fraction
      else match Text.splitAtChar ':' whole with
        | [_] => isGrouped whole && isFraction fraction
        | first :: parts =>
          isGrouped first && parts.all isSixtieth && fraction.all fun c => isAsciiDigit c || c == '_'
        | [] => false

def ofPlain (s : String) : ScalarKind :=
  let cs := s.toList
  if isTruth s then bool
  else if isFloat cs then float
  else if isInt cs then int
  else if s == "<<" then merge
  else if isNull s then null
  else if (Moment.ofText? s).any (·.isFull) then moment
  else if s == "=" then value
  else if ["!", "&", "*"].contains s then indicator
  else str

end ScalarKind

end QualityGate.Yaml
