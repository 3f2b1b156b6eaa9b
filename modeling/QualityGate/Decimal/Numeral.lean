import QualityGate.Decimal.Exact
import QualityGate.Text.Lines

/-! Numbers written as text. A plain numeral has ASCII digits and no blanks; a
loose one may stand between blanks, in the digits of any script, with single
underscores between the digits. -/

namespace QualityGate.Numeral

def isAsciiDigit (c : Char) : Bool := '0' ≤ c && c ≤ '9'

def areDigits (cs : List Char) : Bool := !cs.isEmpty && cs.all isAsciiDigit

/-- Whether a minus stands in front, and what follows the sign. -/
def signed : List Char → Bool × List Char
  | '-' :: r => (true, r)
  | '+' :: r => (false, r)
  | r => (false, r)

def withSign (negative : Bool) (n : Nat) : Int := if negative then -(n : Int) else n

/-- The number that some digits of a base spell. -/
def valueIn (base : Nat) (cs : List Char) : Nat :=
  cs.foldl (fun n c => n * base + (Text.hexValue? c).getD 0) 0

/-! Plain numerals. -/

def exponent? : List Char → Option Int
  | [] => some 0
  | _ :: r =>
    let (negative, digits) := signed r
    if areDigits digits then some (withSign negative (valueIn 10 digits)) else none

/-- Digits with at most one point, and perhaps an exponent. -/
def decimal? (negative : Bool) (cs : List Char) : Option Float :=
  let inMantissa (c : Char) : Bool := c != 'e' && c != 'E'
  let mantissa := cs.takeWhile inMantissa
  let whole := mantissa.takeWhile (· != '.')
  let fraction := (mantissa.dropWhile (· != '.')).drop 1
  if areDigits (whole ++ fraction) then
    (exponent? (cs.dropWhile inMantissa)).map fun e =>
      Decimal.nearest negative (valueIn 10 (whole ++ fraction)) (e - fraction.length)
  else none

/-- A decimal number, or the word for an infinity or for no number. -/
def float? (cs : List Char) : Option Float :=
  let (negative, r) := signed cs
  match String.ofList (r.map Char.toLower) with
  | "inf" | "infinity" => some (if negative then -Decimal.infinity else Decimal.infinity)
  | "nan" => some Decimal.notANumber
  | _ => decimal? negative r

/-! Loose numerals. -/

/-- The text without the blanks around it, its digits as ASCII ones. The information separators are
blanks only in a text that is not all ASCII. -/
def inAscii (cs : List Char) : List Char :=
  (if cs.all (·.toNat < 128) then Text.trimSpaces cs else Text.trim cs).map fun c =>
    match Text.decimalValue? c with
    | some d => Char.ofNat (48 + d)
    | none => c

/-- Drops the underscores, each of which has to stand between two digits. -/
def ungrouped? (isDigit : Char → Bool) (afterDigit : Bool) : List Char → Option (List Char)
  | [] => some []
  | c :: r =>
    if c == '_' then
      if afterDigit && r.head?.any isDigit then ungrouped? isDigit false r else none
    else (ungrouped? isDigit (isDigit c) r).map (c :: ·)

def looseFloat? (cs : List Char) : Option Float := (ungrouped? isAsciiDigit false (inAscii cs)).bind float?

/-- Why a text is no whole number. -/
inductive Fault where
  | malformed
  | tooLong (digits : Nat)

/-- The most decimal digits that a whole number may be written with. -/
def mostDigits : Nat := 4300

def tooLongText (digits : Nat) : String :=
  "Exceeds the limit (" ++ toString mostDigits ++ " digits) for integer string conversion: value has " ++
    toString digits ++ " digits; use sys.set_int_max_str_digits() to increase the limit"

def baseLetter : Nat → Option Char
  | 2 => some 'b'
  | 8 => some 'o'
  | 16 => some 'x'
  | _ => none

/-- The mark of a base stands in front of its digits; an underscore may follow it. -/
def dropBaseMark (base : Nat) : List Char → List Char
  | '0' :: c :: r =>
    if baseLetter base == some c.toLower then (if r.head? == some '_' then r.drop 1 else r) else '0' :: c :: r
  | cs => cs

/-- A signed whole number in a base. Only decimal digits are counted. -/
def whole (base : Nat) (cs : List Char) : Except Fault Int :=
  let (negative, r) := signed (inAscii cs)
  let r := dropBaseMark base r
  let isDigit (c : Char) : Bool := ((Text.hexValue? c).filter (· < base)).isSome
  let grouped (c : Char) : Bool := isDigit c || c == '_'
  match ungrouped? isDigit false (r.takeWhile grouped) with
  | none => .error .malformed
  | some digits =>
    if base == 10 && digits.length > mostDigits then .error (.tooLong digits.length)
    else if digits.isEmpty || !(r.dropWhile grouped).isEmpty then .error .malformed
    else .ok (withSign negative (valueIn base digits))

end QualityGate.Numeral
