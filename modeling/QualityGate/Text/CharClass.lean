import QualityGate.Text.Table

/-! Character classes over all of Unicode. Each class answers ASCII directly
and looks anything else up in its table. -/

namespace QualityGate.Text

def inRanges (ranges : Array (Nat × Nat)) (n : Nat) : Bool :=
  match ranges.find? fun r => n ≤ r.2 with
  | some r => r.1 ≤ n
  | none => false

/-- White space: the ASCII blanks, the information separators and the Unicode spaces. -/
def isBlank (c : Char) : Bool :=
  let n := c.toNat
  (9 ≤ n && n ≤ 13) || (28 ≤ n && n ≤ 32) || n == 0x85 || n == 0xa0 || n == 0x1680 ||
    (0x2000 ≤ n && n ≤ 0x200a) || n == 0x2028 || n == 0x2029 || n == 0x202f || n == 0x205f ||
    n == 0x3000

/-- White space without the information separators, as it may stand around a number. -/
def isSpace (c : Char) : Bool := isBlank c && !(28 ≤ c.toNat && c.toNat ≤ 31)

/-- Characters that end a line. A carriage return with a line feed after it ends one line, not two. -/
def isLineBreak (c : Char) : Bool :=
  let n := c.toNat
  (10 ≤ n && n ≤ 13) || (28 ≤ n && n ≤ 30) || n == 0x85 || n == 0x2028 || n == 0x2029

/-- The value of a decimal digit of any script. -/
def decimalValue? (c : Char) : Option Nat :=
  let n := c.toNat
  if n < 128 then
    if 48 ≤ n && n ≤ 57 then some (n - 48) else none
  else
    (Table.decimalZeros.find? fun z => z ≤ n && n < z + 10).map fun z => n - z

/-- The value of an ASCII hexadecimal digit. -/
def hexValue? (c : Char) : Option Nat :=
  if '0' ≤ c && c ≤ '9' then some (c.toNat - 48)
  else if 'a' ≤ c && c ≤ 'f' then some (c.toNat - 87)
  else if 'A' ≤ c && c ≤ 'F' then some (c.toNat - 55)
  else none

def isDecimal (c : Char) : Bool := (decimalValue? c).isSome

/-- Decimal digits and the digits outside the decimal runs, such as superscripts. -/
def isDigit (c : Char) : Bool := isDecimal c || inRanges Table.furtherDigits c.toNat

def isLetter (c : Char) : Bool :=
  if c.toNat < 128 then c.isAlpha else inRanges Table.letters c.toNat

def isAlphanumeric (c : Char) : Bool :=
  if c.toNat < 128 then c.isAlphanum
  else isLetter c || isDecimal c || inRanges Table.furtherNumerals c.toNat

def isWordChar (c : Char) : Bool := isAlphanumeric c || c == '_'

def isPrintable (c : Char) : Bool :=
  if c.toNat < 128 then 32 ≤ c.toNat && c.toNat < 127 else inRanges Table.printable c.toNat

def Table.CaseRun.covers (r : Table.CaseRun) (n : Nat) : Bool :=
  r.first ≤ n && n ≤ r.last && (n - r.first) % r.step == 0

/-- One letter, the dotted capital I, becomes two characters. -/
def lowercase (c : Char) : List Char :=
  let n := c.toNat
  if n < 128 then [c.toLower]
  else if n == 0x130 then ['i', Char.ofNat 0x307]
  else match Table.lowercaseRuns.find? fun r => r.covers n with
    | some r => [Char.ofNat (n + r.offset).toNat]
    | none => [c]

def toLowercase (s : String) : String := String.ofList (s.toList.flatMap lowercase)

/-- Equality of a lower-case ASCII letter with a character when case is ignored: the dotted and
dotless I count as an i, the long s as an s and the kelvin sign as a k. -/
def matchesIgnoringCase (letter c : Char) : Bool :=
  c == letter || c.toLower == letter ||
    match letter with
    | 'i' => c.toNat == 0x130 || c.toNat == 0x131
    | 's' => c.toNat == 0x17f
    | 'k' => c.toNat == 0x212a
    | _ => false

end QualityGate.Text
