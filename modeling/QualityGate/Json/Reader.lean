import QualityGate.Text.Lines
import QualityGate.Decimal.Numeral
import QualityGate.Json.Value

/-! Reading JSON text. A fault names the first problem and the index of the
character at which it stands. Besides the standard's values the words `NaN`,
`Infinity` and `-Infinity` are numbers. Well-formed text is refused too when a
whole number is too long or brackets stand too deep in each other.

A string is read as a list of code points, which may hold half of a surrogate
pair; what becomes of these is up to the type of the strings. -/

namespace QualityGate.Json

inductive Problem where
  | expectingValue
  | expectingName
  | expectingColon
  | expectingComma
  | extraData
  | unterminatedString
  | controlCharacter
  | invalidEscape
  | invalidCodeUnit
  | byteOrderMark
  | tooManyDigits (count : Nat)
  | tooDeep (container : String)
  deriving DecidableEq, Repr

def Problem.text : Problem → String
  | expectingValue => "Expecting value"
  | expectingName => "Expecting property name enclosed in double quotes"
  | expectingColon => "Expecting ':' delimiter"
  | expectingComma => "Expecting ',' delimiter"
  | extraData => "Extra data"
  | unterminatedString => "Unterminated string starting at"
  | controlCharacter => "Invalid control character at"
  | invalidEscape => "Invalid \\escape"
  | invalidCodeUnit => "Invalid \\uXXXX escape"
  | byteOrderMark => "Unexpected UTF-8 BOM (decode using utf-8-sig)"
  | tooManyDigits count => Numeral.tooLongText count
  | tooDeep container =>
    "maximum recursion depth exceeded while decoding a JSON " ++ container ++ " from a unicode string"

/-- Whether the text itself is at fault, and not the bounds of the reader. -/
def Problem.isSyntax : Problem → Bool
  | tooManyDigits _ | tooDeep _ => false
  | _ => true

structure Fault where
  problem : Problem
  index : Nat
  deriving DecidableEq, Repr

/-- A fault with the line and column of its index, both counted from one. -/
structure LocatedFault where
  problem : Problem
  line : Nat
  column : Nat
  index : Nat

def Fault.locate (f : Fault) (s : List Char) : LocatedFault :=
  ⟨f.problem, Text.lineOf s f.index, Text.columnOf s f.index, f.index⟩

def LocatedFault.message (f : LocatedFault) : String :=
  if f.problem.isSyntax then
    f.problem.text ++ ": line " ++ toString f.line ++ " column " ++ toString f.column ++
      " (char " ++ toString f.index ++ ")"
  else f.problem.text

/-- What was read, the index after it and the text that follows. -/
structure Step (α : Type) where
  value : α
  index : Nat
  rest : List Char

def isSpace (c : Char) : Bool := c == ' ' || c == '\t' || c == '\n' || c == '\r'

def skipSpace (index : Nat) : List Char → Nat × List Char
  | [] => (index, [])
  | c :: r => if isSpace c then skipSpace (index + 1) r else (index, c :: r)

def codeUnit? (a b c d : Char) : Option Nat := do
  let a ← Text.hexValue? a
  let b ← Text.hexValue? b
  let c ← Text.hexValue? c
  let d ← Text.hexValue? d
  some (((a * 16 + b) * 16 + c) * 16 + d)

def isHighSurrogate (n : Nat) : Bool := 0xd800 ≤ n && n < 0xdc00

def isLowSurrogate (n : Nat) : Bool := 0xdc00 ≤ n && n < 0xe000

def pairPoint (high low : Nat) : Nat := 0x10000 + (high - 0xd800) * 0x400 + (low - 0xdc00)

/-- Strings that are made up of code points. -/
class OfPoints (σ : Type) where
  ofPoints : List Nat → σ

export OfPoints (ofPoints)

/-- A surrogate without its partner is no character; the replacement character stands for it. -/
def pointChar (n : Nat) : Char :=
  if isHighSurrogate n || isLowSurrogate n then Char.ofNat 0xfffd else Char.ofNat n

instance : OfPoints String := ⟨fun points => String.ofList (points.map pointChar)⟩

/-- The code points themselves, each half of a pair included. -/
instance : OfPoints (List Nat) := ⟨id⟩

def simpleEscape? : Char → Option Char
  | '"' => some '"'
  | '\\' => some '\\'
  | '/' => some '/'
  | 'b' => some '\x08'
  | 'f' => some '\x0c'
  | 'n' => some '\n'
  | 'r' => some '\r'
  | 't' => some '\t'
  | _ => none

/-- Reads a string whose opening quote stands at `start`, from just after that quote. A four-digit
escape needs a character after it. -/
def stringFrom {σ : Type} [OfPoints σ] (start : Nat) : Nat → List Char → List Nat → Except Fault (Step σ)
  | _, [], _ => .error ⟨.unterminatedString, start⟩
  | index, '"' :: r, acc => .ok ⟨ofPoints acc.reverse, index + 1, r⟩
  | _, ['\\'], _ => .error ⟨.unterminatedString, start⟩
  | index, '\\' :: 'u' :: r, acc =>
    match r with
    | a :: b :: c :: d :: r =>
      if r.isEmpty then .error ⟨.invalidCodeUnit, index + 1⟩
      else match codeUnit? a b c d with
        | none => .error ⟨.invalidCodeUnit, index + 1⟩
        | some high =>
          match r with
          | '\\' :: 'u' :: a :: b :: c :: d :: r' =>
            if isHighSurrogate high && !r'.isEmpty then
              match codeUnit? a b c d with
              | none => .error ⟨.invalidCodeUnit, index + 7⟩
              | some low =>
                if isLowSurrogate low then stringFrom start (index + 12) r' (pairPoint high low :: acc)
                else stringFrom start (index + 6) ('\\' :: 'u' :: a :: b :: c :: d :: r') (high :: acc)
            else
              stringFrom start (index + 6) ('\\' :: 'u' :: a :: b :: c :: d :: r') (high :: acc)
          | r => stringFrom start (index + 6) r (high :: acc)
    | _ => .error ⟨.invalidCodeUnit, index + 1⟩
  | index, '\\' :: e :: r, acc =>
    match simpleEscape? e with
    | some c => stringFrom start (index + 2) r (c.toNat :: acc)
    | none => .error ⟨.invalidEscape, index⟩
  | index, c :: r, acc =>
    if c.toNat < 32 then .error ⟨.controlCharacter, index⟩ else stringFrom start (index + 1) r (c.toNat :: acc)
termination_by _ s => s.length

def isAsciiDigit (c : Char) : Bool := '0' ≤ c && c ≤ '9'

def asciiNat (ds : List Char) : Nat := ds.foldl (fun n c => n * 10 + (c.toNat - 48)) 0

/-- The digits after a decimal point; without a digit the point does not belong to the number. -/
def fractionDigits : List Char → List Char
  | '.' :: r => r.takeWhile isAsciiDigit
  | _ => []

/-- The sign and digits of an exponent; without a digit it does not belong to the number. The first
component is the length of the whole part. -/
def exponentPart : List Char → Nat × Int
  | e :: r =>
    if e == 'e' || e == 'E' then
      let (sign, r, signed) := match r with
        | '-' :: r => ((-1 : Int), r, 1)
        | '+' :: r => (1, r, 1)
        | r => (1, r, 0)
      let ds := r.takeWhile isAsciiDigit
      if ds.isEmpty then (0, 0) else (1 + signed + ds.length, sign * asciiNat ds)
    else (0, 0)
  | [] => (0, 0)

section values

variable {σ : Type}

/-- Reads a number after its sign; `start` is the index of the sign. -/
def number (start : Nat) (negative : Bool) (index : Nat) (s : List Char) : Except Fault (Step (Json σ)) :=
  let whole := match s with
    | '0' :: _ => ['0']
    | s => s.takeWhile isAsciiDigit
  if whole.isEmpty then .error ⟨.expectingValue, start⟩
  else
    let r := s.drop whole.length
    let fraction := fractionDigits r
    let fractionLength := if fraction.isEmpty then 0 else fraction.length + 1
    let r := r.drop fractionLength
    let (exponentLength, exponent) := exponentPart r
    let step (v : Json σ) : Step (Json σ) :=
      ⟨v, index + whole.length + fractionLength + exponentLength, r.drop exponentLength⟩
    if fractionLength != 0 || exponentLength != 0 then
      .ok (step (float (Decimal.nearest negative (asciiNat (whole ++ fraction)) (exponent - fraction.length))))
    else if whole.length > Numeral.mostDigits then .error ⟨.tooManyDigits whole.length, start⟩
    else .ok (step (int (Numeral.withSign negative (asciiNat whole))))

def words : List (String × Json σ) :=
  [("null", null), ("true", bool true), ("false", bool false), ("NaN", float Decimal.notANumber),
    ("Infinity", float Decimal.infinity), ("-Infinity", float (-Decimal.infinity))]

def word? (index : Nat) (s : List Char) : Option (Step (Json σ)) :=
  words.findSome? fun (w, v) =>
    if w.toList.isPrefixOf s then some ⟨v, index + w.length, s.drop w.length⟩ else none

def scalar (index : Nat) (s : List Char) : Except Fault (Step (Json σ)) :=
  match word? index s, s with
  | some r, _ => .ok r
  | none, '-' :: r => number index true (index + 1) r
  | none, r => number index false index r

/-- How many brackets may stand in each other. It depends on how much of the interpreter's stack is in use
where a text is read, so it is left open. -/
class Limits where
  mostNested : Nat

export Limits (mostNested)

/-- About what the default recursion limit leaves below the calls of the program itself. -/
instance : Limits := ⟨990⟩

variable [OfPoints σ] [DecidableEq σ] [Limits]

mutual

/-- Reads one value at `index` inside of `depth` brackets. The first argument bounds the number of
steps. -/
def valueFrom : Nat → Nat → Nat → List Char → Except Fault (Step (Json σ))
  | 0, _, index, _ => .error ⟨.expectingValue, index⟩
  | fuel + 1, depth, index, s =>
    match s with
    | '"' :: r => do
      let t ← stringFrom index (index + 1) r []
      .ok ⟨str t.value, t.index, t.rest⟩
    | '[' :: r =>
      if depth ≥ mostNested then .error ⟨.tooDeep "array", index⟩
      else match skipSpace (index + 1) r with
        | (index, ']' :: r) => .ok ⟨arr [], index + 1, r⟩
        | (index, r) => itemsFrom fuel (depth + 1) index r []
    | '\x7b' :: r =>
      if depth ≥ mostNested then .error ⟨.tooDeep "object", index⟩
      else match skipSpace (index + 1) r with
        | (index, '\x7d' :: r) => .ok ⟨obj [], index + 1, r⟩
        | (index, r) => fieldsFrom fuel (depth + 1) index r []
    | s => scalar index s

/-- Reads the items of an array up to its closing bracket. -/
def itemsFrom : Nat → Nat → Nat → List Char → List (Json σ) → Except Fault (Step (Json σ))
  | 0, _, index, _, _ => .error ⟨.expectingValue, index⟩
  | fuel + 1, depth, index, s, acc => do
    let v ← valueFrom fuel depth index s
    match skipSpace v.index v.rest with
    | (index, ']' :: r) => .ok ⟨arr (v.value :: acc).reverse, index + 1, r⟩
    | (index, ',' :: r) =>
      let (index, r) := skipSpace (index + 1) r
      itemsFrom fuel depth index r (v.value :: acc)
    | (index, _) => .error ⟨.expectingComma, index⟩

/-- Reads the fields of an object up to its closing brace. -/
def fieldsFrom : Nat → Nat → Nat → List Char → List (σ × Json σ) → Except Fault (Step (Json σ))
  | 0, _, index, _, _ => .error ⟨.expectingName, index⟩
  | fuel + 1, depth, index, s, acc =>
    match s with
    | '"' :: r => do
      let name ← stringFrom index (index + 1) r []
      match skipSpace name.index name.rest with
      | (index, ':' :: r) => do
        let (index, r) := skipSpace (index + 1) r
        let v ← valueFrom fuel depth index r
        match skipSpace v.index v.rest with
        | (index, '\x7d' :: r) =>
          .ok ⟨obj (Fields.ofPairs ((name.value, v.value) :: acc).reverse), index + 1, r⟩
        | (index, ',' :: r) =>
          let (index, r) := skipSpace (index + 1) r
          fieldsFrom fuel depth index r ((name.value, v.value) :: acc)
        | (index, _) => .error ⟨.expectingComma, index⟩
      | (index, _) => .error ⟨.expectingColon, index⟩
    | _ => .error ⟨.expectingName, index⟩

end

end values

section text

variable [Limits] (s : List Char) (σ : Type := String) [OfPoints σ] [DecidableEq σ]

/-- Reads a text that holds one value and white space only. -/
def readChars : Except Fault (Json σ) :=
  match s with
  | '\ufeff' :: _ => .error ⟨.byteOrderMark, 0⟩
  | s => do
    let (index, r) := skipSpace 0 s
    let v ← valueFrom (2 * s.length + 2) 0 index r
    match skipSpace v.index v.rest with
    | (_, []) => .ok v.value
    | (index, _) => .error ⟨.extraData, index⟩

def read : Except LocatedFault (Json σ) := (readChars s σ).mapError (·.locate s)

end text

def ofText? (s : String) : Option Json := (read s.toList).toOption

end QualityGate.Json
