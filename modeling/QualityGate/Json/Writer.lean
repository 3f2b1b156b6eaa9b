import QualityGate.Text.CharClass
import QualityGate.Decimal.Shortest
import QualityGate.Json.Value

/-! Two texts of a JSON value: JSON itself, with every character outside
printable ASCII escaped, and the plain form in which a value is quoted inside
a sentence. -/

namespace QualityGate

def hexDigits (width n : Nat) : List Char :=
  let ds := Nat.toDigits 16 n
  List.replicate (width - ds.length) '0' ++ ds

namespace Json

def codeUnitEscape (n : Nat) : List Char := '\\' :: 'u' :: hexDigits 4 n

def escapeChar (c : Char) : List Char :=
  match c with
  | '"' => ['\\', '"']
  | '\\' => ['\\', '\\']
  | '\n' => ['\\', 'n']
  | '\r' => ['\\', 'r']
  | '\t' => ['\\', 't']
  | '\x08' => ['\\', 'b']
  | '\x0c' => ['\\', 'f']
  | c =>
    let n := c.toNat
    if 32 ≤ n && n < 127 then [c]
    else if n < 0x10000 then codeUnitEscape n
    else codeUnitEscape (0xd800 + (n - 0x10000) / 0x400) ++ codeUnitEscape (0xdc00 + (n - 0x10000) % 0x400)

def quoted (s : String) : String := "\"" ++ String.ofList (s.toList.flatMap escapeChar) ++ "\""

def floatText (x : Float) : String :=
  if x.isNaN then "NaN"
  else if (Decimal.exactValue? x).isNone then (if x < 0 then "-Infinity" else "Infinity")
  else Decimal.text x

/-- How the items of an array or object are set apart at a given depth. -/
structure Spacing where
  opening : Nat → String
  between : Nat → String
  closing : Nat → String
  colon : String

def compact : Spacing := ⟨fun _ => "", fun _ => ",", fun _ => "", ":"⟩

def newline (width depth : Nat) : String := String.ofList ('\n' :: List.replicate (width * depth) ' ')

def indented (width : Nat) : Spacing :=
  ⟨fun d => newline width (d + 1), fun d => "," ++ newline width (d + 1), newline width, ": "⟩

def group (sp : Spacing) (depth : Nat) (opener closer : String) (items : List String) : String :=
  if items.isEmpty then opener ++ closer
  else
    opener ++ sp.opening depth ++ (sp.between depth).intercalate items ++ sp.closing depth ++ closer

mutual

def write (sp : Spacing) (depth : Nat) : Json → String
  | null => "null"
  | bool b => if b then "true" else "false"
  | int n => toString n
  | float x => floatText x
  | str s => quoted s
  | arr items => group sp depth "[" "]" (writeItems sp (depth + 1) items)
  | obj fields => group sp depth "\x7b" "\x7d" (writeFields sp (depth + 1) fields)

def writeItems (sp : Spacing) (depth : Nat) : List Json → List String
  | [] => []
  | v :: vs => write sp depth v :: writeItems sp depth vs

def writeFields (sp : Spacing) (depth : Nat) : List (String × Json) → List String
  | [] => []
  | (name, v) :: fs => (quoted name ++ sp.colon ++ write sp depth v) :: writeFields sp depth fs

end

def text (sp : Spacing) (v : Json) : String := write sp 0 v

end Json

/-! The plain form. -/

namespace Plain

def escapeChar (quote c : Char) : List Char :=
  if c == quote || c == '\\' then ['\\', c]
  else if c == '\n' then ['\\', 'n']
  else if c == '\r' then ['\\', 'r']
  else if c == '\t' then ['\\', 't']
  else if Text.isPrintable c then [c]
  else
    let n := c.toNat
    if n < 0x100 then '\\' :: 'x' :: hexDigits 2 n
    else if n < 0x10000 then '\\' :: 'u' :: hexDigits 4 n
    else '\\' :: 'U' :: hexDigits 8 n

/-- In single quotes, or in double quotes when the text holds a single quote and no double one. -/
def quoted (s : String) : String :=
  let cs := s.toList
  let quote := if cs.contains '\'' && !cs.contains '"' then '"' else '\''
  String.ofList (quote :: cs.flatMap (escapeChar quote) ++ [quote])

def byteForm (quote : Char) (b : UInt8) : List Char :=
  if b < 0x80 then escapeChar quote (Char.ofNat b.toNat) else '\\' :: 'x' :: hexDigits 2 b.toNat

/-- Bytes in quotes, those outside printable ASCII as two hexadecimal digits. -/
def quotedBytes (data : ByteArray) : String :=
  let bs := data.toList
  let quote := if bs.contains 39 && !bs.contains 34 then '"' else '\''
  String.ofList ('b' :: quote :: bs.flatMap (byteForm quote) ++ [quote])

mutual

/-- The form a value takes inside a list or a mapping. -/
def nested : Json → String
  | .null => "None"
  | .bool b => if b then "True" else "False"
  | .int n => toString n
  | .float x => Decimal.text x
  | .str s => quoted s
  | .arr items => "[" ++ ", ".intercalate (nestedItems items) ++ "]"
  | .obj fields => "\x7b" ++ ", ".intercalate (nestedFields fields) ++ "\x7d"

def nestedItems : List Json → List String
  | [] => []
  | v :: vs => nested v :: nestedItems vs

def nestedFields : List (String × Json) → List String
  | [] => []
  | (name, v) :: fs => (quoted name ++ ": " ++ nested v) :: nestedFields fs

end

/-- A string stands for itself, every other value for its nested form. -/
def text : Json → String
  | .str s => s
  | v => nested v

end Plain

end QualityGate
