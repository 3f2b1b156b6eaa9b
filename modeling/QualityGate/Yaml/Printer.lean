import QualityGate.Json.Writer
import QualityGate.Yaml.Implicit
import QualityGate.Yaml.Scalar

/-! The text of a document: block collections indented by two, keys in order of
their code points, and each string plain, in single quotes or in double quotes,
whichever is the first that can hold it. Long strings are folded. -/

namespace QualityGate.Yaml.Printer

/-- A line is folded at the first chance past this column. -/
def width : Nat := 80

def step : Nat := 2

def spaces (n : Nat) : List Char := List.replicate n ' '

def newline (indent : Nat) : List Char := '\n' :: spaces indent

/-! The choice of quotes. -/

def isOrdinary (c : Char) : Bool := ' ' ≤ c && c ≤ '~'

/-- A space next to a line break. -/
def hasEdgeSpace : List Char → Bool
  | ' ' :: '\n' :: _ => true
  | '\n' :: ' ' :: _ => true
  | _ :: r => hasEdgeSpace r
  | [] => false

def fitsSingleQuotes (cs : List Char) : Bool := cs.all (fun c => isOrdinary c || c == '\n') && !hasEdgeSpace cs

/-- A colon before a blank or a number sign after one. -/
def hasInnerMark : List Char → Bool
  | [] => false
  | [c] => c == ':'
  | c :: d :: r => (c == ':' && endsWord d) || (endsWord c && d == '#') || hasInnerMark (d :: r)

/-- Characters that begin something other than a plain scalar. -/
def beginsOther (cs : List Char) : Bool :=
  match cs with
  | [] => true
  | c :: r => "#,[]&*!|>'\"%@".toList.contains c || c == '\x7b' || c == '\x7d' || c == '\x60' ||
      ("-?:".toList.contains c && (r.head?.map endsWord).getD true) ||
      ['-', '-', '-'].isPrefixOf cs || ['.', '.', '.'].isPrefixOf cs

def fitsPlain (s : String) : Bool :=
  let cs := s.toList
  cs.all isOrdinary && cs.head? != some ' ' && cs.getLast? != some ' ' && !beginsOther cs && !hasInnerMark cs &&
    ScalarKind.ofPlain s == .str

/-! Folding. -/

/-- Runs of spaces, of line breaks and of other characters. -/
def runs (cs : List Char) : List (List Char) :=
  let kind (c : Char) : Nat := if c == ' ' then 0 else if c == '\n' then 1 else 2
  cs.splitBy fun a b => kind a == kind b

/-- Where the lines that go on a scalar begin; a key is not folded. -/
structure Margin where
  indent : Nat
  folds : Bool

/-- The words from a column on. A line ends in place of a single space between words. -/
def words (m : Margin) (quoted : Bool) : Nat → Bool → List (List Char) → List Char
  | _, _, [] => []
  | column, first, run :: rest =>
    if run.head? == some ' ' then
      let between := !quoted || (!first && !rest.isEmpty)
      if m.folds && between && run.length == 1 && width < column then
        newline m.indent ++ words m quoted m.indent false rest
      else run ++ words m quoted (column + run.length) false rest
    else if run.head? == some '\n' then
      run ++ newline m.indent ++ words m quoted m.indent false rest
    else
      let run := if quoted then run.flatMap fun c => if c == '\'' then ['\'', '\''] else [c] else run
      run ++ words m quoted (column + run.length) false rest

def escape? (c : Char) : Option (List Char) :=
  if c == '"' || c == '\\' then some ['\\', c]
  else if isOrdinary c then none
  else match escapes.find? fun e => e.2 == c && e.1 != '\t' with
    | some e => some ['\\', e.1]
    | none =>
      let n := c.toNat
      let digits (count : Nat) : List Char := (hexDigits count n).map Char.toUpper
      if n < 0x100 then some ('\\' :: 'x' :: digits 2)
      else if n < 0x10000 then some ('\\' :: 'u' :: digits 4)
      else some ('\\' :: 'U' :: digits 8)

/-- The characters between double quotes. A backslash ends a line that goes on, and stands before a
space that begins the next one. -/
def escapedFrom (m : Margin) : Nat → Bool → Bool → List Char → List Char
  | _, _, _, [] => []
  | column, first, afterEscape, c :: r =>
    let folds := m.folds && !first && !r.isEmpty
    match escape? c with
    | some e =>
      if folds && width + 1 < column + e.length then
        let lead := if r.head? == some ' ' then ['\\'] else []
        e ++ ['\\'] ++ newline m.indent ++ lead ++ escapedFrom m (m.indent + lead.length) false true r
      else e ++ escapedFrom m (column + e.length) false true r
    | none =>
      if folds && (c == ' ' || afterEscape) && width < column then
        let lead := if c == ' ' then ['\\'] else []
        ['\\'] ++ newline m.indent ++ lead ++ c :: escapedFrom m (m.indent + lead.length + 1) false false r
      else c :: escapedFrom m (column + 1) false false r

def string (m : Margin) (column : Nat) (s : String) : List Char :=
  let cs := s.toList
  if fitsPlain s then words m false column true (runs cs)
  else if fitsSingleQuotes cs then ['\''] ++ words m true (column + 1) true (runs cs) ++ ['\'']
  else ['"'] ++ escapedFrom m (column + 1) true false cs ++ ['"']

/-- The point that every float has is put in before an exponent without one. -/
def floatText (x : Float) : String :=
  if x.isNaN then ".nan"
  else
    let s := Decimal.text x
    if s == "inf" then ".inf" else if s == "-inf" then "-.inf"
    else if s.contains '.' then s
    else String.ofList (s.toList.flatMap fun c => if c == 'e' then ['.', '0', 'e'] else [c])

/-! Collections. -/

/-- A key of one line that is not too long; any other is marked as one. -/
def isShortKey (s : String) : Bool :=
  s != "" && !(s.toList.any fun c => isBreak c && c != '\r') && s.length + 5 < 128

/-- Puts lines after an indicator: below it, or from its own line on. -/
def below (inLine : Bool) (indent : Nat) (lines : List (List Char)) : List Char :=
  if inLine then ' ' :: (newline indent).intercalate lines
  else (lines.map fun l => newline indent ++ l).flatten

mutual

/-- What stands after an indicator that ends at a column. Items of a sequence below a key are not
indented. -/
def follow (inLine inMapping : Bool) (indent column : Nat) : Json → List Char
  | .arr [] => " []".toList
  | .obj [] => " \x7b\x7d".toList
  | .arr items =>
    let inner := if inMapping && !inLine then indent else indent + step
    below inLine inner (itemLines inner items)
  | .obj fields => below inLine (indent + step) (fieldLines (indent + step) fields)
  | .str s => ' ' :: string ⟨indent + step, true⟩ (column + 1) s
  | .null => " null".toList
  | .bool b => (if b then " true" else " false").toList
  | .int n => ' ' :: (toString n).toList
  | .float x => ' ' :: (floatText x).toList

def itemLines (indent : Nat) : List Json → List (List Char)
  | [] => []
  | v :: vs => ('-' :: follow true false indent (indent + 1) v) :: itemLines indent vs

def fieldLines (indent : Nat) : List (String × Json) → List (List Char)
  | [] => []
  | (name, v) :: fs =>
    let line :=
      if isShortKey name then
        let key := string ⟨indent + step, false⟩ indent name
        key ++ ':' :: follow false true indent (indent + key.length + 1) v
      else
        ['?', ' '] ++ string ⟨indent + step, true⟩ (indent + 2) name ++ newline indent ++
          ':' :: follow true true indent (indent + 1) v
    line :: fieldLines indent fs

end

mutual

def sorted : Json → Json
  | .arr items => .arr (sortedItems items)
  | .obj fields => .obj ((sortedFields fields).mergeSort fun a b => a.1 ≤ b.1)
  | v => v

def sortedItems : List Json → List Json
  | [] => []
  | v :: vs => sorted v :: sortedItems vs

def sortedFields : List (String × Json) → List (String × Json)
  | [] => []
  | (name, v) :: fs => (name, sorted v) :: sortedFields fs

end

/-- The text of a document that holds a mapping. -/
def text (fields : Json.Fields) : String :=
  match sorted (.obj fields) with
  | .obj (f :: fs) => String.ofList ((['\n'].intercalate (fieldLines 0 (f :: fs))) ++ ['\n'])
  | _ => "\x7b\x7d\n"

end QualityGate.Yaml.Printer
