import QualityGate.Yaml.Cursor

/-! The four ways to write a scalar: plain, in single or double quotes, and as
an indented block. A single line break between two words stands for a space. -/

namespace QualityGate.Yaml

open Lexing

/-- The text for a line break and the empty lines after it. -/
def folded (lineBreak : List Char) (empties : List Char) : List Char :=
  if lineBreak != ['\n'] then lineBreak ++ empties else if empties.isEmpty then [' '] else empties

/-! Plain scalars. -/

/-- The characters of a plain scalar up to the next blank. -/
def plainWord (inFlow : Bool) : List Char → List Char
  | [] => []
  | c :: r =>
    let next := r.headD endOfText
    if endsWord c || (c == ':' && (endsWord next || (inFlow && isFlowMark next))) ||
        (inFlow && (c == '?' || isFlowMark c)) then []
    else c :: plainWord inFlow r

/-- The line breaks of empty lines; a document marker ends them without a result. -/
def plainEmpties : Nat → List Char → Lexing (Option (List Char))
  | 0, acc => return some acc
  | fuel + 1, acc => do
    if (← atMarker) then return none
    spaces
    match ← lineBreak with
    | [] => return some acc
    | b => plainEmpties fuel (acc ++ b)

/-- What stands between two words of a plain scalar, and whether a line ends there. -/
def plainGap : Lexing (List Char × Bool) := do
  let blank ← run (· == ' ')
  match ← lineBreak with
  | [] => return (blank, false)
  | b => match ← plainEmpties (← bound) [] with
    | none => return ([], true)
    | some empties => return (folded b empties, true)

/-- The words of a plain scalar; a line that is not indented enough ends it. The second result says
whether a line ended after the last word. -/
def plainWords (inFlow : Bool) (indent : Int) : Nat → List Char → List Char → Bool → Lexing (List Char × Bool)
  | 0, text, _, atLineEnd => return (text, atLineEnd)
  | fuel + 1, text, gap, atLineEnd => do
    if (← peek) == '#' then return (text, atLineEnd)
    let word := plainWord inFlow (← get).rest
    if word.isEmpty then return (text, atLineEnd)
    skip word.length
    let (next, broken) ← plainGap
    let text := text ++ gap ++ word
    if next.isEmpty || (!inFlow && (← get).column < indent) then return (text, broken)
    else plainWords inFlow indent fuel text next broken

/-- A plain scalar inside a collection indented by `indent`. -/
def plainScalar (inFlow : Bool) (indent : Int) : Lexing (List Char × Bool) := do
  plainWords inFlow (indent + 1) (← bound) [] [] false

/-! Quoted scalars. -/

def escapes : List (Char × Char) :=
  [('0', '\x00'), ('a', '\x07'), ('b', '\x08'), ('t', '\t'), ('\t', '\t'), ('n', '\n'), ('v', '\x0b'), ('f', '\x0c'),
    ('r', '\r'), ('e', '\x1b'), (' ', ' '), ('"', '"'), ('\\', '\\'), ('/', '/'), ('N', '\x85'), ('_', '\xa0'),
    ('L', '\u2028'), ('P', '\u2029')]

def codeLengths : List (Char × Nat) := [('x', 2), ('u', 4), ('U', 8)]

/-- The line breaks of empty lines inside quotes, where no document marker may stand. -/
def quotedEmpties : Nat → List Char → Lexing (List Char)
  | 0, acc => return acc
  | fuel + 1, acc => do
    require (!(← atMarker))
    discard (run fun c => c == ' ' || c == '\t')
    match ← lineBreak with
    | [] => return acc
    | b => quotedEmpties fuel (acc ++ b)

/-- The characters that stand for a code which is no character. -/
def illFormedText : List Char := ['\ufffd', '\ufffd', '\ufffd']

/-- The character with a code. A surrogate is none, but no fault of the text either. -/
def codePoint (n : Nat) : Lexing (List Char) := do
  if n > 0x7fffffff then throw (.overflow "Python int too large to convert to C int")
  else if n > 0x10ffff then throw (.badValue "chr() arg not in range(0x110000)")
  else if 0xd800 ≤ n && n < 0xe000 then
    modify fun s => { s with illFormed := s.illFormed + 1 }
    return illFormedText
  else return [Char.ofNat n]

/-- The text for an escape, whose backslash has been read. An escaped line break stands for nothing. -/
def escaped : Lexing (List Char) := do
  let c ← peek
  match escapes.lookup c, codeLengths.lookup c with
  | some e, _ =>
    skip 1
    return [e]
  | none, some count =>
    skip 1
    codePoint (← hexNumber count)
  | none, none =>
    require (isBreak c)
    discard lineBreak
    quotedEmpties (← bound) []

/-- The next piece of a quoted scalar, or nothing at the closing quote. -/
def quotedPiece (double : Bool) : Lexing (Option (List Char)) := do
  let c ← peek
  let quote := if double then '"' else '\''
  if c == endOfText then malformed
  else if c == quote then
    if !double && (← peekAt 1) == quote then
      skip 2
      return some [quote]
    else return none
  else if double && c == '\\' then
    skip 1
    return some (← escaped)
  else if endsWord c then
    let blank ← run fun c => c == ' ' || c == '\t'
    match ← lineBreak with
    | [] => return some blank
    | b => return some (folded b (← quotedEmpties (← bound) []))
  else
    skip 1
    return some [c]

def quotedPieces (double : Bool) : Nat → List (List Char) → Lexing (List (List Char))
  | 0, _ => malformed
  | fuel + 1, acc => do
    match ← quotedPiece double with
    | none => return acc
    | some piece => quotedPieces double fuel (piece :: acc)

/-- A scalar in quotes, from the opening quote to the closing one. -/
def quotedScalar (double : Bool) : Lexing (List Char) := do
  skip 1
  let pieces ← quotedPieces double (← bound) []
  skip 1
  return pieces.reverse.flatten

/-! Block scalars. -/

/-- What becomes of the line breaks at the end: one is kept, none or all. -/
inductive Chomping where
  | clip
  | strip
  | keep
  deriving DecidableEq

structure BlockHeader where
  chomping : Chomping := .clip
  indent : Option Nat := none

def chompingMark : Lexing Chomping := do
  if (← mark (· == '+')) then return .keep
  else if (← mark (· == '-')) then return .strip
  else return .clip

def indentMark : Lexing (Option Nat) := do
  let c ← peek
  if '0' ≤ c && c ≤ '9' then
    require (c != '0')
    skip 1
    return some (c.toNat - 48)
  else return none

def blockHeader : Lexing BlockHeader := do
  let first ← chompingMark
  let indent ← indentMark
  let chomping ← if first == .clip then chompingMark else pure first
  require (endsField (← peek))
  return { chomping, indent }

/-- Blank lines at the head of a block, and the widest of them or of the first line's indent. -/
def leadingBlanks : Nat → List Char → Nat → Lexing (List Char × Nat)
  | 0, acc, widest => return (acc, widest)
  | fuel + 1, acc, widest => do
    spaces
    let widest := max widest (← get).column
    match ← lineBreak with
    | [] => return (acc, widest)
    | b => leadingBlanks fuel (acc ++ b) widest

def indentation (indent : Nat) : Lexing Unit := do
  let s ← get
  skip ((s.rest.takeWhile (· == ' ')).length.min (indent - s.column))

/-- The line breaks of empty lines; what follows is indented by at most `indent`. -/
def blockEmpties (indent : Nat) : Nat → List Char → Lexing (List Char)
  | 0, acc => return acc
  | fuel + 1, acc => do
    indentation indent
    match ← lineBreak with
    | [] => return acc
    | b => blockEmpties indent fuel (acc ++ b)

/-- The body of a block: its text, the last line break and the empty lines after it. -/
def blockLines (folding : Bool) (indent : Nat) :
    Nat → List Char → List Char → Lexing (List Char × List Char × List Char)
  | 0, text, empties => return (text, [], empties)
  | fuel + 1, text, empties => do
    let s ← get
    if s.column != indent || s.rest.isEmpty then return (text, [], empties)
    let begun (c : Char) : Bool := c != ' ' && c != '\t'
    let wordFirst := begun (← peek)
    let line ← restOfLine
    let b ← lineBreak
    let text := text ++ empties ++ line
    let next ← blockEmpties indent (← bound) []
    let s ← get
    if s.column == indent && !s.rest.isEmpty then
      let joint :=
        if folding && b == ['\n'] && wordFirst && begun (← peek) then (if next.isEmpty then [' '] else [])
        else b
      blockLines folding indent fuel (text ++ joint) next
    else return (text, b, next)

/-- A block scalar inside a collection indented by `outer`. -/
def blockScalar (folding : Bool) (outer : Int) : Lexing (List Char) := do
  skip 1
  let header ← blockHeader
  lineEnd
  let least := (max (outer + 1) 1).toNat
  let (empties, indent) ← match header.indent with
    | some n => do
      let indent := least + n - 1
      pure (← blockEmpties indent (← bound) [], indent)
    | none => do
      let (empties, widest) ← leadingBlanks (← bound) [] 0
      pure (empties, max least widest)
  let (text, last, empties) ← blockLines folding indent (← bound) [] empties
  return match header.chomping with
    | .strip => text
    | .clip => text ++ last
    | .keep => text ++ last ++ empties

end QualityGate.Yaml
