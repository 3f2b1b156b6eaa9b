import QualityGate.Failure

/-! A place in the text of a document. The end of the text is seen as a NUL,
which no document holds. -/

namespace QualityGate.Yaml

def endOfText : Char := '\x00'

def isBreak (c : Char) : Bool := c == '\n' || c == '\r' || c == '\x85' || c == '\u2028' || c == '\u2029'

def endsLine (c : Char) : Bool := isBreak c || c == endOfText

/-- A space or the end of the line. -/
def endsField (c : Char) : Bool := c == ' ' || endsLine c

/-- A space, a tab or the end of the line. -/
def endsWord (c : Char) : Bool := c == '\t' || endsField c

/-- The marks that have a meaning of their own inside brackets. -/
def isFlowMark (c : Char) : Bool := c == ',' || c == '[' || c == ']' || c == '\x7b' || c == '\x7d'

def isNameChar (c : Char) : Bool := c.isAlphanum || c == '-' || c == '_'

/-- The characters that a document may hold. -/
def isAdmitted (c : Char) : Bool :=
  c == '\t' || c == '\n' || c == '\r' || (' ' ≤ c && c ≤ '~') || c == '\x85' ||
    (0xa0 ≤ c.toNat && c.toNat ≤ 0xfffd) || 0x10000 ≤ c.toNat

structure Cursor where
  rest : List Char
  index : Nat := 0
  line : Nat := 0
  column : Nat := 0
  /-- How many of the codes that were read are no characters. -/
  illFormed : Nat := 0

/-- Reads at a cursor and moves it. -/
abbrev Lexing := StateT Cursor Outcome

namespace Cursor

/-- The next line begins after a line break; a carriage return with a line feed is one break. A byte
order mark takes no room. -/
def step (s : Cursor) : Cursor :=
  match s.rest with
  | [] => s
  | c :: r =>
    if isBreak c && !(c == '\r' && r.head? == some '\n') then
      { s with rest := r, index := s.index + 1, line := s.line + 1, column := 0 }
    else { s with rest := r, index := s.index + 1, column := if c == '\ufeff' then s.column else s.column + 1 }

def advance (s : Cursor) : Nat → Cursor
  | 0 => s
  | n + 1 => s.step.advance n

end Cursor

namespace Lexing

def malformed {α : Type} : Lexing α := throw .yaml

def peekAt (n : Nat) : Lexing Char := do return (← get).rest.getD n endOfText

def peek : Lexing Char := peekAt 0

def skip (n : Nat) : Lexing Unit := modify fun s => s.advance n

def require (b : Bool) : Lexing Unit := if b then pure () else malformed

/-- The longest run of characters of a class. -/
def run (p : Char → Bool) : Lexing (List Char) := do
  let found := (← get).rest.takeWhile p
  skip found.length
  return found

def spaces : Lexing Unit := do discard (run (· == ' '))

/-- Reads one character of a class if it is next. -/
def mark (p : Char → Bool) : Lexing Bool := do
  if p (← peek) then
    skip 1
    return true
  else return false

/-- A line break, if one is next; the breaks of all systems but two Unicode ones count as a line
feed. -/
def lineBreak : Lexing (List Char) := do
  let c ← peek
  if !isBreak c then return []
  if c == '\r' && (← peekAt 1) == '\n' then skip 2 else skip 1
  return [if c == '\u2028' || c == '\u2029' then c else '\n']

def restOfLine : Lexing (List Char) := run fun c => !endsLine c

/-- The end of a line that holds at most a comment. -/
def lineEnd : Lexing Unit := do
  spaces
  if (← peek) == '#' then discard restOfLine
  require (endsLine (← peek))
  discard lineBreak

/-- Whether a line that begins here is a document marker. -/
def atMarker : Lexing Bool := do
  let word := (← get).rest.take 3
  return (word == ['-', '-', '-'] || word == ['.', '.', '.']) && endsWord (← peekAt 3)

def hexNumber (count : Nat) : Lexing Nat := do
  let digits := ((← get).rest.take count).filterMap Text.hexValue?
  require (digits.length == count)
  skip count
  return digits.foldl (fun n d => n * 16 + d) 0

/-- At most as many steps as there are characters to read. -/
def bound : Lexing Nat := do return (← get).rest.length + 1

end Lexing

end QualityGate.Yaml
