import QualityGate.Text.Lines

/-! Patterns with named captures. A pattern is tried by its priorities, as in a
backtracking matcher: the first way to go on that lets the rest succeed is
taken. Repetition is over single characters only, so the matcher recurses on
the pattern and needs no bound. -/

namespace QualityGate.Text

inductive Pattern where
  | empty
  | one (p : Char → Bool)
  /-- At least `least` characters of the class, the longest run first. -/
  | many (p : Char → Bool) (least : Nat)
  /-- At least `least` characters of the class, the shortest run first. -/
  | fewest (p : Char → Bool) (least : Nat)
  | seq (a b : Pattern)
  | orElse (a b : Pattern)
  | capture (name : String) (a : Pattern)
  | atStart
  /-- At the end, or before a line feed that ends the text. -/
  | atEnd
  | wordEdge
  /-- The next character, if any, is outside the class. -/
  | notAhead (p : Char → Bool)

/-- A place in a text, with what was captured on the way to it. -/
structure Cursor where
  before : Option Char
  pos : Nat
  rest : List Char
  captures : List (String × List Char)

namespace Cursor

def start (s : List Char) : Cursor := ⟨none, 0, s, []⟩

def step (s : Cursor) (c : Char) (rest : List Char) : Cursor :=
  { s with before := some c, pos := s.pos + 1, rest := rest }

def step? (p : Char → Bool) (s : Cursor) : Option Cursor :=
  match s.rest with
  | c :: r => if p c then some (s.step c r) else none
  | [] => none

/-- The places reached by one more character of the class at a time, the farthest first. -/
def reach (p : Char → Bool) (s : Cursor) : List Cursor := go s s.rest [s]
where
  go (s : Cursor) : List Char → List Cursor → List Cursor
    | [], acc => acc
    | c :: r, acc => if p c then go (s.step c r) r (s.step c r :: acc) else acc

def farthestFirst (p : Char → Bool) (least : Nat) (s : Cursor) : List Cursor :=
  (s.reach p).filter fun e => s.pos + least ≤ e.pos

def record (name : String) (s e : Cursor) : Cursor :=
  { e with captures := (name, s.rest.take (e.pos - s.pos)) :: e.captures }

def atWordEdge (s : Cursor) : Bool :=
  s.before.any isWordChar != s.rest.head?.any isWordChar

def atEnd (s : Cursor) : Bool := s.rest.isEmpty || s.rest == ['\n']

end Cursor

namespace Pattern

def run {β : Type} : Pattern → (Cursor → Option β) → Cursor → Option β
  | empty, k, s => k s
  | one p, k, s => (s.step? p).bind k
  | many p least, k, s => (s.farthestFirst p least).findSome? k
  | fewest p least, k, s => (s.farthestFirst p least).reverse.findSome? k
  | seq a b, k, s => a.run (b.run k) s
  | orElse a b, k, s => match a.run k s with
    | some r => some r
    | none => b.run k s
  | capture name a, k, s => a.run (fun e => k (s.record name e)) s
  | atStart, k, s => if s.pos == 0 then k s else none
  | atEnd, k, s => if s.atEnd then k s else none
  | wordEdge, k, s => if s.atWordEdge then k s else none
  | notAhead p, k, s => if s.rest.head?.any p then none else k s

end Pattern

/-- Where a pattern was found and what it captured. -/
structure Found where
  start : Nat
  stop : Nat
  captures : List (String × List Char)

namespace Found

def group? (m : Found) (name : String) : Option (List Char) := m.captures.lookup name

def text? (m : Found) (name : String) : Option String := (m.group? name).map String.ofList

def text (m : Found) (name : String) : String := (m.text? name).getD ""

end Found

namespace Pattern

def foundAt? (p : Pattern) (s : Cursor) : Option Found :=
  p.run (fun e => some ⟨s.pos, e.pos, e.captures⟩) s

/-- A match at the very beginning. -/
def matchPrefix? (p : Pattern) (s : List Char) : Option Found := p.foundAt? (.start s)

/-- The leftmost match. -/
def find? (p : Pattern) (s : List Char) : Option Found := go none 0 s
where
  go (before : Option Char) (pos : Nat) : List Char → Option Found
    | [] => p.foundAt? ⟨before, pos, [], []⟩
    | c :: r => match p.foundAt? ⟨before, pos, c :: r, []⟩ with
      | some m => some m
      | none => go (some c) (pos + 1) r

def occursIn (p : Pattern) (s : List Char) : Bool := (p.find? s).isSome

/-- All matches from left to right, each begun where the one before it ended or later. -/
def findAll (p : Pattern) (s : List Char) : List Found := (go none 0 0 s []).reverse
where
  go (before : Option Char) (pos free : Nat) : List Char → List Found → List Found
    | [], acc => acc
    | c :: r, acc =>
      if pos < free then go (some c) (pos + 1) free r acc
      else match p.foundAt? ⟨before, pos, c :: r, []⟩ with
        | some m => go (some c) (pos + 1) m.stop r (m :: acc)
        | none => go (some c) (pos + 1) free r acc

def ofList : List Pattern → Pattern
  | [] => empty
  | [p] => p
  | p :: ps => seq p (ofList ps)

def oneOf : List Pattern → Pattern
  | [] => one fun _ => false
  | [p] => p
  | p :: ps => orElse p (oneOf ps)

def char (c : Char) : Pattern := one (· == c)

def word (w : String) : Pattern := ofList (w.toList.map char)

/-- A lower-case word, matched whatever its case. -/
def wordIgnoringCase (w : String) : Pattern :=
  ofList (w.toList.map fun l => one (matchesIgnoringCase l))

def words (ws : List String) : Pattern := oneOf (ws.map word)

def optional (p : Pattern) : Pattern := orElse p empty

def blanks (least : Nat) : Pattern := many isBlank least

def digits : Pattern := many isDecimal 1

def anyChar (c : Char) : Bool := c != '\n'

end Pattern

end QualityGate.Text
