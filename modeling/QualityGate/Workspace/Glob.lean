import QualityGate.Failure
import QualityGate.Text.Pattern

/-! Ignore-style globs. A star stays inside a path segment, a double star spans
segments, and a pattern that names a directory covers everything below it. Of
several patterns the last one that matches decides. -/

namespace QualityGate

open Text

inductive Glob where
  /-- Matches no path at all. -/
  | inert
  | matcher (negated : Bool) (p : Pattern)

namespace Glob

def isInSegment (c : Char) : Bool := c != '/'

/-- The members of a bracket expression; the first character is a member even if it is a closer. -/
def classMembers : List Char → List (Char × Char)
  | a :: '-' :: b :: r => (a, b) :: classMembers r
  | a :: r => (a, a) :: classMembers r
  | [] => []

def inClass (members : List (Char × Char)) (c : Char) : Bool := members.any fun (a, b) => a ≤ c && c ≤ b

/-- The parts of a bracket expression after its opening bracket: whether it is negated, its members
and the number of characters up to its closing bracket. -/
def readClass? (s : List Char) : Option (Bool × List Char × Nat) :=
  let negated := s.head? == some '!' || s.head? == some '^'
  let inner := if negated then s.drop 1 else s
  let first := inner.takeWhile (· == ']') |>.take 1
  let body := first ++ (inner.drop first.length).takeWhile (· != ']')
  if body.length < inner.length then some (negated, body, s.length - inner.length + body.length + 1)
  else none

inductive Unusable where
  | openClass
  | loneEscape

/-- A range of characters whose last one comes before the first. -/
structure ReversedRange where
  first : Char
  last : Char
  position : Nat

/-- A pattern, the length of the regular expression that says the same, and the first reversed range
in it. -/
structure Piece where
  pattern : Pattern
  length : Nat
  reversed : Option ReversedRange := none

/-- The position of a reversed range is counted from the beginning of the whole expression. -/
def ReversedRange.after (n : Nat) (r : ReversedRange) : ReversedRange := { r with position := n + r.position }

def Piece.append (a b : Piece) : Piece :=
  ⟨.seq a.pattern b.pattern, a.length + b.length, a.reversed.or (b.reversed.map (·.after a.length))⟩

def Piece.ofList : List Piece → Piece
  | [] => ⟨.empty, 0, none⟩
  | [p] => p
  | p :: ps => p.append (ofList ps)

/-- Characters that mean something in a regular expression stand behind a backslash there. -/
def escapedChars : List Char := "()[]\x7b\x7d?*+-|^$\\.&~# \t\n\r\x0b\x0c".toList

def Piece.char (c : Char) : Piece := { pattern := .char c, length := if escapedChars.contains c then 2 else 1 }

/-- Inside brackets only a backslash is written twice. -/
def memberText (c : Char) : String := if c == '\\' then "\\\\" else String.singleton c

def memberLength (c : Char) : Nat := (memberText c).length

def firstReversed? (position : Nat) : List Char → Option ReversedRange
  | a :: '-' :: b :: r =>
    if b < a then some ⟨a, b, position⟩ else firstReversed? (position + memberLength a + 1 + memberLength b) r
  | a :: r => firstReversed? (position + memberLength a) r
  | [] => none

def ReversedRange.message (r : ReversedRange) : String :=
  "bad character range " ++ memberText r.first ++ "-" ++ memberText r.last ++ " at position " ++ toString r.position

def Piece.ofClass (negated : Bool) (body : List Char) : Piece :=
  let opener := if negated then 2 else 1
  { pattern := .one fun c => inClass (classMembers body) c != negated
    length := body.foldl (fun n c => n + memberLength c) opener + 1
    reversed := firstReversed? opener body }

/-- A run of characters in a segment. -/
def anyInSegment (least : Nat) : Piece := { pattern := .many isInSegment least, length := 5 }

/-- The pattern of one segment. -/
def segment (s : List Char) : Except Unusable Piece :=
  match s with
  | [] => .ok (.ofList [])
  | ['\\'] => .error .loneEscape
  | '\\' :: c :: r => (segment r).map (Piece.char c).append
  | '*' :: r => (segment r).map (anyInSegment 0).append
  | '?' :: r => (segment r).map (Piece.append { pattern := .one isInSegment, length := 4 })
  | '[' :: r =>
    match readClass? r with
    | none => .error .openClass
    | some (negated, body, n) => (segment (r.drop n)).map (Piece.ofClass negated body).append
  | c :: r => (segment r).map (Piece.char c).append
termination_by s.length

def dropTrailingBlanks (s : List Char) : List Char :=
  if "\\ ".toList.isSuffixOf s then s else trimRight s

def doubleStar : List Char := ['*', '*']

def collapse : List (List Char) → List (List Char)
  | a :: b :: r => if a == doubleStar && b == doubleStar then collapse (b :: r) else a :: collapse (b :: r)
  | r => r

/-- The segments with the double stars that the spelling implies, and whether the pattern names a
directory; none when nothing is left. -/
def segments? (s : List Char) : Option (List (List Char) × Bool) :=
  let segs := splitAtChar '/' s
  let segs := match segs with
    | [] :: r => r
    | [x] => if x == doubleStar then [x] else [doubleStar, x]
    | [x, []] => if x == doubleStar then [x, []] else [doubleStar, x, []]
    | r => r
  match segs.getLast? with
  | none => none
  | some [] => some (collapse (segs.dropLast ++ [doubleStar]), true)
  | some _ => some (collapse segs, false)

def ending : Piece := { pattern := .orElse (.char '/') .atEnd, length := 7 }

def slash : Piece := .char '/'

/-- Any segments, with a slash before them or, at the very beginning, after them. -/
def segmentsBetween : Piece :=
  { pattern := .optional (.seq (.char '/') (.many Pattern.anyChar 1)), length := 8 }

def segmentsBefore : Piece :=
  { pattern := .optional (.seq (.many Pattern.anyChar 1) (.char '/')), length := 8 }

/-- The pattern of the segments after the first place, a slash going before a segment where one is
needed. -/
def following (needsSlash : Bool) : List (List Char) → Except Unusable Piece
  | [] => .ok (.ofList [])
  | seg :: rest =>
    if seg == doubleStar then
      if rest.isEmpty then .ok slash else (following true rest).map segmentsBetween.append
    else do
      let body ← if seg == ['*'] then .ok (anyInSegment 1) else segment seg
      let tail ← if rest.isEmpty then .ok ending else following true rest
      .ok (.ofList ((if needsSlash then [slash] else []) ++ [body, tail]))

def somewhere (p : Char → Bool) : Piece :=
  { pattern := .ofList [.fewest (fun _ => true) 0, .one p], length := 0 }

/-- The mark for the beginning of the text. -/
def beginning : Piece := { pattern := .empty, length := 1 }

def ofSegments (segs : List (List Char)) (isDirectory : Bool) : Except Unusable Piece :=
  if segs == [doubleStar] then .ok (somewhere (if isDirectory then (· == '/') else Pattern.anyChar))
  else if segs == [doubleStar, ['*']] then .ok (somewhere Pattern.anyChar)
  else if segs == [doubleStar, ['*'], doubleStar] then .ok (somewhere (· == '/'))
  else match segs with
    | first :: rest =>
      if first == doubleStar then
        (following false rest).map fun p => .ofList [beginning, segmentsBefore, p]
      else (following false segs).map beginning.append
    | [] => .ok (.ofList [])

def compile (pattern : String) : Outcome Glob :=
  match dropTrailingBlanks pattern.toList with
  | [] | '#' :: _ | ['/'] => .ok .inert
  | s =>
    let (negated, s) := match s with
      | '!' :: r => (true, r)
      | r => (false, r)
    match segments? s with
    | none => .error (.glob pattern)
    | some (segs, isDirectory) =>
      match ofSegments segs isDirectory with
      | .ok p => match p.reversed with
        | some r => .error (.badPattern r.message)
        | none => .ok (.matcher negated p.pattern)
      | .error .openClass => .ok .inert
      | .error .loneEscape => .error (.glob pattern)

/-- Empty patterns are skipped. -/
def compileAll (patterns : List String) : Outcome (List Glob) :=
  (patterns.filter (· != "")).mapM compile

def pathText (path : String) : List Char :=
  match path.toList with
  | '/' :: r => r
  | '.' :: '/' :: r => r
  | r => r

def verdict? (path : List Char) : Glob → Option Bool
  | inert => none
  | matcher negated p => if (p.matchPrefix? path).isSome then some (!negated) else none

/-- The last pattern that matches decides; without one the path is not selected. -/
def selects (globs : List Glob) (path : String) : Bool :=
  ((globs.reverse.findSome? (verdict? (pathText path))).getD false)

end Glob

end QualityGate
