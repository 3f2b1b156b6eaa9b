import QualityGate.Json.Reader

/-! JSON inside other output: the first bracketed span of a text, and the
first value that two streams of output hold. -/

namespace QualityGate.Json

def closerOf (opener : Char) : Char := if opener == '[' then ']' else '\x7d'

/-- The number of characters up to the closer of the bracket that is open `depth` times. Brackets
inside string literals do not count. -/
def closingIndex? (opener closer : Char) : List Char → Nat → Nat → Bool → Option Nat
  | [], _, _, _ => none
  | '\\' :: _ :: r, n, depth, true => closingIndex? opener closer r (n + 2) depth true
  | c :: r, n, depth, true => closingIndex? opener closer r (n + 1) depth (c != '"')
  | c :: r, n, depth, false =>
    if c == '"' then closingIndex? opener closer r (n + 1) depth true
    else if c == opener then closingIndex? opener closer r (n + 1) (depth + 1) false
    else if c == closer then
      if depth == 1 then some (n + 1) else closingIndex? opener closer r (n + 1) (depth - 1) false
    else closingIndex? opener closer r (n + 1) depth false

def opensSpan (c : Char) : Bool := c == '[' || c == '\x7b'

/-- The text from the first bracket or brace to the one that closes it. -/
def embeddedSpan? (s : List Char) : Option (List Char) :=
  match s.dropWhile fun c => !opensSpan c with
  | [] => none
  | c :: r => (closingIndex? c (closerOf c) r 1 1 false).map fun n => (c :: r).take n

/-- The first of some texts that is an array or an object. What is well-formed but beyond the bounds
of the reader ends the search. -/
def firstPayload? [Limits] : List (List Char) → Except LocatedFault (Option Json)
  | [] => .ok none
  | s :: rest =>
    if s.head?.any opensSpan then
      match read s with
      | .ok v => .ok (some v)
      | .error f => if f.problem.isSyntax then firstPayload? rest else .error f
    else firstPayload? rest

/-- The whole first stream, the whole second one, then the span in either. -/
def payload? [Limits] (stdout stderr : List Char) : Except LocatedFault (Option Json) :=
  firstPayload?
    ([some (Text.trim stdout), some (Text.trim stderr), embeddedSpan? stdout, embeddedSpan? stderr].filterMap id)

end QualityGate.Json
