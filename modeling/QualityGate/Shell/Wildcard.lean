import QualityGate.Shell.Script

/-! Patterns with wildcards, as in the names of files and the branches of a
choice. -/

namespace QualityGate.Shell

/-- A character, and whether it is quoted. -/
abbrev Mark := Char × Bool

inductive SetItem where
  | range (first last : Char)
  | named (p : Char → Bool)

inductive Wildcard where
  | one (c : Char)
  | any
  /-- Any characters, perhaps none. -/
  | run
  | set (negated : Bool) (items : List SetItem)

def SetItem.holds (c : Char) : SetItem → Bool
  | range first last => first ≤ c && c ≤ last
  | named p => p c

def Wildcard.fits (c : Char) : Wildcard → Bool
  | one d => c == d
  | any => true
  | run => false
  | set negated items => items.any (·.holds c) != negated

namespace Wildcard

def isGraphic (c : Char) : Bool := '!' ≤ c && c ≤ '~'

def classes : List (String × (Char → Bool)) :=
  [("alnum", Char.isAlphanum), ("alpha", Char.isAlpha), ("blank", fun c => c == ' ' || c == '\t'),
    ("cntrl", fun c => c < ' ' || c == '\x7f'), ("digit", Char.isDigit), ("graph", isGraphic),
    ("lower", Char.isLower), ("print", fun c => c == ' ' || isGraphic c),
    ("punct", fun c => isGraphic c && !c.isAlphanum), ("space", fun c => c == ' ' || ('\t' ≤ c && c ≤ '\r')),
    ("upper", Char.isUpper), ("xdigit", fun c => c.isDigit || ('a' ≤ c && c ≤ 'f') || ('A' ≤ c && c ≤ 'F'))]

/-- A class by its name between colons, and what follows its bracket. -/
def named? (ms : List Mark) : Option (SetItem × List Mark) :=
  match ms with
  | (':', false) :: r =>
    let name := (r.takeWhile fun m => m.1.isLower).map Prod.fst
    match r.drop name.length with
    | (':', false) :: (']', _) :: rest => (classes.lookup (String.ofList name)).map fun p => (.named p, rest)
    | _ => none
  | _ => none

/-- The items of a set and what follows it. A bracket that closes it may come first in it. -/
def items? : Nat → List SetItem → List Mark → Option (List SetItem × List Mark)
  | 0, _, _ => none
  | _, _, [] => none
  | fuel + 1, acc, (c, quoted) :: r =>
    if c == ']' && !quoted && !acc.isEmpty then some (acc.reverse, r)
    else match if c == '[' && !quoted then named? r else none with
      | some (item, rest) => items? fuel (item :: acc) rest
      | none =>
        match r with
        | ('-', false) :: (d, q) :: rest =>
          if d == ']' && !q then items? fuel (.range c c :: acc) r else items? fuel (.range c d :: acc) rest
        | _ => items? fuel (.range c c :: acc) r

def ofMarks : Nat → List Mark → List Wildcard
  | 0, _ => []
  | _, [] => []
  | fuel + 1, (c, quoted) :: r =>
    if quoted then .one c :: ofMarks fuel r
    else if c == '?' then .any :: ofMarks fuel r
    else if c == '*' then .run :: ofMarks fuel r
    else if c == '\\' then
      match r with
      | (d, _) :: rest => .one d :: ofMarks fuel rest
      | [] => [.one c]
    else if c == '[' then
      let negated := r.head? == some ('!', false)
      match items? (r.length + 1) [] (if negated then r.drop 1 else r) with
      | some (items, rest) => .set negated items :: ofMarks fuel rest
      | none => .one c :: ofMarks fuel r
    else .one c :: ofMarks fuel r

/-- Whether a pattern covers a whole text. -/
def covers : List Wildcard → List Char → Bool
  | [], cs => cs.isEmpty
  | .run :: ws, [] => covers ws []
  | .run :: ws, c :: cs => covers ws (c :: cs) || covers (.run :: ws) cs
  | _ :: _, [] => false
  | w :: ws, c :: cs => w.fits c && covers ws cs

end Wildcard

/-- The pattern that some marks spell. -/
def wildcards (ms : List Mark) : List Wildcard := Wildcard.ofMarks ms.length ms

/-- What is left of a text without the part at one end that matches a pattern. -/
def withoutMatch (atEnd longest : Bool) (ws : List Wildcard) (cs : List Char) : List Char :=
  let lengths := List.range (cs.length + 1)
  let lengths := if longest then lengths.reverse else lengths
  let split (n : Nat) : List Char × List Char := if atEnd then (cs.drop (cs.length - n), cs.take (cs.length - n))
    else (cs.take n, cs.drop n)
  match lengths.find? fun n => Wildcard.covers ws (split n).1 with
  | some n => (split n).2
  | none => cs

def hasWildcard (ms : List Mark) : Bool := ms.any fun (c, quoted) => !quoted && (c == '*' || c == '?' || c == '[')

end QualityGate.Shell
