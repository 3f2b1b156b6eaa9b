import QualityGate.Json.Reader

/-! JSON with line and block comments and trailing commas. Both are taken out
before reading; the line feeds of a comment stay, so that a fault is reported
on the line where it stands. -/

namespace QualityGate.Json

/-- The length of a block comment's rest, its end included. -/
def blockRest : List Char → Nat → Nat
  | [], n => n
  | '*' :: '/' :: _, n => n + 2
  | _ :: r, n => blockRest r (n + 1)

def lineRest (s : List Char) : Nat := (s.takeWhile (· != '\n')).length

def withoutComments (s : List Char) : List Char := (go false s []).reverse
where
  go (quoted : Bool) (s acc : List Char) : List Char :=
    match quoted, s with
    | _, [] => acc
    | true, '\\' :: c :: r => go true r (c :: '\\' :: acc)
    | true, c :: r => go (c != '"') r (c :: acc)
    | false, '"' :: r => go true r ('"' :: acc)
    | false, '/' :: '/' :: r => go false (r.drop (lineRest r)) acc
    | false, '/' :: '*' :: r =>
      let n := blockRest r 0
      go false (r.drop n) (((r.take n).filter (· == '\n')) ++ acc)
    | false, c :: r => go false r (c :: acc)
  termination_by s.length

def closesNext (s : List Char) : Bool :=
  match Text.dropBlanks s with
  | c :: _ => c == '\x7d' || c == ']'
  | [] => false

/-- Drops every comma outside strings that only blanks separate from a closer. -/
def withoutTrailingCommas (s : List Char) : List Char := (go false s []).reverse
where
  go (quoted : Bool) (s acc : List Char) : List Char :=
    match quoted, s with
    | _, [] => acc
    | true, '\\' :: c :: r => go true r (c :: '\\' :: acc)
    | true, c :: r => go (c != '"') r (c :: acc)
    | false, '"' :: r => go true r ('"' :: acc)
    | false, ',' :: r => go false r (if closesNext r then acc else ',' :: acc)
    | false, c :: r => go false r (c :: acc)
  termination_by s.length

def readCommented [Limits] (s : List Char) (σ : Type := String) [OfPoints σ] [DecidableEq σ] :
    Except LocatedFault (Json σ) :=
  read (withoutTrailingCommas (withoutComments s)) σ

end QualityGate.Json
