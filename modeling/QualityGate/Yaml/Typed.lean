import QualityGate.Failure
import QualityGate.Schema.Reader
import QualityGate.Text.Base64
import QualityGate.Yaml.Implicit

/-! Data that is built level by level: all that is nested once, then all that is
nested twice, and so on. Of several failures the one on the outermost level
counts, and on one level the leftmost. -/

namespace QualityGate.Yaml

structure Built (α : Type) where
  value : α
  /-- The first failure on each level. -/
  failures : List (Option Failure)

namespace Built

def leftmost : List (Option Failure) → List (Option Failure) → List (Option Failure)
  | [], fs => fs
  | fs, [] => fs
  | f :: fs, g :: gs => f.or g :: leftmost fs gs

instance : Applicative Built where
  pure a := ⟨a, []⟩
  seq f x := ⟨f.value (x ()).value, leftmost f.failures (x ()).failures⟩

/-- One level farther in. -/
def below {α : Type} (b : Built α) : Built α := { b with failures := none :: b.failures }

def fail {α : Type} [Inhabited α] (e : Failure) : Built α := ⟨default, [some e]⟩

def ofOutcome {α : Type} [Inhabited α] : Outcome α → Built α
  | .ok a => pure a
  | .error e => fail e

def toOutcome {α : Type} (b : Built α) : Outcome α :=
  match b.failures.findSome? id with
  | some e => .error e
  | none => .ok b.value

end Built

/-! The data that a scalar stands for, given its kind. -/

open Schema

namespace Typed

/-- The text after its sign, which is read only if there is a character to be read. -/
def unsigned (cs : List Char) : Outcome (List Char) :=
  if cs.isEmpty then .error (.outOfRange "string index out of range") else .ok (ScalarKind.dropSign cs)

def isNegative (cs : List Char) : Bool := cs.head? == some '-'

/-- The parts of a number to base sixty, each of which may have a sign of its own. -/
def sexagesimal (parts : List Int) : Int := parts.foldl (fun n p => n * 60 + p) 0

/-- A leading zero stands for base eight, a `0b` for two and a `0x` for sixteen. -/
def magnitude (cs : List Char) : Outcome Int :=
  match cs with
  | [] => .error (.outOfRange "string index out of range")
  | ['0'] => .ok 0
  | '0' :: 'b' :: r => Failure.wholeNumber 2 r
  | '0' :: 'x' :: r => Failure.wholeNumber 16 r
  | '0' :: _ => Failure.wholeNumber 8 cs
  | _ =>
    if cs.contains ':' then do .ok (sexagesimal (← (Text.splitAtChar ':' cs).mapM (Failure.wholeNumber 10)))
    else Failure.wholeNumber 10 cs

def integer (s : String) : Outcome Int := do
  let cs := s.toList.filter (· != '_')
  let n ← magnitude (← unsigned cs)
  .ok (if isNegative cs then -n else n)

def decimalFloat (cs : List Char) : Outcome Float :=
  match Numeral.looseFloat? cs with
  | some x => .ok x
  | none => .error (.badValue ("could not convert string to float: " ++ Plain.quoted (String.ofList cs)))

/-- The parts are added from the last to the first. -/
def sexagesimalFloat (parts : List Float) : Float :=
  (parts.reverse.foldl (fun (sum, base) p => (sum + p * base, base * 60)) ((0 : Float), (1 : Float))).1

def floatMagnitude (cs : List Char) : Outcome Float :=
  if cs == ".inf".toList then .ok Decimal.infinity
  else if cs == ".nan".toList then .ok Decimal.notANumber
  else if cs.contains ':' then do .ok (sexagesimalFloat (← (Text.splitAtChar ':' cs).mapM decimalFloat))
  else decimalFloat cs

def float (s : String) : Outcome Float := do
  let cs := (Text.toLowercase s).toList.filter (· != '_')
  let x ← floatMagnitude (← unsigned cs)
  .ok (if isNegative cs then -x else x)

def moment (s : String) : Outcome Input := do
  match Moment.ofText? s with
  | some m => .ok (.foreign (← m.check).shown)
  | none => .error (.missingMember "'NoneType' object has no attribute 'groupdict'")

def bytes (s : String) : Outcome Input :=
  match Text.Base64.decode? s.toList with
  | some bs => if s.toList.all (·.toNat < 128) then .ok (.bytes ⟨bs.toArray⟩) else .error .yaml
  | none => .error .yaml

def truth (s : String) : Outcome Input :=
  let word := Text.toLowercase s
  match ScalarKind.truthWords.lookup word with
  | some b => .ok (.bool b)
  | none => .error (.missingKey word)

/-- The kinds of scalars, each with the reader of its text. -/
def readers : List (String × (String → Outcome Input)) :=
  [("null", fun _ => .ok .null), ("bool", truth), ("int", fun s => .int <$> integer s),
    ("float", fun s => .float <$> float s), ("binary", bytes), ("timestamp", moment), ("str", fun s => .ok (.text s))]

end Typed

end QualityGate.Yaml
