import QualityGate.Decimal.Numeral
import QualityGate.Json.Writer
import QualityGate.Schema.Checked

/-! Readers for scalars, collections and records. Scalars are read leniently:
numbers from texts that spell them, truth values from the usual words, whole
numbers from floats without a fraction. -/

namespace QualityGate.Schema

open Checked

/-! Numbers written as text. Blanks around them do not count, nor do single
underscores inside of them. -/

/-- Drops underscores; there is no result where one stands at an end or beside another. -/
def withoutUnderscores? (cs : List Char) : Option (List Char) :=
  let parts := Text.splitAtChar '_' cs
  if parts.all fun p => !p.isEmpty then some parts.flatten else none

/-- Drops the zeros that stand before another digit, underscores among them included. What follows
them is neither a sign nor an underscore. -/
def withoutLeadingZeros? (cs : List Char) : Option (List Char) :=
  let isZero (c : Char) : Bool := c == '0' || c == '_'
  match cs with
  | '0' :: r =>
    let kept := ('0' :: r.takeWhile isZero).getLast?.toList
    match r.dropWhile isZero with
    | [] => some kept
    | c :: r => if c == '.' then some (kept ++ c :: r) else if Numeral.isAsciiDigit c then some (c :: r) else none
  | c :: _ => if c == '-' || Numeral.isAsciiDigit c then some cs else none
  | [] => none

/-- Drops a point with one zero or more after it. -/
def withoutZeroFraction (cs : List Char) : List Char :=
  let whole := cs.takeWhile (· != '.')
  match cs.dropWhile (· != '.') with
  | '.' :: zeros => if !zeros.isEmpty && zeros.all (· == '0') then whole else cs
  | _ => cs

def unsignedInteger? (cs : List Char) : Option Nat :=
  if Numeral.areDigits cs && (cs.length == 1 || cs.head? != some '0') then some (Numeral.valueIn 10 cs) else none

/-- A whole number, perhaps with a sign, zeros before it and a fraction of zeros. One with a minus
has no zeros before it. -/
def integerOfText (s : String) : Checked Int :=
  let cs := Text.trimSpaces s.toList
  let unplussed := match cs with
    | '+' :: '-' :: _ => none
    | '+' :: r => some r
    | r => some r
  match (unplussed.bind withoutLeadingZeros?).map withoutZeroFraction with
  | none => fail .intParsing
  | some cs =>
    let cs := (withoutUnderscores? cs).getD cs
    let (negative, digits) := match cs with
      | '-' :: r => (true, r)
      | r => (false, r)
    let length := (cs.takeWhile fun c => c == '-' || Numeral.isAsciiDigit c).length
    if length > Numeral.mostDigits then fail .intParsingSize
    else match unsignedInteger? digits with
      | some n => pure (Numeral.withSign negative n)
      | none => fail .intParsing

/-- A float with blanks around it, or one with underscores and no blanks. -/
def floatOfText? (s : String) : Option Float :=
  (Numeral.float? (Text.trimSpaces s.toList)).or ((withoutUnderscores? s.toList).bind Numeral.float?)

/-! Scalars. -/

abbrev Reader (α : Type) := Input → Checked α

def lowerAscii (s : String) : String := String.ofList (s.toList.map Char.toLower)

/-- The text of a scalar that is written as one: bytes are read as the text they encode, and `kind` is
the fault of bytes that encode none. -/
def textOf? (kind : FaultKind) : Input → Option (Checked String)
  | .text s => some (pure s)
  | .bytes data => some (match String.fromUTF8? data with
    | some s => pure s
    | none => fail kind)
  | .illFormed _ => some (fail .stringUnicode)
  | _ => none

def truthWords : List (String × Bool) :=
  [("0", false), ("off", false), ("f", false), ("false", false), ("n", false), ("no", false),
    ("1", true), ("on", true), ("t", true), ("true", true), ("y", true), ("yes", true)]

/-- The first whole number that 64 bits with a sign cannot hold. -/
def wordLimit : Int := 9223372036854775808

/-- Only zero and one are truth values; numbers of more than 64 bits are not even looked at. -/
def truthOfInt (n : Int) : Checked Bool :=
  if n == 0 then pure false
  else if n == 1 then pure true
  else if -wordLimit ≤ n && n < wordLimit then fail .boolParsing
  else fail .boolType

def truthOfText (s : String) : Checked Bool :=
  match truthWords.lookup (lowerAscii s) with
  | some b => pure b
  | none => fail .boolParsing

/-- The least and the greatest number of 64 bits are refused like those beyond them. -/
def integerOfFloat (x : Float) : Checked Int :=
  match Decimal.exactValue? x with
  | none => fail .finiteNumber
  | some v =>
    if !v.isIntegral then fail .intFromFloat
    else if -wordLimit < v.truncate && v.truncate < wordLimit then pure v.truncate
    else fail .intParsingSize

def bool : Reader Bool
  | .bool b => pure b
  | .int n => truthOfInt n
  | .float x => match integerOfFloat x with
    | .ok n => truthOfInt n
    | .error _ => fail .boolType
  | v => ((textOf? .boolParsing v).map (·.andThen truthOfText)).getD (fail .boolType)

def int : Reader Int
  | .int n => pure n
  | .bool b => pure (if b then 1 else 0)
  | .float x => integerOfFloat x
  | v => ((textOf? .intParsing v).map (·.andThen integerOfText)).getD (fail .intType)

def float : Reader Float
  | .float x => pure x
  | .int n =>
    let x := Decimal.ofInteger n
    if (Decimal.exactValue? x).isSome then pure x else fail .floatType
  | .bool b => pure (if b then 1 else 0)
  | v =>
    let ofText (s : String) : Checked Float := ((floatOfText? s).map pure).getD (fail .floatParsing)
    ((textOf? .floatParsing v).map (·.andThen ofText)).getD (fail .floatType)

def string : Reader String := fun v => (textOf? .stringUnicode v).getD (fail .stringType)

def nullable {α : Type} (r : Reader α) : Reader (Option α)
  | .null => pure none
  | v => some <$> r v

def atLeastZero : Reader Nat := fun v =>
  (int v).andThen fun n => if n < 0 then fail .belowMinimum else pure n.toNat

/-- A member of a closed set of words. -/
def member {α : Type} (kind : FaultKind) (ofLabel? : String → Option α) : Reader α := fun v =>
  match string v with
  | .ok s => ((ofLabel? s).map pure).getD (fail kind)
  | .error _ => fail kind

def itemsFrom {α : Type} (r : Reader α) (start : Nat) : List Input → Checked (List α)
  | [] => pure []
  | v :: vs => (· :: ·) <$> (r v).under (.index start) <*> itemsFrom r (start + 1) vs

def listOf {α : Type} (r : Reader α) : Reader (List α)
  | .list items | .set items => itemsFrom r 0 items
  | _ => fail .listType

/-- Like a list, but known by another name when it is none. -/
def tupleOf {α : Type} (r : Reader α) : Reader (List α)
  | .list items | .set items => itemsFrom r 0 items
  | _ => fail .tupleType

def pairOf {α : Type} (r : Reader α) : Reader (α × α)
  | .list items | .set items =>
    let item (n : Nat) : Checked α := match items[n]? with
      | some v => (r v).under (.index n)
      | none => (fail .missing).under (.index n)
    let both := Prod.mk <$> item 0 <*> item 1
    if items.length > 2 then fail .tooLong else both
  | _ => fail .tupleType

/-- Numbers of more than 64 bits are named by their text. -/
def Input.asPlace : Input → Place
  | .text s => .name s
  | .illFormed shown => .name shown
  | .bytes data => .name (Plain.quotedBytes data)
  | .int n => if -wordLimit ≤ n && n < wordLimit then .index n else .name (toString n)
  | .bool b => .index (if b then 1 else 0)
  | .float x => .name (Decimal.text x)
  | .foreign shown => .name shown
  | _ => .name "None"

/-- A key that is there already keeps its place and takes the new value. -/
def insertKey {κ α : Type} [BEq κ] (entries : List (κ × α)) (k : κ) (v : α) : List (κ × α) :=
  if entries.any (·.1 == k) then entries.map fun e => if e.1 == k then (k, v) else e
  else entries ++ [(k, v)]

/-- A mapping whose faulty keys and values are both reported, entry by entry. -/
def mapOf {κ α : Type} [BEq κ] (key : Reader κ) (value : Reader α) : Reader (List (κ × α))
  | .table entries =>
    let read (e : Input × Input) : Checked (κ × α) :=
      Prod.mk <$> ((key e.1).under (.name "[key]")).under e.1.asPlace <*> (value e.2).under e.1.asPlace
    (all (entries.map read)).andThen fun pairs =>
      pure (pairs.foldl (fun acc p => insertKey acc p.1 p.2) [])
  | _ => fail .dictType

/-- The named entries of a record; entries under any other key are ignored. -/
abbrev Entries := List (Input × Input)

def Entries.get? (entries : Entries) (name : String) : Option Input :=
  entries.findSome? fun (k, v) => match k with
    | .text s => if s == name then some v else none
    | _ => none

def record {α : Type} (r : Entries → Checked α) : Reader α
  | .table entries => r entries
  | _ => fail .modelType

def required {α : Type} (entries : Entries) (name : String) (r : Reader α) : Checked α :=
  match entries.get? name with
  | some v => (r v).under (.name name)
  | none => (fail .missing).under (.name name)

def optional {α : Type} (entries : Entries) (name : String) (default : α) (r : Reader α) : Checked α :=
  match entries.get? name with
  | some v => (r v).under (.name name)
  | none => pure default

/-- A field that may also stand under its own name; the preferred name also names a missing one. -/
def aliased {α : Type} (entries : Entries) (preferred name : String) (default? : Option α) (r : Reader α) :
    Checked α :=
  match entries.get? preferred, entries.get? name, default? with
  | some v, _, _ => (r v).under (.name preferred)
  | none, some v, _ => (r v).under (.name name)
  | none, none, some d => pure d
  | none, none, none => (fail .missing).under (.name preferred)

end QualityGate.Schema
