import QualityGate.Json.Commented
import QualityGate.Json.WholeNumber
import QualityGate.Workspace.Tree

/-! The compiler's options as they follow from a configuration file and the
files it extends. -/

namespace QualityGate.CompilerOptions

/-- Reads a configuration file: JSON with comments whose value is an object. -/
def load (w : Workspace) (p : Path) : Outcome Json.Fields :=
  let invalid (detail : String) : Outcome Json.Fields := .error (.configInvalid p.text (.text detail))
  match w.readMarkedText p with
  | .error e => invalid e.message
  | .ok text =>
    match Json.readCommented text with
    | .error f =>
      if !f.problem.isSyntax then .error (.ofJson f)
      else invalid ("line " ++ toString f.line ++ ", column " ++ toString f.column ++ ": " ++ f.problem.text)
    | .ok (.obj fields) => .ok fields
    | .ok _ => invalid "top-level value must be an object"

/-- The name that a scalar gives to an option. -/
def nameOf : Json → Outcome String
  | .str s => .ok s
  | .arr _ => .error (.badType "unhashable type: 'list'")
  | .obj _ => .error (.badType "unhashable type: 'dict'")
  | v => .ok (Plain.text v)

/-- The two parts of a pair: of a list, the characters of a text, or the names of an object. -/
def pairOf (index : Nat) (v : Json) : Outcome (String × Json) :=
  let parts? : Option (List Json) := match v with
    | .arr items => some items
    | .str s => some (s.toList.map fun c => .str (String.singleton c))
    | .obj fields => some (fields.map fun f => .str f.1)
    | _ => none
  match parts? with
  | none => .error (.badType ("cannot convert dictionary update sequence element #" ++ toString index ++ " to a sequence"))
  | some [name, value] => do .ok (← nameOf name, value)
  | some parts => .error (.badValue ("dictionary update sequence element #" ++ toString index ++ " has length " ++
      toString parts.length ++ "; 2 is required"))

def pairsFrom (index : Nat) : List Json → Outcome (List (String × Json))
  | [] => .ok []
  | v :: vs => do
    let p ← pairOf index v
    .ok (p :: (← pairsFrom (index + 1) vs))

/-- The options a file itself sets: an object, or a list of pairs. -/
def own (fields : Json.Fields) : Outcome Json.Fields :=
  match (Json.obj fields).present? "compilerOptions" with
  | none => .ok []
  | some (.obj options) => .ok options
  | some (.arr items) => do .ok (Json.Fields.ofPairs (← pairsFrom 0 items))
  | some (.str s) => do .ok (Json.Fields.ofPairs (← pairsFrom 0 (s.toList.map fun c => .str (String.singleton c))))
  | some v => .error (.badType ("'" ++ v.kindName ++ "' object is not iterable"))

/-- Options under the ones that are set over them. -/
def overlay (base upper : Json.Fields) : Json.Fields := upper.foldl (fun fs f => Json.Fields.put fs f.1 f.2) base

/-- The path with the suffix that a base may leave out. -/
def withSuffix (q : Path) : Outcome Path :=
  if q.suffix == ".json" then .ok q
  else if q.name == "" then .error (.badValue "PosixPath('/') has an empty name")
  else .ok (q.withName (q.name ++ ".json"))

/-- The longest name that an entry can have, in bytes. -/
def longestName : Nat := 255

/-- Whether a way that leads through directories comes to a name that no entry can have. -/
def meetsLongName (w : Workspace) (dir : List String) : List String → Bool
  | [] => false
  | name :: rest =>
    longestName < name.utf8ByteSize ||
      match w.entryAt (dir ++ [name]) with
      | some .directory => meetsLongName w (dir ++ [name]) rest
      | _ => false

/-- The file that a relative base names. -/
def baseFile (w : Workspace) (p : Path) (base : String) : Outcome Path := do
  if base.toList.contains '\x00' then .error (.badValue "embedded null byte")
  else
    let q ← withSuffix (← w.resolve (p.parent.join (Path.ofText base)))
    if meetsLongName w [] q.parts then .error (.system ("[Errno 36] File name too long: " ++ Plain.quoted q.text))
    else .ok q

def relativeBase? (fields : Json.Fields) : Option String :=
  match fields.lookup "extends" with
  | some (.str base) => if base.toList.head? == some '.' then some base else none
  | _ => none

/-- Whether a configuration file is at fault, and not the bounds of its reader. -/
def isInvalid : Failure → Bool
  | .configInvalid .. => true
  | _ => false

/-- The options of a file over those of the files it extends, at most `links` of them. A base that
is missing or invalid ends the chain. -/
def resolve (w : Workspace) (links : Nat) (p : Path) (fields : Json.Fields) : Outcome Json.Fields := do
  let options ← own fields
  match relativeBase? fields, links with
  | some base, links + 1 => do
    let q ← baseFile w p base
    match load w q with
    | .error e => if isInvalid e then .ok options else .error e
    | .ok baseFields => .ok (overlay (← resolve w links q baseFields) options)
  | _, _ => .ok options

def maxLinks : Nat := 5

end QualityGate.CompilerOptions
