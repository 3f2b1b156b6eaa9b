/-! JSON values. The fields of an object keep the order in which their names
first appeared. -/

namespace QualityGate

/-- Values whose strings are of a type. -/
inductive Json (σ : Type := String) where
  | null
  | bool (b : Bool)
  | int (n : Int)
  | float (x : Float)
  | str (s : σ)
  | arr (items : List (Json σ))
  | obj (fields : List (σ × Json σ))
  deriving Inhabited

namespace Json

abbrev Fields (σ : Type := String) := List (σ × Json σ)

section fields

variable {σ : Type} [DecidableEq σ]

/-- A name that is already there keeps its place and takes the new value. -/
def Fields.put (fields : Fields σ) (name : σ) (v : Json σ) : Fields σ :=
  if fields.any (·.1 == name) then fields.map fun f => if f.1 == name then (name, v) else f
  else fields ++ [(name, v)]

/-- The fields of an object read in the given order. -/
def Fields.ofPairs (pairs : List (σ × Json σ)) : Fields σ :=
  pairs.foldl (fun fields p => Fields.put fields p.1 p.2) []

end fields

def field? (v : Json) (name : String) : Option Json :=
  match v with
  | obj fields => fields.lookup name
  | _ => none

def isNull : Json → Bool
  | null => true
  | _ => false

/-- Null, false, zero and everything empty count as absent. -/
def isPresent : Json → Bool
  | null => false
  | bool b => b
  | int n => n != 0
  | float x => x != 0
  | str s => s != ""
  | arr items => !items.isEmpty
  | obj fields => !fields.isEmpty

/-- A field's value when it is present in that sense. -/
def present? (v : Json) (name : String) : Option Json := (v.field? name).filter isPresent

end Json

end QualityGate
