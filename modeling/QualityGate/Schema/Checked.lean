import QualityGate.Json.Value

/-! Data checked against a schema. All faults are reported, each with the path
to the value it is about, in the order of the schema's fields. -/

namespace QualityGate.Schema

/-- Data to be checked; the keys of a table may be of any kind. -/
inductive Input where
  | null
  | bool (b : Bool)
  | int (n : Int)
  | float (x : Float)
  | text (s : String)
  | bytes (data : ByteArray)
  /-- A text with codes in it that are no characters, for which others stand here. -/
  | illFormed (shown : String)
  | list (items : List Input)
  /-- Read as a list, but no mapping or key. -/
  | set (items : List Input)
  | table (entries : List (Input × Input))
  /-- A value that no schema accepts, such as a date. -/
  | foreign (shown : String)
  deriving Inhabited

inductive Place where
  | name (s : String)
  | index (n : Int)
  deriving DecidableEq, Repr

inductive FaultKind where
  | missing
  | boolType | boolParsing
  | intType | intParsing | intParsingSize | intFromFloat | finiteNumber
  | floatType | floatParsing
  | stringType | stringUnicode
  | listType | tupleType | dictType | modelType
  | tooLong
  | unknownMember
  | unknownLiteral
  | belowMinimum
  | aboveMaximum
  deriving DecidableEq, Repr

def FaultKind.label : FaultKind → String
  | missing => "missing"
  | boolType => "bool_type"
  | boolParsing => "bool_parsing"
  | intType => "int_type"
  | intParsing => "int_parsing"
  | intParsingSize => "int_parsing_size"
  | intFromFloat => "int_from_float"
  | finiteNumber => "finite_number"
  | floatType => "float_type"
  | floatParsing => "float_parsing"
  | stringType => "string_type"
  | stringUnicode => "string_unicode"
  | listType => "list_type"
  | tupleType => "tuple_type"
  | dictType => "dict_type"
  | modelType => "model_type"
  | tooLong => "too_long"
  | unknownMember => "enum"
  | unknownLiteral => "literal_error"
  | belowMinimum => "greater_than_equal"
  | aboveMaximum => "less_than_equal"

structure Fault where
  path : List Place
  kind : FaultKind
  deriving DecidableEq, Repr

def Checked (α : Type) := Except (List Fault) α

namespace Checked

def fail {α : Type} (kind : FaultKind) : Checked α := .error [⟨[], kind⟩]

/-- Both sides are checked, so that the faults of both are kept. -/
instance : Applicative Checked where
  pure := .ok
  seq f x :=
    match f, x () with
    | .ok f, .ok a => .ok (f a)
    | .ok _, .error e => .error e
    | .error e, .ok _ => .error e
    | .error e, .error e' => .error (e ++ e')

def under {α : Type} (place : Place) (c : Checked α) : Checked α :=
  match c with
  | .ok a => .ok a
  | .error e => .error (e.map fun f => { f with path := place :: f.path })

def andThen {α β : Type} (c : Checked α) (f : α → Checked β) : Checked β :=
  match c with
  | .ok a => f a
  | .error e => .error e

def all {α : Type} : List (Checked α) → Checked (List α)
  | [] => pure []
  | c :: cs => (· :: ·) <$> c <*> all cs

end Checked

mutual

def Input.ofJson : Json → Input
  | .null => .null
  | .bool b => .bool b
  | .int n => .int n
  | .float x => .float x
  | .str s => .text s
  | .arr items => .list (ofJsonItems items)
  | .obj fields => .table (ofJsonFields fields)

def Input.ofJsonItems : List Json → List Input
  | [] => []
  | v :: vs => Input.ofJson v :: Input.ofJsonItems vs

def Input.ofJsonFields : List (String × Json) → List (Input × Input)
  | [] => []
  | (name, v) :: fs => (.text name, Input.ofJson v) :: Input.ofJsonFields fs

end

end QualityGate.Schema
