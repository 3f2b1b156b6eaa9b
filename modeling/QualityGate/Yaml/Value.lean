import QualityGate.Yaml.Typed
import QualityGate.Yaml.Node

/-! The data that a document holds. -/

namespace QualityGate.Yaml

open Schema

/-! Kinds. -/

/-- The name of a tag that every document knows. -/
def coreName? (tag : String) : Option String :=
  let start := (coreTag "").toList
  if start.isPrefixOf tag.toList then some (String.ofList (tag.toList.drop start.length)) else none

namespace Node

/-- The name of a node's kind; it is empty where the tag is not known. -/
def kindName : Node → String
  | .scalar none text => (ScalarKind.ofPlain text).label
  | .illFormed none _ => "str"
  | .sequence none _ => "seq"
  | .mapping none _ => "map"
  | .scalar (some tag) _ | .illFormed (some tag) _ | .sequence (some tag) _ | .mapping (some tag) _ =>
    (coreName? tag).getD ""
  | .enclosing _ => ""

def is (v : Node) (kind : ScalarKind) : Bool := v.kindName == kind.label

end Node

/-! Scalars. -/

mutual

/-- The text of a scalar; a mapping with a value key stands for that key's value. -/
def scalarText? : Node → Option String
  | .scalar _ text => some text
  | .mapping _ entries => valueText? entries
  | _ => none

def valueText? : List (Node × Node) → Option String
  | [] => none
  | (k, v) :: es => if k.is .value then scalarText? v else valueText? es

end

def isMapping : Node → Bool
  | .mapping .. => true
  | _ => false

/-- No kind but one has values with codes in them that are no characters. -/
def illFormedValue (kind shown : String) : Outcome Input :=
  match kind with
  | "str" => .ok (.illFormed shown)
  | "null" => .ok .null
  | "bool" => .error (.missingKey shown)
  | "int" => .error (.badValue ("invalid literal for int() with base 10: " ++ shown))
  | "float" => .error (.badValue ("could not convert string to float: " ++ shown))
  | "timestamp" => .error (.missingMember "'NoneType' object has no attribute 'groupdict'")
  | _ => .error .yaml

def scalarValue (kind : String) (v : Node) : Outcome Input :=
  match v, Typed.readers.lookup kind, scalarText? v with
  | .illFormed _ shown, some _, _ => illFormedValue kind shown
  | _, some read, some text =>
    if kind == "timestamp" && isMapping v then .error (.badType "expected string or bytes-like object, got 'list'")
    else read text
  | _, _, _ => .error .yaml

/-! Collections. -/

abbrev Pairs := List (Input × Input)

/-- Truth values and floats without a fraction as the whole numbers that they equal. -/
def asNumber : Input → Input
  | .bool b => .int (if b then 1 else 0)
  | .float x => match Decimal.integer? x with
    | some n => .int n
    | none => .float x
  | v => v

/-- Keys are one when they are equal; numbers of all kinds are compared by value. -/
def sameKey (a b : Input) : Bool :=
  match asNumber a, asNumber b with
  | .null, .null => true
  | .text s, .text t | .foreign s, .foreign t | .illFormed s, .illFormed t => s == t
  | .bytes a, .bytes b => a.data == b.data
  | .int m, .int n => m == n
  | .float x, .float y => x == y || (x.isNaN && y.isNaN)
  | _, _ => false

def isKey : Input → Bool
  | .list _ | .table _ | .set _ => false
  | _ => true

/-- A key that is there already keeps its place and takes the new value. -/
def insertPair (pairs : Pairs) (p : Input × Input) : Pairs :=
  if pairs.any fun q => sameKey q.1 p.1 then pairs.map fun q => if sameKey q.1 p.1 then (q.1, p.2) else q
  else pairs ++ [p]

def table (pairs : Pairs) : Pairs := pairs.foldl insertPair []

/-- The kinds of collections. -/
def collections : List String := ["seq", "omap", "pairs", "map", "set"]

/-- The key that a node stands for, which must not be a collection. -/
def hashable (v : Node) (key : Built Input) : Built Input :=
  let isFit := isKey key.value && !collections.contains v.kindName
  { key with failures := Built.leftmost key.failures (if isFit then [] else [some .yaml]) }

mutual

/-- Whether the entries of a mapping take over from mappings only. -/
def canMerge : List (Node × Node) → Bool
  | [] => true
  | (k, v) :: es => (!k.is .merge || canTake v) && canMerge es

/-- Whether entries can be taken over from a node: from a mapping, or from several. -/
def canTake : Node → Bool
  | .mapping _ entries => canMerge entries
  | .sequence _ items => canTakeAll items
  | .enclosing _ => true
  | _ => false

def canTakeAll : List Node → Bool
  | [] => true
  | .mapping _ entries :: vs => canMerge entries && canTakeAll vs
  | .enclosing _ :: vs => canTakeAll vs
  | _ :: _ => false

end

mutual

def value : Node → Built Input
  | .enclosing _ => pure (.list [])
  | .sequence tag items =>
    match (Node.sequence tag items).kindName with
    | "seq" => Input.list <$> (values items).below
    | "omap" | "pairs" => Input.list <$> (singles items).below
    | "map" | "set" => (Built.fail .yaml).below
    | kind => .ofOutcome (scalarValue kind (.sequence tag items))
  | .mapping tag entries =>
    match (Node.mapping tag entries).kindName with
    | "map" => (fun pairs => Input.table (table pairs)) <$> (checkedPairs entries).below
    | "set" => (fun pairs => Input.set ((table pairs).map (·.1))) <$> (checkedPairs entries).below
    | "seq" | "omap" | "pairs" => (Built.fail .yaml).below
    | kind => .ofOutcome (scalarValue kind (.mapping tag entries))
  | v =>
    if collections.contains v.kindName then (Built.fail .yaml).below
    else .ofOutcome (scalarValue v.kindName v)

def values : List Node → Built (List Input)
  | [] => pure []
  | v :: vs => (· :: ·) <$> value v <*> values vs

/-- The items of an ordered mapping are mappings of one entry each. -/
def singles : List Node → Built (List Input)
  | [] => pure []
  | .mapping _ [(k, v)] :: vs =>
    (fun key v rest => Input.list [key, v] :: rest) <$> value k <*> value v <*> singles vs
  | _ :: _ => .fail .yaml

def checkedPairs (entries : List (Node × Node)) : Built Pairs :=
  if canMerge entries then flatPairs entries else .fail .yaml

/-- The entries of a mapping after those that it takes over from others. -/
def flatPairs (entries : List (Node × Node)) : Built Pairs :=
  (· ++ ·) <$> takenOver entries <*> ownPairs entries

def ownPairs : List (Node × Node) → Built Pairs
  | [] => pure []
  | (k, v) :: es =>
    if k.is .merge then ownPairs es
    else
      let key := if k.is .value then .ofOutcome (scalarValue "str" k) else hashable k (value k)
      (fun key v rest => (key, v) :: rest) <$> key <*> value v <*> ownPairs es

def takenOver : List (Node × Node) → Built Pairs
  | [] => pure []
  | (k, v) :: es => if k.is .merge then (· ++ ·) <$> merged v <*> takenOver es else takenOver es

/-- What a mapping takes over: another mapping, or several of which the first counts most. -/
def merged : Node → Built Pairs
  | .mapping _ entries => flatPairs entries
  | .sequence _ items => mergedItems items
  | _ => pure []

def mergedItems : List Node → Built Pairs
  | [] => pure []
  | .mapping _ entries :: vs => (· ++ ·) <$> mergedItems vs <*> flatPairs entries
  | _ :: vs => mergedItems vs

end

/-- The value of a document; an empty text holds null. -/
def parse (text : List Char) : Outcome Input := do
  match ← document text with
  | none => .ok .null
  | some v => (value v).toOutcome

end QualityGate.Yaml
