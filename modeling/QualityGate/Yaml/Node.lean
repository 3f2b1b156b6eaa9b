import QualityGate.Yaml.Layout

/-! The tree of a document: its tags are resolved as far as the document says
them, and each alias stands for a copy of what it names. An alias inside of what it names
stays an alias, to be unfolded as far as its data is looked at. -/

namespace QualityGate.Yaml

inductive Node where
  /-- A scalar whose kind is to be told from its text when it has no tag. -/
  | scalar (tag : Option String) (text : String)
  /-- A scalar with codes in it that are no characters. -/
  | illFormed (tag : Option String) (shown : String)
  | sequence (tag : Option String) (items : List Node)
  | mapping (tag : Option String) (entries : List (Node × Node))
  /-- An alias inside of what it names. -/
  | enclosing (name : String)
  deriving Inhabited

def coreTag (name : String) : String := "tag:yaml.org,2002:" ++ name

/-- A document that has been read up to its remaining tokens. -/
structure Reading where
  tokens : List Token
  /-- What is wrong after the last token. -/
  ending : Option Failure := none
  handles : List (String × String) := []
  anchors : List (String × Node) := []

abbrev Parse := StateT Reading Outcome

namespace Parse

/-- The tokens make no tree. -/
def malformed {α : Type} : Parse α := throw .yaml

def require (b : Bool) : Parse Unit := if b then pure () else malformed

def next? : Parse (Option Token) := do
  match (← get).tokens.head?, (← get).ending with
  | none, some e => throw e
  | t, _ => return t

def skip : Parse Unit := modify fun s => { s with tokens := s.tokens.drop 1 }

/-- Reads a token if it is next. -/
def mark (t : Token) : Parse Bool := do
  if (← next?) == some t then
    skip
    return true
  else return false

def bound : Parse Nat := do return 4 * ((← get).tokens.length + 1)

/-- The full tag for a handle and the rest of a tag. -/
def fullTag (handle : Option String) (rest : String) : Parse String := do
  match handle with
  | none => return rest
  | some h => match (← get).handles.lookup h with
    | some expansion => return expansion ++ rest
    | none => malformed

/-- What is said about a node before the node itself, in either order. -/
structure Properties where
  anchor : Option String := none
  tag : Option String := none

def anchor? : Parse (Option String) := do
  match ← next? with
  | some (.anchor name) =>
    skip
    return some name
  | _ => return none

/-- Both are read before the tag is looked at. -/
def properties : Parse Properties := do
  let before ← anchor?
  match ← next? with
  | some (.tag handle rest) =>
    skip
    let anchor ← if before.isSome then pure before else anchor?
    return { anchor, tag := some (← fullTag handle rest) }
  | _ => return { anchor := before }

def empty : Node := .scalar none ""

/-- A lone exclamation mark is no tag: it only asks for the kind that the text has. -/
def Properties.nodeTag (p : Properties) : Option String := p.tag.filter (· != "!")

def Properties.scalar (p : Properties) (text : String) (plain : Bool) : Node :=
  .scalar (if plain || p.tag.isSome then p.nodeTag else some (coreTag "str")) text

mutual

/-- A node inside brackets, or in a block when `block` is set. Where `indentless` is set, the items of
a sequence may stand as far to the left as the mapping around it. -/
def node (block indentless : Bool) : Nat → Parse Node
  | 0 => malformed
  | fuel + 1 => do
    match ← next? with
    | some (.alias name) =>
      skip
      match (← get).anchors.lookup name with
      | some v => return v
      | none => malformed
    | _ => do
      let p ← properties
      match p.anchor with
      | none => content block indentless p fuel
      | some name => do
        discard next?
        require (((← get).anchors.lookup name).isNone)
        modify fun s => { s with anchors := (name, .enclosing name) :: s.anchors }
        let v ← content block indentless p fuel
        modify fun s => { s with anchors := (name, v) :: s.anchors }
        return v

def content (block indentless : Bool) (p : Properties) : Nat → Parse Node
  | 0 => malformed
  | fuel + 1 => do
    match ← next? with
    | some (.scalar text plain) =>
      skip
      return p.scalar text plain
    | some (.illFormed shown) =>
      skip
      return .illFormed (if p.tag.isSome then p.nodeTag else some (coreTag "str")) shown
    | some .sequenceOpen =>
      skip
      return .sequence p.nodeTag (← flowItems true fuel)
    | some .mappingOpen =>
      skip
      return .mapping p.nodeTag (← flowEntries true fuel)
    | some .blockSequence =>
      require block
      skip
      let items ← blockItems [.item, .blockEnd] fuel
      require (← mark .blockEnd)
      return .sequence p.nodeTag items
    | some .blockMapping =>
      require block
      skip
      return .mapping p.nodeTag (← blockEntries fuel)
    | t =>
      if indentless && t == some .item then
        return .sequence p.nodeTag (← blockItems [.item, .key, .value, .blockEnd] fuel)
      else
        require (p.anchor.isSome || p.tag.isSome)
        return p.scalar "" true

/-- A node, or an empty scalar where one of the tokens `stops` is next. -/
def nodeUnless (stops : List Token) (block indentless : Bool) : Nat → Parse Node
  | 0 => malformed
  | fuel + 1 => do
    if (← next?).any stops.contains then return empty
    else node block indentless fuel

def blockItems (stops : List Token) : Nat → Parse (List Node)
  | 0 => malformed
  | fuel + 1 => do
    if (← mark .item) then
      let v ← nodeUnless stops true false fuel
      return v :: (← blockItems stops fuel)
    else return []

/-- What follows a token, or an empty scalar where that token is not next. -/
def after (t : Token) (stops : List Token) (block : Bool) : Nat → Parse Node
  | 0 => malformed
  | fuel + 1 => do
    if (← mark t) then nodeUnless stops block block fuel else return empty

def blockEntries : Nat → Parse (List (Node × Node))
  | 0 => malformed
  | fuel + 1 => do
    if (← mark .blockEnd) then return []
    else
      require ((← next?) == some .key)
      let stops : List Token := [.key, .value, .blockEnd]
      let k ← after .key stops true fuel
      let v ← after .value stops true fuel
      return (k, v) :: (← blockEntries fuel)

def flowPair (close : Token) : Nat → Parse (Node × Node)
  | 0 => malformed
  | fuel + 1 => do
    let k ← after .key [.value, .separator, close] false fuel
    let v ← after .value [.separator, close] false fuel
    return (k, v)

def flowItems (first : Bool) : Nat → Parse (List Node)
  | 0 => malformed
  | fuel + 1 => do
    if (← mark .sequenceClose) then return []
    else
      if !first then require (← mark .separator)
      match ← next? with
      | some .sequenceClose =>
        skip
        return []
      | some .key =>
        let pair ← flowPair .sequenceClose fuel
        return .mapping none [pair] :: (← flowItems false fuel)
      | _ =>
        let v ← node false false fuel
        return v :: (← flowItems false fuel)

def flowEntries (first : Bool) : Nat → Parse (List (Node × Node))
  | 0 => malformed
  | fuel + 1 => do
    if (← mark .mappingClose) then return []
    else
      if !first then require (← mark .separator)
      match ← next? with
      | some .mappingClose =>
        skip
        return []
      | some .key =>
        let pair ← flowPair .mappingClose fuel
        return pair :: (← flowEntries false fuel)
      | _ =>
        let k ← node false false fuel
        return (k, empty) :: (← flowEntries false fuel)

end

/-! Documents. -/

def directives (version : Bool) (handles : List (String × String)) : Nat → Parse (List (String × String))
  | 0 => malformed
  | fuel + 1 => do
    match ← next? with
    | some (.versionDirective major) =>
      require (!version && major == 1)
      skip
      directives true handles fuel
    | some (.tagDirective handle expansion) =>
      require ((handles.lookup handle).isNone)
      skip
      directives version ((handle, expansion) :: handles) fuel
    | some .otherDirective =>
      skip
      directives version handles fuel
    | _ => return handles

/-- The handles that every document knows unless it says otherwise. -/
def standardHandles : List (String × String) := [("!", "!"), ("!!", coreTag "")]

def isDirective : Token → Bool
  | .versionDirective _ | .tagDirective .. | .otherDirective => true
  | _ => false

def skipMarks (t : Token) : Parse Unit := modify fun s => { s with tokens := s.tokens.dropWhile (· == t) }

/-- A document that is opened by a marker or by directives. -/
def explicitDocument : Parse Node := do
  let handles ← directives false [] (← bound)
  modify fun s => { s with handles := handles ++ standardHandles }
  require (← mark .documentStart)
  match ← next? with
  | none | some .documentStart | some .documentEnd => return empty
  | some t => if isDirective t then return empty else node true false (← bound)

/-- The only document of a text, or nothing when the text holds none. -/
def document : Parse (Option Node) := do
  match ← next? with
  | none => return none
  | some t =>
    let v ← if isDirective t || t == .documentStart then explicitDocument
      else do
        modify fun s => { s with handles := standardHandles }
        node true false (← bound)
    skipMarks .documentEnd
    require ((← next?).isNone)
    return some v

end Parse

/-- Replaces aliases by what they name, down to a depth. -/
def Node.unfold (anchors : List (String × Node)) : Nat → Node → Node
  | depth + 1, .enclosing name => match anchors.lookup name with
    | some v => v.unfold anchors depth
    | none => .enclosing name
  | depth + 1, .sequence tag items => .sequence tag (items.map (Node.unfold anchors depth))
  | depth + 1, .mapping tag entries =>
    .mapping tag (entries.map fun e => (e.1.unfold anchors depth, e.2.unfold anchors depth))
  | _, v => v

/-- Data is looked at down to this depth. -/
def unfoldedDepth : Nat := 6

/-- The document of a text, if it holds one. -/
def document (text : List Char) : Outcome (Option Node) := do
  let (tokens, ending) := tokens text
  let (v, s) ← Parse.document.run { tokens, ending }
  .ok (v.map (Node.unfold s.anchors unfoldedDepth))

end QualityGate.Yaml
