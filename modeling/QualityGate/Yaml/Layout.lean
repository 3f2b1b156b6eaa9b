import QualityGate.Yaml.Scalar
import QualityGate.Yaml.Token

/-! From text to tokens. Indentation opens and closes block collections, and a
key that is not marked as one is found out only at its colon, so its mark is
put in afterwards, where the key began. -/

namespace QualityGate.Yaml

/-- A place where a key may have begun. -/
structure PossibleKey where
  token : Nat
  /-- Nothing but a key can stand there. -/
  required : Bool
  index : Nat
  line : Nat
  column : Nat

/-- A text that has been read up to the cursor. -/
structure Layout where
  cursor : Cursor
  tokens : Array Token := #[]
  /-- How many tokens stand before the first key that may have begun, when a token was last looked for. -/
  settled : Nat := 0
  /-- The column of the innermost block collection, and those around it. -/
  indent : Int := -1
  outer : List Int := []
  /-- The possible key inside each bracket that is open, the innermost first, and outside all. -/
  keys : List (Option PossibleKey) := [none]
  keyAllowed : Bool := true

/-- A required key lasts to its colon: a text where it cannot is malformed. What was read before a
failure is kept. -/
abbrev Layout.Step := ExceptT Failure (StateM Layout)

namespace Layout

def malformed {α : Type} : Step α := throw .yaml

def require (b : Bool) : Step Unit := if b then pure () else malformed

def inFlow (s : Layout) : Bool := s.keys.length > 1

def emit (t : Token) : Step Unit := modify fun s => { s with tokens := s.tokens.push t }

def insert (i : Nat) (t : Token) : Step Unit := modify fun s => { s with tokens := s.tokens.insertIdxIfInBounds i t }

def allowKey (b : Bool) : Step Unit := modify fun s => { s with keyAllowed := b }

def read {α : Type} (scan : Lexing α) : Step α := do
  let s ← get
  match scan s.cursor with
  | .ok (a, cursor) =>
    set { s with cursor }
    return a
  | .error e => throw e

def peekAt (n : Nat) : Step Char := do return (← get).cursor.rest.getD n endOfText

/-- A key begins on the line of its colon and not too far before it. -/
def dropStaleKeys : Step Unit := do
  let s ← get
  let isStale (k : PossibleKey) : Bool := k.line != s.cursor.line || k.index + 1024 < s.cursor.index
  require (!(s.keys.filterMap id).any fun k => isStale k && k.required)
  set { s with keys := s.keys.map (Option.filter fun k => !isStale k) }

def takeKey : Step (Option PossibleKey) := do
  let s ← get
  set { s with keys := none :: s.keys.drop 1 }
  return s.keys.head?.join

/-- What comes next cannot end the key that may have begun. -/
def dropKey : Step Unit := do
  let key ← takeKey
  require (!key.any (·.required))

def saveKey : Step Unit := do
  let s ← get
  if s.keyAllowed then
    dropKey
    let c := s.cursor
    let key : PossibleKey :=
      { token := s.tokens.size, required := !s.inFlow && s.indent == c.column
        index := c.index, line := c.line, column := c.column }
    modify fun s => { s with keys := some key :: s.keys.drop 1 }

/-- Closes the block collections that are indented by more than `column`. -/
def closeBlocks (column : Int) : Step Unit := do
  let s ← get
  if !s.inFlow then
    let levels := s.indent :: s.outer
    let closed := levels.takeWhile (· > column)
    let left := levels.drop closed.length
    set { s with
      tokens := s.tokens ++ (closed.map fun _ => Token.blockEnd).toArray
      indent := left.headD (-1), outer := left.drop 1 }

/-- Whether a block collection begins at a column: it does if it is indented by more than the last. -/
def opensBlock (column : Nat) : Step Bool := do
  let s ← get
  if s.indent < column then
    set { s with indent := (column : Int), outer := s.indent :: s.outer }
    return true
  else return false

/-- A mark that stands by itself in a block: it needs a place where a key may begin. -/
def blockMark (opened : Token) : Step Unit := do
  let s ← get
  if !s.inFlow then
    require s.keyAllowed
    if (← opensBlock s.cursor.column) then emit opened

def skipToToken : Nat → Step Unit
  | 0 => pure ()
  | fuel + 1 => do
    read Lexing.spaces
    if (← peekAt 0) == '#' then discard (read Lexing.restOfLine)
    match ← read Lexing.lineBreak with
    | [] => pure ()
    | _ => do
      if !(← get).inFlow then allowKey true
      skipToToken fuel

def endBlocks : Step Unit := do
  closeBlocks (-1)
  dropKey
  allowKey false

def mark (t : Token) (width : Nat) : Step Unit := do
  read (Lexing.skip width)
  emit t

def flowOpen (t : Token) : Step Unit := do
  saveKey
  modify fun s => { s with keys := none :: s.keys }
  allowKey true
  mark t 1

def flowClose (t : Token) : Step Unit := do
  require (← get).inFlow
  dropKey
  modify fun s => { s with keys := s.keys.drop 1 }
  allowKey false
  mark t 1

def flowSeparator : Step Unit := do
  allowKey true
  dropKey
  mark .separator 1

def itemMark : Step Unit := do
  blockMark .blockSequence
  allowKey true
  dropKey
  mark .item 1

def keyMark : Step Unit := do
  blockMark .blockMapping
  allowKey (!(← get).inFlow)
  dropKey
  mark .key 1

/-- At a colon the key that may have begun turns out to be one. -/
def valueMark : Step Unit := do
  match ← takeKey with
  | some k =>
    insert k.token .key
    if !(← get).inFlow then
      if (← opensBlock k.column) then insert k.token .blockMapping
    allowKey false
  | none =>
    blockMark .blockMapping
    allowKey (!(← get).inFlow)
  mark .value 1

/-- A token that may be a key. -/
def node (scan : Lexing Token) : Step Unit := do
  saveKey
  allowKey false
  emit (← read scan)

def plain : Step Unit := do
  saveKey
  let s ← get
  let (text, atLineEnd) ← read (plainScalar s.inFlow s.indent)
  allowKey atLineEnd
  emit (.scalar (String.ofList text) true)

def block (folding : Bool) : Step Unit := do
  allowKey true
  dropKey
  let text ← read (blockScalar folding (← get).indent)
  emit (.scalar (String.ofList text) false)

/-- Whether a plain scalar may begin with a character. -/
def beginsPlain (inFlow : Bool) (c next : Char) : Bool :=
  !(endsWord c || isFlowMark c || "-?:#&*!|>'\"%@".toList.contains c || c == '\x60') ||
    (!endsWord next && (c == '-' || (!inFlow && (c == '?' || c == ':'))))

def marker (cs : List Char) : Option Token :=
  if cs == ['-', '-', '-'] then some .documentStart
  else if cs == ['.', '.', '.'] then some .documentEnd
  else none

/-- The token that begins at the cursor. -/
def token : Step Unit := do
  let s ← get
  let inFlow := s.inFlow
  let c ← peekAt 0
  let next ← peekAt 1
  let alone := inFlow || endsWord next
  let markerHere :=
    if s.cursor.column == 0 && endsWord (← peekAt 3) then marker (s.cursor.rest.take 3) else none
  if c == '%' && s.cursor.column == 0 then
    endBlocks
    emit (← read directive)
  else if let some t := markerHere then
    endBlocks
    mark t 3
  else if c == '[' then flowOpen .sequenceOpen
  else if c == '\x7b' then flowOpen .mappingOpen
  else if c == ']' then flowClose .sequenceClose
  else if c == '\x7d' then flowClose .mappingClose
  else if c == ',' then flowSeparator
  else if c == '-' && endsWord next then itemMark
  else if c == '?' && alone then keyMark
  else if c == ':' && alone then valueMark
  else if c == '*' then node (Token.alias <$> anchorName)
  else if c == '&' then node (Token.anchor <$> anchorName)
  else if c == '!' then node tagToken
  else if c == '|' && !inFlow then block false
  else if c == '>' && !inFlow then block true
  else if c == '\'' then node (quotedToken false)
  else if c == '"' then node (quotedToken true)
  else do
    require (beginsPlain inFlow c next)
    plain
where
  quotedToken (double : Bool) : Lexing Token := do
    let before := (← get).illFormed
    let text := String.ofList (← quotedScalar double)
    return if (← get).illFormed == before then .scalar text false else .illFormed text

/-- No mark can be put in before the tokens that stand before every key that may have begun. -/
def settle : Step Unit := do
  dropStaleKeys
  modify fun s => { s with
    settled := (s.keys.filterMap id).foldl (fun n k => min n k.token) s.tokens.size }

def tokensFrom : Nat → Step Unit
  | 0 => malformed
  | fuel + 1 => do
    settle
    skipToToken ((← get).cursor.rest.length + 1)
    dropStaleKeys
    closeBlocks (← get).cursor.column
    if (← get).cursor.rest.isEmpty then endBlocks
    else do
      token
      tokensFrom fuel

end Layout

def dropOrderMark : List Char → List Char
  | '\ufeff' :: r => r
  | cs => cs

/-- The tokens of a text, and what is wrong with it. Of a malformed text they are the tokens that were
settled before the malformed one. -/
def tokens (text : List Char) : List Token × Option Failure :=
  if text.all isAdmitted then
    let start : Layout := { cursor := { rest := dropOrderMark text } }
    match (Layout.tokensFrom (text.length + 1)).run start with
    | (.ok _, s) => (s.tokens.toList, none)
    | (.error e, s) => (s.tokens.toList.take s.settled, some e)
  else ([], some .yaml)

end QualityGate.Yaml
