import QualityGate.Shell.Script

/-! Reading words: quotes, parameters, and the scripts and expressions inside of
them. A backslash at the end of a line joins the next line to it, except in
single quotes. -/

namespace QualityGate.Shell

structure Misread where
  line : Nat
  detail : String

inductive Token where
  | endOfText
  | newline
  | sign (s : String)
  | keyword (s : String)
  /-- A word with quotes in it is no keyword. -/
  | word (w : Word) (quoted : Bool)
  | redirect (descriptor : Nat) (sign : String)

/-- A here-document whose text is still to come. -/
structure Pending where
  number : Nat
  ending : List Char
  dropsTabs : Bool
  verbatim : Bool

structure Reading where
  rest : List Char
  line : Nat := 1
  token : Token := .newline
  /-- The token is read again. -/
  isPushed : Bool := false
  pending : List Pending := []
  /-- The texts of here-documents by their numbers. -/
  texts : List (Nat × Word) := []
  textCount : Nat := 0

abbrev Reader := StateT Reading (Except Misread)

namespace Reader

def fail {α : Type} (detail : String) : Reader α := do throw ⟨(← get).line, detail⟩

/-- Passes over ends of lines that a backslash hides. -/
def joinLines : Nat → List Char → Nat × List Char
  | line, '\\' :: '\n' :: r => joinLines (line + 1) r
  | line, cs => (line, cs)

def join : Reader Unit := modify fun r =>
  let (line, rest) := joinLines r.line r.rest
  { r with line, rest }

def peek : Reader (Option Char) := do
  join
  return (← get).rest.head?

def skip : Reader Unit := modify fun r => match r.rest with
  | '\n' :: rest => { r with rest, line := r.line + 1 }
  | _ :: rest => { r with rest }
  | [] => r

/-- Passes over a character if it is next. -/
def mark (c : Char) : Reader Bool := do
  if (← peek) == some c then
    skip
    return true
  else return false

def takeWhile (p : Char → Bool) : Nat → List Char → Reader (List Char)
  | 0, acc => return acc.reverse
  | fuel + 1, acc => do
    match ← peek with
    | some c =>
      if p c then
        skip
        takeWhile p fuel (c :: acc)
      else return acc.reverse
    | none => return acc.reverse

def span (p : Char → Bool) : Reader (List Char) := do takeWhile p (← get).rest.length []

/-! Parameters. -/

def isSpecialName (c : Char) : Bool := c.isDigit || "?$#@*!-".toList.contains c

/-- How the brace after a dollar sign begins: the parameter, its use, and whether the brace is closed
already. -/
structure Opening where
  name : String
  use : Use
  nullCounts : Bool := false
  isClosed : Bool := false

def Opening.bad : Opening := ⟨"", .unknown, false, false⟩

def useOfSign? : Char → Option Use
  | '-' => some .orDefault
  | '+' => some .ifSet
  | '?' => some .orFail
  | '=' => some .orAssign
  | _ => none

/-- What follows the name of a parameter in braces. -/
def openingUse (name : String) : Reader Opening := do
  match ← peek with
  | none => return { Opening.bad with name }
  | some '\x7d' =>
    skip
    return ⟨name, .plain, false, true⟩
  | some c =>
    skip
    if c == '%' || c == '#' then
      return ⟨name, .without (c == '%') (← mark c), false, false⟩
    else if c == ':' then
      let next ← peek
      skip
      return ⟨name, (next.bind useOfSign?).getD .unknown, true, false⟩
    else return ⟨name, (useOfSign? c).getD .unknown, false, false⟩

/-- A name or number, or a sign that is a name. -/
def parameterName? : Reader (Option String) := do
  match ← peek with
  | some c =>
    if isNameStart c then return some (String.ofList (← span isNameChar))
    else if c.isDigit then return some (String.ofList (← span Char.isDigit))
    else if isSpecialName c then
      skip
      return some (String.singleton c)
    else return none
  | none => return none

/-- A sharp sign asks for a length if a parameter and the closing brace follow it; else it is the
parameter. -/
def opening : Reader Opening := do
  if !(← mark '#') then
    match ← parameterName? with
    | some name => openingUse name
    | none => return .bad
  else
    let before ← get
    let named := (← peek).any isNameChar
    match ← parameterName? with
    | some name =>
      if (← peek) == some '\x7d' then return ⟨name, .length, false, false⟩
      else if named then return .bad
      else
        set before
        openingUse "#"
    | none => openingUse "#"

/-! Pieces. -/

/-- Where pieces stand, which decides what is special among them and where they end. -/
inductive Region where
  /-- Up to a blank or an operator. -/
  | word
  | brace
  | quotes (inBrace : Bool)
  | quotedBrace
  /-- Up to two closing brackets, so many others being open. -/
  | arithmetic (opened : Nat)
  /-- Up to the end of the text. -/
  | hereText
  /-- The word that ends a here-document. -/
  | ending
  deriving DecidableEq

namespace Region

def isQuoted : Region → Bool
  | word | brace | ending => false
  | _ => true

def isPlain : Region → Bool
  | ending => true
  | _ => false

/-- The characters that a backslash can quote. -/
def escapes (r : Region) (c : Char) : Bool :=
  c == '\\' || c == '\x60' || c == '$' ||
    match r with
    | quotes inBrace => c == '"' || (c == '\x7d' && inBrace)
    | quotedBrace => c == '"' || c == '\x7d'
    | arithmetic _ => c == '"'
    | hereText => false
    | word | brace | ending => true

end Region

def endsWord (c : Char) : Bool := " \t\n;&|<>()".toList.contains c

/-- The text up to a backquote. In it a backslash quotes a few characters only. -/
def backquoted (quoted : Bool) : Nat → List Char → Reader (List Char)
  | 0, _ => fail "Syntax error: EOF in backquote substitution"
  | fuel + 1, acc => do
    match ← peek with
    | none => fail "Syntax error: EOF in backquote substitution"
    | some '\x60' =>
      skip
      return acc.reverse
    | some '\\' =>
      skip
      match (← get).rest with
      | c :: _ =>
        skip
        if c == '\\' || c == '\x60' || c == '$' || (quoted && c == '"') then backquoted quoted fuel (c :: acc)
        else backquoted quoted fuel (c :: '\\' :: acc)
      | [] => fail "Syntax error: EOF in backquote substitution"
    | some c =>
      skip
      backquoted quoted fuel (c :: acc)

/-- Reads what is inside of a word from a place of its own, and goes on where that ends. -/
def nested {α : Type} (inner : Reader α) : Reader α := do
  let before ← get
  set { before with pending := [], isPushed := false }
  let a ← inner
  modify fun r => { r with token := before.token, isPushed := before.isPushed, pending := before.pending }
  return a

/-- Reads another text in between. -/
def within {α : Type} (text : List Char) (inner : Reader α) : Reader α := do
  let before ← get
  set { before with rest := text, line := 1 }
  let a ← inner
  modify fun r => { r with rest := before.rest, line := before.line }
  return a

/-- Everything in double quotes; all parameters alone in them are as many fields as there are
parameters, perhaps none. -/
def quotedPieces : List Piece → List Piece
  | [.parameter "@" .plain n w q] => [.parameter "@" .plain n w q]
  | ps => .mark :: ps ++ [.mark]

mutual

/-- The pieces of a region, given how the script in an output is read up to its end. -/
def pieces (script : Bool → Reader (Option Script)) (region : Region) : Nat → List Piece → Reader (List Piece)
  | 0, acc => return acc.reverse
  | fuel + 1, acc => do
    let quoted := region.isQuoted
    let unfinished : Reader (List Piece) := match region with
      | .word | .hereText | .ending => return acc.reverse
      | .brace => fail "Syntax error: Missing '\x7d'"
      | .arithmetic _ => fail "Syntax error: Missing '))'"
      | .quotes _ | .quotedBrace => fail "Syntax error: Unterminated quoted string"
    let go (ps : List Piece) : Reader (List Piece) := pieces script region fuel (ps.reverse ++ acc)
    match ← peek with
    | none => unfinished
    | some c =>
      if !quoted && region != .brace && endsWord c then return acc.reverse
      skip
      match c with
      | '\\' =>
        match (← get).rest with
        | [] => go [.char '\\' true]
        | d :: _ =>
          skip
          go (if region.escapes d then [.char d true] else [.char '\\' true, .char d true])
      | '\'' =>
        if quoted then go [.char c true]
        else
          let inner := (← get).rest.takeWhile (· != '\'')
          modify fun r => { r with rest := r.rest.drop inner.length, line := r.line + inner.count '\n' }
          if (← get).rest.isEmpty then fail "Syntax error: Unterminated quoted string"
          skip
          go (.mark :: inner.map (Piece.char · true) ++ [.mark])
      | '"' =>
        match region with
        | .quotes _ => return acc.reverse
        | .hereText | .arithmetic _ => go [.char c true]
        | _ => go (quotedPieces (← pieces script (.quotes (region == .quotedBrace)) fuel []))
      | '$' => if region.isPlain then go [.char c false] else go [← dollar script region fuel]
      | '\x60' =>
        if region.isPlain then go [.char c false]
        else
          let text ← backquoted quoted fuel []
          go [.output (← nested (within text (script false))) quoted]
      | '\x7d' =>
        match region with
        | .brace | .quotedBrace => return acc.reverse
        | _ => go [.char c quoted]
      | '(' =>
        match region with
        | .arithmetic n => pieces script (.arithmetic (n + 1)) fuel (.char c true :: acc)
        | _ => go [.char c quoted]
      | ')' =>
        match region with
        | .arithmetic (n + 1) => pieces script (.arithmetic n) fuel (.char c true :: acc)
        | .arithmetic 0 => if (← mark ')') then return acc.reverse else go [.char c true]
        | _ => go [.char c quoted]
      | _ => go [.char c quoted]

/-- What follows a dollar sign. -/
def dollar (script : Bool → Reader (Option Script)) (region : Region) : Nat → Reader Piece
  | 0 => return .char '$' region.isQuoted
  | fuel + 1 => do
    let quoted := region.isQuoted
    match ← peek with
    | some '(' =>
      skip
      if (← mark '(') then return .arithmetic (← pieces script (.arithmetic 0) fuel []) quoted
      else return .output (← nested (script true)) quoted
    | some '\x7b' =>
      skip
      let o ← opening
      if o.isClosed then return .parameter o.name o.use o.nullCounts [] quoted
      else
        let inner := match o.use with
          | .without .. => .brace
          | _ => if quoted then .quotedBrace else .brace
        return .parameter o.name o.use o.nullCounts (← pieces script inner fuel []) quoted
    | some c =>
      if isNameStart c then return .parameter (String.ofList (← span isNameChar)) .plain false [] quoted
      else if isSpecialName c then
        skip
        return .parameter (String.singleton c) .plain false [] quoted
      else return .char '$' quoted
    | none => return .char '$' quoted

end

/-- A word, and whether something in it is quoted. -/
def word (script : Bool → Reader (Option Script)) (region : Region) : Reader (Word × Bool) := do
  let ps ← pieces script region ((← get).rest.length + 2) []
  let quoted := ps.any fun p => match p with
    | .char _ quoted => quoted
    | .mark => true
    | .parameter _ _ _ _ quoted => quoted
    | .output _ quoted | .arithmetic _ quoted => quoted
  return (ps, quoted)

/-! Here-documents. -/

/-- The lines up to the ending, which is passed over, and what follows it. Without quotes a backslash
joins lines. -/
def hereLines (p : Pending) : Nat → List Char → List Char → List Char × List Char
  | 0, acc, rest => (acc.reverse, rest)
  | _, acc, [] => (acc.reverse, [])
  | fuel + 1, acc, rest =>
    let rest := if p.dropsTabs then rest.dropWhile (· == '\t') else rest
    let (line, after) := oneLine rest.length [] rest
    if line.reverse == p.ending then (acc.reverse, after.drop 1)
    else hereLines p fuel (after.take 1 ++ line ++ acc) (after.drop 1)
where
  /-- The characters of one line, the last first. -/
  oneLine : Nat → List Char → List Char → List Char × List Char
    | 0, line, rest => (line, rest)
    | fuel + 1, line, rest =>
      match rest with
      | '\\' :: '\n' :: r => if p.verbatim then ('\\' :: line, '\n' :: r) else oneLine fuel line r
      | '\\' :: c :: r => if p.verbatim then oneLine fuel ('\\' :: line) (c :: r) else oneLine fuel (c :: '\\' :: line) r
      | '\n' :: r => (line, '\n' :: r)
      | c :: r => oneLine fuel (c :: line) r
      | [] => (line, [])

/-- Reads the texts of the here-documents that are due. -/
def hereTexts (script : Bool → Reader (Option Script)) : Reader Unit := do
  let due := (← get).pending
  modify fun r => { r with pending := [] }
  due.forM fun p => do
    let before ← get
    let (text, rest) := hereLines p (before.rest.length + 1) [] before.rest
    let passed := (before.rest.take (before.rest.length - rest.length)).count '\n'
    let w ←
      if p.verbatim then pure (text.map (Piece.char · true))
      else do
        set { before with rest := text }
        pure (← nested (word script .hereText)).1
    modify fun r => { r with rest, line := before.line + passed, texts := (p.number, w) :: r.texts }

end Reader

end QualityGate.Shell
