import QualityGate.Text.Lines

/-! The text of a repository's configuration: sections of named values. Reading
keeps where each header and value stands, so that a change leaves the rest of
the text as it is. The text need not be in any encoding: each of its characters
is one byte. -/

namespace QualityGate.Git

def ofBytes (data : ByteArray) : List Char := data.toList.map fun b => Char.ofNat b.toNat

def toBytes (cs : List Char) : ByteArray := ⟨(cs.map fun c => UInt8.ofNat c.toNat).toArray⟩

def bytesOf (s : String) : List Char := ofBytes s.toUTF8

/-- A carriage return with a line feed after it is read as a line feed. -/
def units : List Char → List Char
  | '\r' :: '\n' :: r => '\n' :: units r
  | c :: r => c :: units r
  | [] => []

/-- The number of characters that are read as the first `n` units. -/
def lengthOfUnits (n : Nat) : List Char → Nat
  | '\r' :: '\n' :: r => if n == 0 then 0 else lengthOfUnits (n - 1) r + 2
  | _ :: r => if n == 0 then 0 else lengthOfUnits (n - 1) r + 1
  | [] => 0

/-- Section and name are kept in lower case; the part between them, if any, as it is spelled. -/
structure Key where
  group : List Char
  name : List Char
  deriving DecidableEq, Repr

def isKeyChar (c : Char) : Bool := c.isAlphanum || c == '-'

def isSpace (c : Char) : Bool := c == ' ' || c == '\t' || c == '\n' || c == '\r'

/-- A key's text split at its last dot. -/
def splitKey (s : List Char) : List Char × List Char :=
  let name := (s.reverse.takeWhile (· != '.')).reverse
  (s.take (s.length - name.length - 1), name)

/-- Lower case up to the first dot. -/
def lowerSection (s : List Char) : List Char :=
  (s.takeWhile (· != '.')).map Char.toLower ++ s.dropWhile (· != '.')

/-- A key has a section and a name, which begins with a letter. -/
def Key.ofChars? (s : List Char) : Option Key :=
  let (group, name) := splitKey s
  let subsection := group.dropWhile (· != '.')
  if group.isEmpty || !s.contains '.' || !(name.head?.any Char.isAlpha) || !name.all isKeyChar then none
  else if (group.takeWhile (· != '.')).all isKeyChar && !subsection.contains '\n' then
    some ⟨lowerSection group, name.map Char.toLower⟩
  else none

inductive Mark where
  /-- In a quoted header the part in quotes is kept as it is spelled. -/
  | header (group : List Char) (quoted : Bool)
  /-- A name that stands alone has no value. -/
  | entry (name : List Char) (value : Option (List Char))

/-- A mark and the indexes of its first character and of the one after it. -/
structure Marked where
  mark : Mark
  start : Nat
  stop : Nat

/-- A value read so far: its characters in reverse, and the blanks after them. -/
structure Value where
  chars : List Char := []
  blanks : List Char := []

def Value.push (v : Value) (c : Char) : Value := ⟨c :: (v.blanks ++ v.chars), []⟩

/-- Blanks of all kinds inside of a value count as spaces. -/
def Value.blank (v : Value) : Value :=
  if v.chars.isEmpty then v else { v with blanks := ' ' :: v.blanks }

def escaped? : Char → Option Char
  | 't' => some '\t'
  | 'b' => some '\x08'
  | 'n' => some '\n'
  | '\\' => some '\\'
  | '"' => some '"'
  | _ => none

/-- Reads a value up to the end of its line, which is counted with it; a line end after a backslash
does not end it. -/
def valueFrom (quoted comment : Bool) (v : Value) (n : Nat) : List Char → Option (List Char × Nat)
  | [] => if quoted then none else some (v.chars.reverse, n)
  | '\n' :: _ => if quoted then none else some (v.chars.reverse, n + 1)
  | c :: r =>
    if comment then valueFrom quoted comment v (n + 1) r
    else if isSpace c && !quoted then valueFrom quoted comment v.blank (n + 1) r
    else if (c == ';' || c == '#') && !quoted then valueFrom quoted true v (n + 1) r
    else
      let begun : Value := { v with chars := v.blanks ++ v.chars, blanks := [] }
      if c == '"' then valueFrom (!quoted) comment begun (n + 1) r
      else if c == '\\' then
        match r with
        | [] => if quoted then none else some (begun.chars.reverse, n + 1)
        | '\n' :: r => valueFrom quoted comment begun (n + 2) r
        | c :: r => match escaped? c with
          | some e => valueFrom quoted comment (begun.push e) (n + 2) r
          | none => none
      else valueFrom quoted comment (v.push c) (n + 1) r

/-- The text in quotes of a header, and how many characters it takes with its closing quote. -/
def quotedName (n : Nat) (acc : List Char) : List Char → Option (List Char × Nat)
  | [] | '\n' :: _ => none
  | '"' :: _ => some (acc.reverse, n + 1)
  | '\\' :: c :: r => if c == '\n' then none else quotedName (n + 2) (c :: acc) r
  | c :: r => quotedName (n + 1) (c :: acc) r

/-- A header after its opening bracket, and the number of characters up to and with its closing
bracket. -/
def header? (s : List Char) : Option (Mark × Nat) :=
  let plain := s.takeWhile fun c => isKeyChar c || c == '.'
  let lower := plain.map Char.toLower
  let r := s.drop plain.length
  match r with
  | ']' :: _ => if plain.isEmpty then none else some (.header lower false, plain.length + 1)
  | c :: _ =>
    if !isSpace c || c == '\n' then none
    else
      let blanks := r.takeWhile fun c => isSpace c && c != '\n'
      match r.drop blanks.length with
      | '"' :: r =>
        match quotedName 0 [] r with
        | some (name, n) =>
          if (r.drop n).head? == some ']' then
            some (.header (lower ++ '.' :: name) true, plain.length + blanks.length + n + 2)
          else none
        | none => none
      | _ => none
  | [] => none

/-- An entry from its first letter on, and the number of characters up to and with the end of its
line. A value ends before a NUL in it. -/
def entry? (s : List Char) : Option (Mark × Nat) :=
  let name := s.takeWhile isKeyChar
  let lower := name.map Char.toLower
  let r := s.drop name.length
  let blanks := r.takeWhile fun c => c == ' ' || c == '\t'
  let before := name.length + blanks.length
  match r.drop blanks.length with
  | [] => some (.entry lower none, before)
  | '\n' :: _ => some (.entry lower none, before + 1)
  | '=' :: r =>
    (valueFrom false false {} 0 r).map fun (v, n) => (.entry lower (some (v.takeWhile (· != '\x00'))), before + 1 + n)
  | _ => none

/-- The marks of some units, in order; none where they are no configuration. The first argument
bounds the number of steps. -/
def marksFrom : Nat → Nat → List Char → Option (List Marked)
  | 0, _, _ => none
  | _ + 1, _, [] => some []
  | fuel + 1, index, c :: r =>
    if isSpace c then marksFrom fuel (index + 1) r
    else if c == '#' || c == ';' then
      let comment := r.takeWhile (· != '\n')
      marksFrom fuel (index + 1 + comment.length) (r.drop comment.length)
    else if c == '[' then
      match header? r with
      | some (mark, n) => (marksFrom fuel (index + 1 + n) (r.drop n)).map (⟨mark, index, index + 1 + n⟩ :: ·)
      | none => none
    else if c.isAlpha then
      match entry? (c :: r) with
      | some (mark, n) => (marksFrom fuel (index + n) (r.drop (n - 1))).map (⟨mark, index, index + n⟩ :: ·)
      | none => none
    else none

/-- The bytes of a byte order mark, with which a text may begin. -/
def orderMark : List Char := ['\xef', '\xbb', '\xbf']

/-- The marks of a text, their places counted in its characters. What follows a mark begins at a line
feed, so a carriage return before that belongs to the mark. -/
def marks (text : List Char) : Option (List Marked) := do
  let cs := units text
  let skipped := if orderMark.isPrefixOf cs then orderMark.length else 0
  let found ← marksFrom (cs.length + 1) skipped (cs.drop skipped)
  let place (n : Nat) : Nat := lengthOfUnits n text
  some (found.map fun m =>
    let stop := place m.stop
    { m with start := place m.start, stop := if (text.drop stop).take 2 == ['\r', '\n'] then stop + 1 else stop })

/-- A mark with the header that it stands under. -/
structure Placed where
  group : List Char
  quoted : Bool
  marked : Marked

def inSections (group : List Char) (quoted : Bool) : List Marked → List Placed
  | [] => []
  | m :: ms =>
    match m.mark with
    | .header group quoted => ⟨group, quoted, m⟩ :: inSections group quoted ms
    | .entry .. => ⟨group, quoted, m⟩ :: inSections group quoted ms

/-- The keys of a text with their values, in order. -/
abbrev Settings := List (Key × Option (List Char))

def setting? (p : Placed) : Option (Key × Option (List Char)) :=
  match p.marked.mark with
  | .entry name value => some (⟨p.group, name⟩, value)
  | .header .. => none

def settings? (text : List Char) : Option Settings :=
  (marks text).map fun ms => (inSections [] false ms).filterMap setting?

def Placed.isEntryOf (p : Placed) (k : Key) : Bool := (setting? p).any (·.1 == k)

/-- Whether a new entry of a key may stand under the header; headers without quotes match in any case. -/
def Placed.isUnder (p : Placed) (k : Key) : Bool :=
  if p.quoted then p.group == k.group else p.group == k.group.map Char.toLower

/-- The last value of a key; that of a name that stands alone is empty. -/
def Settings.value? (s : Settings) (k : Key) : Option (List Char) :=
  (s.filter (·.1 == k)).getLast?.map fun e => e.2.getD []

def escapeInName (c : Char) : List Char := if c == '"' || c == '\\' then ['\\', c] else [c]

/-- The line that opens the section of a key. -/
def headerLine (key : List Char) : List Char :=
  let group := (splitKey key).1
  let first := group.takeWhile (· != '.')
  match group.drop first.length with
  | _ :: subsection => '[' :: first ++ [' ', '"'] ++ subsection.flatMap escapeInName ++ ['"', ']', '\n']
  | [] => '[' :: first ++ [']', '\n']

def escapeInValue (c : Char) : List Char :=
  match c with
  | '\n' => ['\\', 'n']
  | '\t' => ['\\', 't']
  | c => escapeInName c

/-- A value is quoted where its blanks or comment characters would else be lost. -/
def needsQuotes (value : List Char) : Bool :=
  value.head? == some ' ' || value.getLast? == some ' ' || value.any fun c => c == ';' || c == '#' || c == '\r'

def entryLine (key value : List Char) : List Char :=
  let quote := if needsQuotes value then ['"'] else []
  '\t' :: (splitKey key).2 ++ " = ".toList ++ quote ++ value.flatMap escapeInValue ++ quote ++ ['\n']

/-- The text before a new line, ended by a line feed. -/
def ended (before : List Char) : List Char :=
  match before.getLast? with
  | some '\n' | none => before
  | some _ => before ++ ['\n']

def dropBlankTail (s : List Char) : List Char := (s.reverse.dropWhile fun c => isSpace c && c != '\n').reverse

/-- The index after a mark and a line end that follows it. -/
def afterLine (text : List Char) (stop : Nat) : Nat :=
  if (text.take stop).getLast? != some '\n' && (text.drop stop).head? == some '\n' then stop + 1 else stop

/-- The text in which the key has the value: its one entry is replaced, or a new one put after the
last entry of its section, which is opened at the end where it is missing. None where the text is
no configuration or the key has several values. -/
def withValue? (text key value : List Char) : Option (List Char) := do
  let k ← Key.ofChars? key
  let all := inSections [] false (← marks text)
  let line := entryLine key value
  match all.filter (·.isEntryOf k), (all.filter (·.isUnder k)).getLast? with
  | [p], _ => some (ended (dropBlankTail (text.take p.marked.start)) ++ line ++ text.drop p.marked.stop)
  | [], some p =>
    let cut := afterLine text p.marked.stop
    some (ended (text.take cut) ++ line ++ text.drop cut)
  | [], none => some (ended text ++ headerLine key ++ line)
  | _, _ => none

end QualityGate.Git
