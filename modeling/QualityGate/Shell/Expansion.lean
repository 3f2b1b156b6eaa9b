import QualityGate.Shell.State

/-! Filling in words: parameters, outputs and expressions become text, which is
then split into fields, and fields with wildcards become the names of files. -/

namespace QualityGate.Shell

/-- What a word is filled in with. -/
inductive Glyph where
  /-- Where it `splits`, a separator ends a field. -/
  | char (c : Char) (quoted splits : Bool)
  | mark
  /-- Always ends a field. -/
  | boundary

/-- The texts around which filled in text is split. -/
def usualSeparators : String := " \t\n"

def isBlankSeparator (c : Char) : Bool := c == ' ' || c == '\t' || c == '\n' || c == '\x00'

/-- What came before in the splitting of a field. -/
inductive AfterSplit where
  | nothing
  /-- One separator that is no blank still belongs to the blanks. -/
  | blanks
  | separator
  deriving DecidableEq

structure Splitting where
  done : List (List Mark) := []
  current : List Mark := []
  /-- The field is kept even if it is empty. -/
  isPresent : Bool := false
  after : AfterSplit := .nothing

namespace Splitting

def finish (s : Splitting) (after : AfterSplit) : Splitting :=
  { done := s.current.reverse :: s.done, current := [], isPresent := false, after }

def add (separators : List Char) (s : Splitting) : Glyph → Splitting
  | .mark => { s with isPresent := true, after := .nothing }
  | .boundary => s.finish .nothing
  | .char c quoted splits =>
    if splits && (separators.contains c || c == '\x00') then
      let isEmpty := s.current.isEmpty && !s.isPresent
      if isBlankSeparator c then if isEmpty then s else s.finish .blanks
      else if isEmpty && s.after == .blanks then { s with after := .separator }
      else s.finish .separator
    else { s with current := (c, quoted) :: s.current, isPresent := true, after := .nothing }

def fields (separators : List Char) (gs : List Glyph) : List (List Mark) :=
  let s := gs.foldl (add separators) {}
  (if s.isPresent then s.current.reverse :: s.done else s.done).reverse

end Splitting

/-- The characters that were filled in, and whether they are quoted. -/
def marksOf (gs : List Glyph) : List Mark := gs.filterMap fun g => match g with
  | .char c quoted _ => some (c, quoted)
  | _ => none

def textOfGlyphs (gs : List Glyph) : String := String.ofList ((marksOf gs).map Prod.fst)

/-! Names of files. -/

/-- The paths that a pattern stands for, component by component. -/
def pathsFrom (s : Surroundings) (before : String) : List (List Mark) → List String
  | [] => []
  | component :: rest =>
    let literal := String.ofList (component.map Prod.fst)
    if hasWildcard component then
      let showsHidden := component.head?.any fun m => m.1 == '.'
      let names := s.names (if before == "" then "." else before)
      let names := if showsHidden then "." :: ".." :: names else names.filter fun n => !Filing.isHidden n
      let fitting := names.filter fun n => Wildcard.covers (wildcards component) n.toList
      if rest.isEmpty then fitting.map (before ++ ·)
      else (fitting.filter fun n => s.isDirectory (before ++ n)).flatMap fun n => pathsFrom s (before ++ n ++ "/") rest
    else if rest.isEmpty then (if Filing.isThere s (before ++ literal) then [before ++ literal] else [])
    else pathsFrom s (before ++ literal ++ "/") rest

def splitMarks (ms : List Mark) : List (List Mark) :=
  let (current, done) := ms.foldl (fun ((current, done) : List Mark × List (List Mark)) m =>
    if m.1 == '/' then ([], current.reverse :: done) else (m :: current, done)) ([], [])
  (current.reverse :: done).reverse

/-- The files that a field names, in the order of their bytes, or the field as it is. -/
def pathsOf (s : Surroundings) (field : List Mark) : List String :=
  let found := if hasWildcard field then pathsFrom s "" (splitMarks field) else []
  if found.isEmpty then [String.ofList (field.map Prod.fst)] else found.mergeSort fun a b => a ≤ b

namespace Step

/-! Parameters. -/

def separators : Step String := do
  match ← binding? "IFS" with
  | some v => return v.value.getD usualSeparators
  | none => return usualSeparators

/-- The value of a parameter that is one text. -/
def single? (name : String) : Step (Option String) := do
  let s ← session
  match name with
  | "?" => return some (toString s.status)
  | "$" => return some (toString s.process)
  | "#" => return some (toString s.arguments.length)
  | "-" => return some (String.ofList s.options)
  | "!" => return s.lastJob.map toString
  | "0" => return some s.name
  | _ => match natural? name with
    | some n => return s.arguments[n - 1]?
    | none => value? name

def chars (quoted : Bool) (text : String) : List Glyph := text.toList.map fun c => .char c quoted (!quoted)

/-- All arguments of the script, as fields of their own or as one text. -/
def allArguments (name : String) (quoted full : Bool) : Step (List Glyph) := do
  let arguments := (← session).arguments
  let isSet := (← binding? "IFS").isSome
  let join (between : List Glyph) (one : String → List Glyph) : List Glyph :=
    ((arguments.map one).intersperse between).flatten
  if quoted && full && name == "@" then return join [.boundary] fun a => .mark :: chars true a
  else if !quoted && full then return join [.char (if isSet then '\x00' else ' ') false true] (chars false)
  else
    let first := ((← separators).toList.take 1).map fun c => Glyph.char c quoted (!quoted)
    return join first (chars quoted)

/-- What a parameter stands for; an empty value is none where `nullCounts`. -/
def parameter? (name : String) (quoted full nullCounts : Bool) : Step (Option (List Glyph)) := do
  let value ←
    if name == "@" || name == "*" then pure (some (← allArguments name quoted full))
    else pure ((← single? name).map (chars quoted))
  return value.filter fun gs => !nullCounts || gs.any fun g => match g with
    | .mark => false
    | _ => true

def homeOf (user : String) : Step (Option String) := do
  if user == "" then value? "HOME"
  else return if user == "root" then some "/root" else none

/-- A tilde at the beginning of a word, or of a part of one that ends before a colon, is a home. -/
def withHome (inAssignment : Bool) (w : Word) : Step (List Piece) := do
  match w with
  | .char '~' false :: rest =>
    let ends (p : Piece) : Bool := match p with
      | .char c false => c == '/' || (inAssignment && c == ':')
      | _ => false
    let user := rest.takeWhile fun p => !ends p
    match Word.bare? user with
    | some user =>
      match ← homeOf user with
      | some home => return home.toList.map (Piece.char · true) ++ rest.drop user.length
      | none => return w
    | none => return w
  | _ => return w

/-- The parts of an assignment between colons may each begin with a tilde. -/
def withHomes (w : Word) : Step (List Piece) := do
  let isColon (p : Piece) : Bool := p.bare? == some ':'
  let parts ← (w.splitOnP isColon).mapM (withHome true)
  return (parts.intersperse [.char ':' false]).flatten

def notSet {α : Type} (name : String) (detail : String) : Step α := fail (name ++ ": " ++ detail)

/-- Fails where a parameter must be set. -/
def needSet (name : String) : Step Unit := do
  if name != "@" && name != "*" && (← hasOption 'u') then notSet name "parameter not set"

/-- A text made of glyphs, in which a boundary is a null character, and back. -/
def cutGlyphs (atEnd longest quoted : Bool) (pattern : List Mark) (gs : List Glyph) : List Glyph :=
  let cs := gs.filterMap fun g => match g with
    | .char c _ _ => some c
    | .boundary => some '\x00'
    | .mark => none
  (withoutMatch atEnd longest (wildcards pattern) cs).map fun c =>
    if c == '\x00' && quoted then .boundary else .char c quoted (!quoted)

/-- The number that an expression stands for; what it assigns is assigned. -/
def calculate (expression : String) : Step Int := do
  let s ← session
  let value (name : String) : String := ((s.vars.lookup name).bind (·.value)).getD ""
  match Arithmetic.eval value expression.toList with
  | .ok (n, assigned) =>
    assigned.reverse.forM fun (name, n) => setVariable name (toString n)
    return n
  | .error f => fail (f.message expression)

/-- Pieces filled in, given how the output of a script is found. In a word that stands for a parameter
all that is not quoted is split. -/
def glyphs (output : Option Script → Step Bytes) (full inWord : Bool) : Nat → List Piece → Step (List Glyph)
  | 0, _ => return []
  | fuel + 1, ps => do
    let parts ← ps.mapM fun p => do
      match p with
      | .char c quoted => return [.char c quoted (inWord && !quoted)]
      | .mark => return [.mark]
      | .output script quoted =>
        let text := (textOf ((← output script).filter (· != 0))).toList
        return chars quoted (String.ofList (text.reverse.dropWhile (· == '\n')).reverse)
      | .arithmetic expression quoted =>
        let text := textOfGlyphs (← glyphs output false false fuel expression)
        return chars quoted (toString (← calculate text))
      | .parameter name use nullCounts word quoted =>
        let value ← parameter? name quoted full nullCounts
        let instead : Step (List Glyph) := do glyphs output full (!quoted) fuel (← withHome false word)
        match use, value with
        | .unknown, _ => fail "Bad substitution"
        | .plain, some gs | .orDefault, some gs | .orAssign, some gs | .orFail, some gs => return gs
        | .plain, none =>
          needSet name
          return []
        | .orDefault, none | .ifSet, some _ => instead
        | .ifSet, none => return []
        | .orAssign, none =>
          let text := textOfGlyphs (← glyphs output false false fuel (← withHome false word))
          if !isName name then fail (name ++ ": bad variable name")
          setVariable name text
          return chars quoted text
        | .orFail, none =>
          let text := textOfGlyphs (← glyphs output false false fuel (← withHome false word))
          notSet name (if !word.isEmpty then text
            else if nullCounts then "parameter not set or null" else "parameter not set")
        | .length, some gs => return chars quoted (toString (marksOf gs).length)
        | .length, none =>
          needSet name
          return chars quoted "0"
        | .without atEnd longest, value =>
          if value.isNone then needSet name
          let pattern := marksOf (← glyphs output false false fuel (← withHome false word))
          return cutGlyphs atEnd longest quoted pattern (value.getD [])
    return parts.flatten

/-- The fields of a word. -/
def fieldsOf (output : Option Script → Step Bytes) (fuel : Nat) (w : Word) : Step (List String) := do
  let gs ← glyphs output true false fuel (← withHome false w)
  let fields := Splitting.fields (← separators).toList gs
  if ← hasOption 'f' then return fields.map fun f => String.ofList (f.map Prod.fst)
  else
    let s ← surroundings
    return fields.flatMap (pathsOf s)

/-- The text of a word that is not split. -/
def wordText (output : Option Script → Step Bytes) (fuel : Nat) (w : Word) : Step String := do
  return textOfGlyphs (← glyphs output false false fuel (← withHome false w))

/-- The text of the value of an assignment. -/
def valueText (output : Option Script → Step Bytes) (fuel : Nat) (w : Word) : Step String := do
  return textOfGlyphs (← glyphs output false false fuel (← withHomes w))

/-- The pattern that a word spells. -/
def patternOf (output : Option Script → Step Bytes) (fuel : Nat) (w : Word) : Step (List Wildcard) := do
  return wildcards (marksOf (← glyphs output false false fuel (← withHome false w)))

end Step

end QualityGate.Shell
