import QualityGate.Text.Lines

/-! The words of a command line. Options may stand between the arguments, up to
a pair of dashes that stands alone. Words that fit no option make the line
unusable. -/

namespace QualityGate.Command

/-- An option that is known by several spellings. -/
structure Opt where
  name : String
  spellings : List String
  takesValue : Bool := true

/-- Options in the order in which they were given, a switch with an empty value, and the arguments. -/
structure Given where
  options : List (String × String) := []
  arguments : List String := []
  deriving DecidableEq, Repr

namespace Given

def add (g : Given) (options : List (String × String)) : Given := { g with options := g.options ++ options }

/-- The last one counts. -/
def value? (g : Given) (name : String) : Option String := g.options.reverse.lookup name

def has (g : Given) (name : String) : Bool := (g.value? name).isSome

/-- The last one given of two switches that exclude each other. -/
def either? (g : Given) (on off : String) : Option Bool :=
  (g.options.reverse.find? fun o => o.1 == on || o.1 == off).map fun o => o.1 == on

end Given

def isOptionWord (w : String) : Bool := w.length > 1 && w.toList.head? == some '-'

def isLong (w : List Char) : Bool := ['-', '-'].isPrefixOf w

def find? (opts : List Opt) (spelling : List Char) : Option Opt :=
  opts.find? fun o => o.spellings.contains (String.ofList spelling)

/-- What a word gives: options that are complete, and perhaps one that takes the next word. -/
structure Read where
  complete : List (String × String)
  pending : Option String := none

/-- Letters after a single dash: switches, up to an option that takes the rest as its value. -/
def readLetters (opts : List Opt) : List Char → Option Read
  | [] => some ⟨[], none⟩
  | c :: r => do
    let o ← find? opts ['-', c]
    if !o.takesValue then
      let rest ← readLetters opts r
      some { rest with complete := (o.name, "") :: rest.complete }
    else if r.isEmpty then some ⟨[], some o.name⟩
    else some ⟨[(o.name, String.ofList r)], none⟩

/-- A long option may have its value after an equals sign. -/
def readLong (o : Opt) (attached : Option (List Char)) : Option Read :=
  match attached, o.takesValue with
  | some v, true => some ⟨[(o.name, String.ofList v)], none⟩
  | some _, false => none
  | none, true => some ⟨[], some o.name⟩
  | none, false => some ⟨[(o.name, "")], none⟩

def readWord (opts : List Opt) (w : List Char) : Option Read :=
  let spelling := w.takeWhile (· != '=')
  let attached := if spelling.length < w.length then some (w.drop (spelling.length + 1)) else none
  if isLong w then (find? opts spelling).bind fun o => readLong o attached
  else readLetters opts (w.drop 1)

def readGiven (opts : List Opt) (g : Given) : List String → Option Given
  | [] => some g
  | w :: rest =>
    if w == "--" then some { g with arguments := g.arguments ++ rest }
    else if !isOptionWord w then readGiven opts { g with arguments := g.arguments ++ [w] } rest
    else
      match readWord opts w.toList with
      | none => none
      | some ⟨complete, none⟩ => readGiven opts (g.add complete) rest
      | some ⟨complete, some name⟩ =>
        match rest with
        | [] => none
        | v :: rest => readGiven opts (g.add (complete ++ [(name, v)])) rest

end QualityGate.Command
