import QualityGate.Shell.System

/-! Programs. They read their arguments, their input and the files
around them, write, change files and end with a code. -/

namespace QualityGate.Shell

/-- What a program is started with. -/
structure Start extends Surroundings where
  name : String
  arguments : List String := []
  input : Bytes := []
  /-- The input goes on like this for ever. -/
  inputIsEndless : Bool := false
  environment : List (String × String) := []

inductive Said where
  | out (b : Bytes)
  | err (b : Bytes)

structure Effect where
  /-- What was written, the last piece first. -/
  said : List Said := []
  code : Nat := 0
  /-- For how long the program waits, in milliseconds. -/
  pause : Nat := 0
  /-- The program would go on for ever, and the output is only the beginning of its own. -/
  isEndless : Bool := false
  readsInput : Bool := false
  workspace : Workspace

abbrev Program := ReaderT Start (StateM Effect)

/-- Bytes that come from somewhere, perhaps over and over again. -/
structure Source where
  bytes : Bytes
  isEndless : Bool := false

/-- As much of a source as is wanted. -/
def Source.first (s : Source) (n : Nat) : Bytes :=
  if s.isEndless && s.bytes.length < n && !s.bytes.isEmpty then
    ((List.replicate (n / s.bytes.length + 1) s.bytes).flatten).take n
  else s.bytes.take n

/-- At most this much of what would never end is passed on. -/
def endlessLength : Nat := 1048576

namespace Program

def write (b : Bytes) : Program Unit := do
  if !b.isEmpty then modify fun e => { e with said := .out b :: e.said }

def print (s : String) : Program Unit := write (bytesOf s)

def printLine (s : String) : Program Unit := write (bytesOf s ++ [10])

def warn (s : String) : Program Unit := modify fun e => { e with said := .err (bytesOf s) :: e.said }

def setCode (code : Nat) : Program Unit := modify fun e => { e with code }

/-- Reports that something is wrong. -/
def complain (detail : String) : Program Unit := do
  warn ((← read).name ++ ": " ++ detail ++ "\n")
  setCode (max 1 (← get).code)

/-- Reports that the arguments make no sense. -/
def refuse (code : Nat) (detail : String) : Program Unit := do
  let name := (← read).name
  warn (name ++ ": " ++ detail ++ "\nTry '" ++ name ++ " --help' for more information.\n")
  setCode code

def surroundings : Program Surroundings := do return ⟨(← read).directory, (← get).workspace⟩

def input : Program Source := do
  modify fun e => { e with readsInput := true }
  let s ← read
  return ⟨s.input, s.inputIsEndless⟩

/-- The content of a file, or the input. -/
def source (file : String) : Program (Except FileFault Source) := do
  if file == "-" || file == "/dev/stdin" then return .ok (← input)
  match (← surroundings).find file with
  | .ok (.file data _) => return .ok ⟨data, false⟩
  | .ok .null => return .ok ⟨[], false⟩
  | .ok .zeros => return .ok ⟨List.replicate endlessLength 0, true⟩
  | .ok (.program _) => return .ok ⟨[], false⟩
  | .ok .directory => return .error .isDirectory
  | .error f => return .error f

/-- The sources that some files name, or the input if there are none; what cannot be read is reported. -/
def sources (files : List String) (fault : String → FileFault → String) : Program (List (String × Source)) := do
  let found ← (if files.isEmpty then ["-"] else files).mapM fun f => do
    match ← source f with
    | .ok s => return some (f, s)
    | .error e =>
      complain (fault f e)
      return none
  return found.filterMap id

def endless : Program Unit := modify fun e => { e with isEndless := true }

/-- All bytes of some sources; there are none if one of them never ends. -/
def wholeOf (ss : List (String × Source)) : Program Bytes := do
  if ss.any fun s => s.2.isEndless then
    endless
    return []
  else return (ss.map fun s => s.2.bytes).flatten

/-- Quotes in the form for messages. -/
def quotedIn (environment : List (String × String)) (s : String) : String :=
  let language := ["LC_ALL", "LC_CTYPE", "LANG"].filterMap fun n => environment.lookup n
  let curly := (language.head?.getD "").toUpper
  if curly.endsWith "UTF-8" || curly.endsWith "UTF8" then spelled "‘" ++ s ++ spelled "’" else "'" ++ s ++ "'"

def quoted (s : String) : Program String := return quotedIn (← read).environment s

/-- Quotes in the form for names of files. -/
def named (s : String) : String := "'" ++ s ++ "'"

def change (w : Workspace) : Program Unit := modify fun e => { e with workspace := w }

end Program

/-! Options. -/

structure Options where
  given : List (Char × String) := []
  operands : List String := []

namespace Options

def has (o : Options) (c : Char) : Bool := o.given.any fun g => g.1 == c

def value? (o : Options) (c : Char) : Option String := (o.given.reverse.find? fun g => g.1 == c).map Prod.snd

/-- Which letters are options, which of them take a value, and which words stand for which letters. -/
structure Grammar where
  flags : String := ""
  valued : String := ""
  words : List (String × Char) := []
  /-- The first operand ends the options. -/
  isStrict : Bool := false
  /-- A number is the value of this option. -/
  number : Option Char := none

def add (o : Options) (c : Char) (value : String) : Options := { o with given := o.given ++ [(c, value)] }

/-- Reads the letters after a dash. What is left over is the value of the last one. -/
def letters (g : Grammar) (o : Options) : List Char → List String → Except String (Options × List String)
  | [], rest => .ok (o, rest)
  | c :: cs, rest =>
    if g.valued.contains c then
      if !cs.isEmpty then .ok (o.add c (String.ofList cs), rest)
      else match rest with
        | v :: rest => .ok (o.add c v, rest)
        | [] => .error ("option requires an argument -- '" ++ String.singleton c ++ "'")
    else if g.flags.contains c then letters g (o.add c "") cs rest
    else .error ("invalid option -- '" ++ String.singleton c ++ "'")

/-- Reads a word after two dashes. -/
def wordOption (g : Grammar) (o : Options) (text : String) (rest : List String) : Except String (Options × List String) :=
  let name := String.ofList (text.toList.takeWhile (· != '='))
  let value := if text.contains '=' then some (String.ofList (text.toList.drop (name.length + 1))) else none
  let exact := g.words.filter fun w => w.1 == name
  let found := if exact.isEmpty then g.words.filter fun w => name.toList.isPrefixOf w.1.toList else exact
  match found with
  | [(full, c)] =>
    if g.valued.contains c then
      match value, rest with
      | some v, _ => .ok (o.add c v, rest)
      | none, v :: rest => .ok (o.add c v, rest)
      | none, [] => .error ("option '--" ++ full ++ "' requires an argument")
    else if value.isSome then .error ("option '--" ++ full ++ "' doesn't allow an argument")
    else .ok (o.add c "", rest)
  | _ => .error ("unrecognized option '--" ++ name ++ "'")

def parse (g : Grammar) : Nat → Options → List String → Except String Options
  | 0, o, _ => .ok o
  | _, o, [] => .ok o
  | fuel + 1, o, a :: rest => do
    match a.toList with
    | ['-'] | [] => operand a rest fuel o
    | ['-', '-'] => .ok { o with operands := o.operands ++ rest }
    | '-' :: '-' :: w =>
      let (o, rest) ← wordOption g o (String.ofList w) rest
      parse g fuel o rest
    | '-' :: cs =>
      match g.number with
      | some c => if cs.all Char.isDigit then parse g fuel (o.add c (String.ofList cs)) rest else do
        let (o, rest) ← letters g o cs rest
        parse g fuel o rest
      | none =>
        let (o, rest) ← letters g o cs rest
        parse g fuel o rest
    | _ => operand a rest fuel o
where
  operand (a : String) (rest : List String) (fuel : Nat) (o : Options) : Except String Options :=
    if g.isStrict then .ok { o with operands := o.operands ++ a :: rest }
    else parse g fuel { o with operands := o.operands ++ [a] } rest

end Options

/-- Reads the options of a program, or reports what is wrong with them. -/
def Program.withOptions (code : Nat) (g : Options.Grammar) (act : Options → Program Unit) : Program Unit := do
  let arguments := (← read).arguments
  match Options.parse g (arguments.length + 1) {} arguments with
  | .ok o => act o
  | .error detail => refuse code detail

/-- Runs a program to its end. -/
def Program.perform (t : Program Unit) (s : Start) : Effect := (t s { workspace := s.workspace }).2

/-! Numbers. -/

def natural? (s : String) : Option Nat :=
  if s != "" && s.toList.all Char.isDigit then some (s.toList.foldl (fun n c => n * 10 + (c.toNat - 48)) 0) else none

def integer? (s : String) : Option Int :=
  match s.toList with
  | '-' :: r => (natural? (String.ofList r)).map fun n => -(n : Int)
  | '+' :: r => (natural? (String.ofList r)).map fun n => (n : Int)
  | _ => (natural? s).map fun n => (n : Int)

def units : List (String × Nat) :=
  [("", 1), ("b", 512), ("kB", 1000), ("K", 1024), ("k", 1024), ("KiB", 1024), ("MB", 1000000), ("M", 1048576),
    ("m", 1048576), ("MiB", 1048576), ("GB", 1000000000), ("G", 1073741824)]

/-- A count, perhaps in units. -/
def size? (s : String) : Option Nat :=
  let digits := s.toList.takeWhile Char.isDigit
  (natural? (String.ofList digits)).bind fun n =>
    (units.lookup (String.ofList (s.toList.drop digits.length))).map (n * ·)

/-- A time with a fraction, in seconds or a larger unit, in milliseconds. -/
def milliseconds? (s : String) : Option Nat :=
  let whole := s.toList.takeWhile Char.isDigit
  let rest := s.toList.drop whole.length
  let fraction := if rest.head? == some '.' then (rest.drop 1).takeWhile Char.isDigit else []
  let unit := if rest.head? == some '.' then rest.drop (fraction.length + 1) else rest
  let seconds? : Option Nat := match unit with
    | [] | ['s'] => some 1
    | ['m'] => some 60
    | ['h'] => some 3600
    | ['d'] => some 86400
    | _ => none
  if whole.isEmpty && fraction.isEmpty then none
  else
    let value (cs : List Char) : Nat := cs.foldl (fun n c => n * 10 + (c.toNat - 48)) 0
    seconds?.map fun n => (value whole * 1000 + value ((fraction ++ ['0', '0', '0']).take 3)) * n

end QualityGate.Shell
