import QualityGate.Shell.Process

/-! Running files: programs of the system, scripts by the interpreter that they
name, other shells, and the programs that run others. -/

namespace QualityGate.Shell

/-- A program under the name by which it knows itself. -/
structure Call where
  name : String
  arguments : List String := []
  environment : List (String × String) := []

/-- Why a file cannot be run. A file that is found may still not be one to be run. -/
inductive NotRun where
  | missing
  | refused (isFile : Bool)

namespace NotRun

def code : NotRun → Nat
  | missing => 127
  | refused _ => 126

def text : NotRun → String
  | missing => "No such file or directory"
  | refused _ => "Permission denied"

end NotRun

def Node.isRunnable : Node → Bool
  | file _ executable => executable
  | program _ => true
  | _ => false

def Node.isFile : Node → Bool
  | directory => false
  | _ => true

/-- The variables with one of them set, in its old place if it has one. -/
def withBinding (vars : List (String × String)) (name value : String) : List (String × String) :=
  if (vars.lookup name).isSome then vars.map fun v => if v.1 == name then (name, value) else v
  else vars ++ [(name, value)]

/-- The longest first line that names an interpreter. -/
def interpreterLength : Nat := 255

/-- The interpreter that the first line of a file names, and the one argument it may be given there. -/
def interpreter? (data : Bytes) : Option (String × List String) :=
  match (textOf (data.take interpreterLength)).toList with
  | '#' :: '!' :: cs =>
    let isBlank (c : Char) : Bool := c == ' ' || c == '\t'
    let line := ((cs.takeWhile fun c => c != '\n' && c != '\x00').dropWhile isBlank)
    let line := (line.reverse.dropWhile isBlank).reverse
    let name := line.takeWhile fun c => !isBlank c
    let argument := (line.drop name.length).dropWhile isBlank
    if name.isEmpty then none
    else some (String.ofList name, if argument.isEmpty then [] else [String.ofList argument])
  | _ => none

namespace Step

/-- The file that a name stands for, among the directories in which programs are. -/
def runnable (directories : List String) (name : String) : Step (Except NotRun (String × Node)) := do
  let s ← surroundings
  let files := if name.contains '/' then [name]
    else directories.map fun d => if d == "" then name else Filing.inside d name
  let found := files.filterMap fun f => (s.find f).toOption.map fun n => (f, n)
  match found.find? fun x => x.2.isRunnable with
  | some x => return .ok x
  | none => return .error (if found.isEmpty then .missing else .refused (found.any fun x => x.2.isFile))

def usualDirectories : List String := ["/usr/local/sbin", "/usr/local/bin", "/usr/sbin", "/usr/bin", "/sbin", "/bin"]

def directoriesOf (path : String) : List String := (Text.splitAtChar ':' path.toList).map String.ofList

/-- Runs a program of the system to its end, beside what goes on in the background. -/
def perform (run : Runner) (c : Call) (program : Bool → Program Unit) : Step Unit := do
  let s ← session
  let w ← world
  let input ← handle? 0
  let source ← match input with
    | some n => unread n
    | none => pure ⟨[], false⟩
  let isFile := match input.bind (w.channels[·]?) with
    | some (.file ..) => true
    | _ => false
  let e := (program isFile).perform ⟨⟨s.directory, w.workspace⟩, c.name, c.arguments, source.bytes, source.isEndless, c.environment⟩
  modifyWorld fun w => { w with workspace := e.workspace }
  if e.readsInput then
    match input with
    | some n => consume n source.bytes.length
    | none => pure ()
  setStatus e.code
  let isOpen := (← handle? 1).isSome
  e.said.reverse.forM fun
    | .out b => discard (emit 1 b)
    | .err b => discard (emit 2 b)
  if !isOpen && e.said.any fun | .out _ => true | .err _ => false then
    discard (emit 2 (bytesOf (c.name ++ ": write error: Bad file descriptor\n")))
    setStatus 1
  if 0 < e.pause then
    settle run ((← world).clock + e.pause)
    wait e.pause
  if e.isEndless then throw .endless

/-! Other shells. -/

def defaultPath : String := ":".intercalate usualDirectories

/-- The variables of a new shell. Some of them are not taken from outside. -/
def firstVariables (parent : Nat) (environment : List (String × String)) : List (String × Variable) :=
  let own := [("PATH", defaultPath), ("IFS", usualSeparators), ("OPTIND", "1"), ("PS1", "# "), ("PS2", "> "),
    ("PS4", "+ "), ("PPID", toString parent)]
  let given := environment.filter fun v => isName v.1
  let value (name value : String) : String :=
    if ["IFS", "OPTIND", "PPID"].contains name then value else (given.lookup name).getD value
  (own.map fun (name, v) => (name, ⟨some (value name v), (given.lookup name).isSome, false⟩)) ++
    (given.filter fun v => (own.lookup v.1).isNone).map fun (name, v) => (name, ⟨some v, true, false⟩)

/-- Where a shell believes to be: the directory in its variable, if that is the right one. -/
def believedDirectory (w : Workspace) (directory : Path) (environment : List (String × String)) : Path :=
  let actual := (w.resolve directory).toOption.getD directory
  match environment.lookup "PWD" with
  | some s =>
    let p := Path.ofText (unspelled s)
    if p.isAbsolute && (w.resolve p).toOption.any fun q => q.text == actual.text then p else actual
  | none => actual

/-- A shell that another process begins. -/
def newSession (outer : Session) (w : Workspace) (process : Nat) (isFinal : Bool) (c : Call) : Session :=
  let directory := believedDirectory w outer.directory c.environment
  let vars := firstVariables outer.process c.environment
  let here : Variable := ⟨some (spelled directory.text), true, false⟩
  { name := c.name
    process
    isHeld := if isFinal then outer.isHeld else holdsOutput outer
    line := 0
    vars := (vars.filter fun v => v.1 != "PWD") ++ [("PWD", here)]
    traps := outer.traps.filter fun t => t.2 == ""
    directory
    mask := outer.mask
    handles := outer.handles }

/-- Reads options, and says whether the script is among the arguments that follow. -/
def shellOptions : Nat → Bool → List String → Step (Bool × List String)
  | 0, takesText, words => return (takesText, words)
  | _, takesText, [] => return (takesText, [])
  | fuel + 1, takesText, w :: rest => do
    match w.toList with
    | ['-'] | ['-', '-'] => return (takesText, rest)
    | sign :: cs =>
      if (sign == '-' || sign == '+') && !cs.isEmpty then
        let letters := cs.filter fun c => c != 'c' && c != 'l' && c != 'o'
        letters.forM fun c => putOption c (sign == '-')
        let rest ← if cs.contains 'o' then
            match rest with
            | name :: rest =>
              match optionNames.find? fun o => o.2 == name with
              | some (c, _) => do
                putOption c (sign == '-')
                pure rest
              | none => fail ("Illegal option -o " ++ name)
            | [] => pure []
          else pure rest
        shellOptions fuel (takesText || cs.contains 'c') rest
      else return (takesText, w :: rest)
    | [] => return (takesText, w :: rest)

/-- What a shell does from its beginning to its end: the script is in an argument, a file or the input. -/
def interpret (run : Runner) (arguments : List String) : Step Unit := do
  let (takesText, words) ← shellOptions (arguments.length + 1) false arguments
  let begin (words : List String) : Step Unit := do
    let name := (← session).name
    modifySession fun s => { s with name := words.head?.getD name, arguments := words.drop 1 }
  if takesText then
    match words with
    | [] => fail "-c requires an argument"
    | cs :: words =>
      begin words
      text run {} cs.toList
  else
    match if ← hasOption 's' then none else words.head? with
    | none =>
      putOption 's' true
      modifySession fun s => { s with arguments := words }
      match ← handle? 0 with
      | some n =>
        let cs ← unread n
        consume n cs.bytes.length
        text run {} (textOf cs.bytes).toList
      | none => return
    | some file =>
      match (← surroundings).find file with
      | .error f => fail (cannotOpen file f)
      | .ok node =>
        begin words
        match node with
        | .file data _ => text run {} (textOf data).toList
        | _ => return

/-- Runs another shell, in place of this process if nothing else is done by it. -/
def shell (run : Runner) (isFinal : Bool) (c : Call) : Step Unit := do
  let s ← session
  let replaces := isFinal && s.copies == 0
  let process ← if replaces then pure s.process else newProcess
  let inner := newSession s (← world).workspace process isFinal c
  match ← inProcess (fun _ => inner) (ended run (interpret run c.arguments)) with
  | .signalled n => if replaces then throw (.killed s.process n) else report (.signalled n)
  | .exited => return

/-! Programs that run others. -/

def complain (c : Call) (code : Nat) (detail : String) : Step Unit := do
  discard (emit 2 (bytesOf (c.name ++ ": " ++ detail ++ "\n")))
  setStatus code

def refuse (c : Call) (detail : String) : Step Unit :=
  complain c 125 (detail ++ "\nTry '" ++ c.name ++ " --help' for more information.")

def quotedFor (c : Call) (s : String) : String := Program.quotedIn c.environment s

def withOptions (c : Call) (g : Options.Grammar) (act : Options → Step Unit) : Step Unit :=
  match Options.parse { g with isStrict := true } (c.arguments.length + 1) {} c.arguments with
  | .ok o => act o
  | .error detail => refuse c detail

/-- Runs the command in the last words, if there is one. -/
def runRest (start : Call → (NotRun → Step Unit) → Step Unit) (c : Call) (words : List String) : Step Unit :=
  match words with
  | [] => refuse c "missing operand"
  | name :: arguments => start { c with name, arguments } fun f =>
    complain c f.code ("failed to run command " ++ quotedFor c name ++ ": " ++ f.text)

/-- Runs a command among other variables, or lists these. -/
def inEnvironment (start : Call → (NotRun → Step Unit) → Step Unit) (c : Call) : Step Unit :=
  let grammar : Options.Grammar :=
    { flags := "i0v", valued := "uC",
      words := [("ignore-environment", 'i'), ("null", '0'), ("unset", 'u'), ("chdir", 'C'), ("debug", 'v')] }
  withOptions c grammar fun o => do
    let (isNew, words) := if o.operands.head? == some "-" then (true, o.operands.drop 1) else (o.has 'i', o.operands)
    let kept := if isNew then [] else c.environment
    let dropped := (o.given.filter fun g => g.1 == 'u').map Prod.snd
    let kept := kept.filter fun v => !dropped.contains v.1
    let settings := words.takeWhile fun w => w.contains '='
    let environment := settings.foldl (fun e w =>
      let (name, value) := assigned w
      withBinding e name (value.getD "")) kept
    match words.drop settings.length with
    | [] =>
      let ending := if o.has '0' then "\x00" else "\n"
      discard (emit 1 (bytesOf (String.join (environment.map fun (k, v) => k ++ "=" ++ v ++ ending))))
      setStatus 0
    | name :: arguments =>
      let act : Step Unit := start ⟨name, arguments, environment⟩ fun f =>
        complain c f.code (quotedFor c name ++ ": " ++ f.text)
      match o.value? 'C' with
      | none => act
      | some d =>
        let s ← surroundings
        if s.isDirectory d then
          modifySession fun t => { t with directory := s.place d }
          act
          modifySession fun t => { t with directory := s.directory }
        else complain c 125 ("cannot change directory to " ++ Program.named d ++ ": " ++
          match s.find d with
          | .error f => f.text
          | .ok _ => FileFault.notDirectory.text)

/-- Runs a command for a limited time. -/
def forTime (isFinal : Bool) (start : Call → (NotRun → Step Unit) → Step Unit) (c : Call) : Step Unit :=
  let grammar : Options.Grammar :=
    { flags := "vfp", valued := "ks",
      words := [("kill-after", 'k'), ("signal", 's'), ("verbose", 'v'), ("foreground", 'f'), ("preserve-status", 'p')] }
  withOptions c grammar fun o => do
    match o.operands with
    | [] | [_] =>
      discard (emit 2 (bytesOf ("Try '" ++ c.name ++ " --help' for more information.\n")))
      setStatus 125
    | time :: words =>
      match milliseconds? time with
      | none => refuse c ("invalid time interval " ++ quotedFor c time)
      | some 0 => runRest start c words
      | some limit =>
        if !(← limited limit (runRest start c words)) then
          let n := ((o.value? 's').bind signal?).getD 15
          let s ← session
          if n == 9 then if isFinal && s.copies == 0 then throw (.killed s.process n) else report (.signalled n)
          else setStatus (if o.has 'p' then 128 + n else 124)

/-- Runs a file. Where that is not possible nothing has been done. -/
def launch (run : Runner) (isFinal : Bool) : Nat → Call → String → Node → Step (Option NotRun)
  | 0, _, _, _ => throw .endless
  | fuel + 1, c, file, node => do
    let start (c : Call) (fault : NotRun → Step Unit) : Step Unit := do
      let directories := directoriesOf ((c.environment.lookup "PATH").getD "/bin:/usr/bin")
      match ← runnable directories c.name with
      | .error f => fault f
      | .ok (file, node) => match ← launch run isFinal fuel c file node with
        | some f => fault f
        | none => return
    match node with
    | .file data true =>
      match interpreter? data with
      | some (name, extra) =>
        match ← runnable [] name with
        | .error f => return some f
        | .ok (place, node) => launch run isFinal fuel { c with name, arguments := extra ++ file :: c.arguments } place node
      | none =>
        shell run isFinal { c with name := "/bin/sh", arguments := file :: c.arguments }
        return none
    | .program name =>
      match name with
      | "sh" | "dash" => shell run isFinal c
      | "env" => inEnvironment start c
      | "timeout" => forTime isFinal start c
      | "nohup" => withOptions c {} fun o => runRest start c o.operands
      | "stdbuf" =>
        withOptions c { valued := "ieo", words := [("input", 'i'), ("output", 'o'), ("error", 'e')] } fun o =>
          runRest start c o.operands
      | "nice" =>
        withOptions c { valued := "n", words := [("adjustment", 'n')] } fun o => do
          match o.operands with
          | name :: arguments =>
            start { c with name, arguments } fun f => complain c f.code (quotedFor c name ++ ": " ++ f.text)
          | [] =>
            discard (emit 1 [48, 10])
            setStatus 0
      | _ =>
        match (programs false).lookup name with
        | some _ => perform run c fun inputIsFile => ((programs inputIsFile).lookup name).getD (pure ())
        | none => setStatus 0
      return none
    | .directory => return some (.refused false)
    | _ => return some (.refused true)

/-- How many programs may run one another. -/
def chainLength : Nat := 100

end Step

end QualityGate.Shell
