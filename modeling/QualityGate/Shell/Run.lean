import QualityGate.Shell.Execution

/-! Running scripts. One step runs one command, given how its parts are run, so
that a bound on depth is all that keeps a script from running for ever. -/

namespace QualityGate.Shell

/-- The words of a command, the first of them filled in. -/
structure Filled where
  fields : List String := []
  rest : List Word
  /-- How many fields stand before the name of the command. -/
  before : Nat := 0

namespace Step

/-! Simple commands. -/

/-- Fills in words until there are so many fields. -/
def fill (output : Option Script → Step Bytes) (count before : Nat) : List String → List Word → Step Filled
  | fields, [] => return ⟨fields, [], before⟩
  | fields, w :: rest => do
    if count ≤ fields.length then return ⟨fields, w :: rest, before⟩
    fill output count before (fields ++ (← fieldsOf output wordDepth w)) rest

/-- Passes over options. The place of what follows them is told if there is something, and if they
only say where to look for it. -/
def afterOptions (output : Option Script → Step Bytes) : Nat → Nat → Filled → Step (Filled × Option Nat)
  | 0, _, f => return (f, none)
  | fuel + 1, n, f => do
    let f ← fill output (n + 1) f.before f.fields f.rest
    match (f.fields[n]?).map String.toList with
    | none => return (f, none)
    | some ['-', '-'] =>
      let f ← fill output (n + 2) f.before f.fields f.rest
      return (f, if n + 1 < f.fields.length then some (n + 1) else none)
    | some ('-' :: c :: cs) => if (c :: cs).all (· == 'p') then afterOptions output fuel (n + 1) f else return (f, none)
    | some _ => return (f, some n)

/-- Passes over the words that say that a command is no function. -/
def named (output : Option Script → Step Bytes) : Nat → Filled → Step Filled
  | 0, f => return f
  | fuel + 1, f => do
    let f ← fill output (f.before + 1) f.before f.fields f.rest
    let isFunction := f.before == 0 && ((← session).functions.lookup "command").isSome
    if f.fields[f.before]? != some "command" || isFunction then return f
    match ← afterOptions output fuel (f.before + 1) f with
    | (f, some n) => named output fuel { f with before := n }
    | (f, none) => return f

/-- How often words may only say how to find a command. -/
def prefaceLength : Nat := 100

/-- The function calls that may be going on. -/
def callLimit : Nat := 1000

def callFunction (run : Runner) (m : Mode) (body : Script) (arguments : List String) : Step Unit := do
  let s ← session
  if callLimit ≤ s.calls then
    fail ("Maximum function recursion depth (" ++ toString callLimit ++ ") reached")
  modifySession fun s =>
    { s with arguments, loops := 0, calls := s.calls + 1, optionIndex := 1, optionOffset := 0 }
  enterScope
  try run { m with isFinal := false } body
  finally
    leaveScope
    modifySession fun t =>
      let skip := match t.skip with
        | .leaveFunction => .none
        | k => k
      { t with
        arguments := s.arguments, loops := s.loops, calls := s.calls, optionIndex := s.optionIndex,
        optionOffset := s.optionOffset, skip }

/-- Runs a file in this process. -/
def source (run : Runner) (words : List String) : Step Unit := do
  let (_, words) ← optionsOf "" words
  match words with
  | [] => setStatus 0
  | file :: _ =>
    let s ← surroundings
    let isFile (f : String) : Bool := (s.find f).toOption.any Node.isFile
    let place ← if file.contains '/' then pure file
      else match ((← searchPath).map fun d => if d == "" then file else Filing.inside d file).find? isFile with
        | some f => pure f
        | none => fail (file ++ ": not found")
    match s.find place with
    | .error f => fail (cannotOpen place f)
    | .ok node =>
      modifySession fun s => { s with command := some place }
      let cs := match node with
        | .file data _ => (textOf data).toList
        | _ => []
      text run {} cs
      modifySession fun s => match s.skip with
        | .leaveFunction => { s with skip := .none }
        | _ => s

/-- Runs a program, which is looked for in some directories. -/
def external (run : Runner) (isFinal : Bool) (directories : List String) (name : String) (arguments : List String) :
    Step Bool := do
  let notRun (f : NotRun) : Step Bool := do
    match f with
    | .missing =>
      warn (name ++ ": not found")
      setStatus 127
    | .refused isFile =>
      warn (name ++ ": Permission denied")
      setStatus (if isFile || name.contains '/' then 126 else 127)
    return false
  match ← runnable directories name with
  | .error f => notRun f
  | .ok (file, node) =>
    match ← launch run isFinal chainLength ⟨name, arguments, ← environment⟩ file node with
    | some f => notRun f
    | none => return true

/-- Runs a program in place of this process. -/
def replace (run : Runner) (words : List String) : Step Unit := do
  let (_, words) ← optionsOf "" words
  match words with
  | [] => setStatus 0
  | name :: arguments =>
    let traps := (← session).traps
    modifySession fun s => { s with traps := s.traps.filter fun t => t.2 == "" }
    if !(← external run true (← searchPath) name arguments) then modifySession fun s => { s with traps }
    throw .exit

/-- The commands of the shell, those that run others among them. -/
def command? (run : Runner) (m : Mode) (name : String) (arguments : List String) : Option (Step Unit) :=
  match name with
  | "command" => some do
    let (given, names) ← optionsOf "pvV" arguments
    setStatus 0
    match given.find? fun g => g.1 != 'p' with
    | some (c, _) => describe (c == 'v') (names.take 1)
    | none => return
  | "eval" => some do
    if arguments.isEmpty then setStatus 0
    else text run { m with isFinal := false } (" ".intercalate arguments).toList
  | "." => some (source run arguments)
  | "exec" => some (replace run arguments)
  | "wait" => some (awaitJobs run arguments)
  | _ => (builtin? name).map fun act => act arguments

/-- Shows a command before it is run. -/
def trace (errors : Option Nat) (words : List String) : Step Unit := do
  if ← hasOption 'x' then
    match errors with
    | some n => writeChannel n (bytesOf (((← value? "PS4").getD "") ++ " ".intercalate words ++ "\n"))
    | none => return

/-- Commands whose arguments may be assignments. -/
def declarations : List String := ["export", "local", "readonly"]

def simple (run : Runner) (m : Mode) (line : Nat) (assignments : List (String × Word)) (words : List Word)
    (redirects : List Redirect) : Step Unit := do
  modifySession fun s => { s with line, substituted := 0 }
  let output := captured run
  let f ← named output prefaceLength ⟨[], words, 0⟩
  let name := f.fields[f.before]?
  let functions := (← session).functions
  let body := if f.before == 0 then name.bind (List.lookup · functions) else none
  let declares := body.isNone && name.any declarations.contains
  let others ← f.rest.mapM fun w => do
    match if declares then Word.assignment? w else none with
    | some (name, w) => return [name ++ "=" ++ (← valueText output wordDepth w)]
    | none => fieldsOf output wordDepth w
  let fields := f.fields ++ others.flatten
  let isSpecial := f.before == 0 && name.any specialCommands.contains
  let isExec := name == some "exec"
  let isLocal := name.isSome && !isSpecial
  let before ← session
  redirected output redirects isExec fun isPossible => do
    if !isPossible then if isSpecial then throw .failed else return
    if isLocal then enterScope
    try
      let shown ← assignments.mapM fun (name, w) => do
        let value ← valueText output wordDepth w
        if isLocal then remember name
        setVariable name value
        if isLocal || (isExec && f.before + 1 < fields.length) then
          putVariable name { (← binding? name).getD {} with isExported := true }
        return name ++ "=" ++ value
      trace (before.handles.lookup 2) (shown ++ fields)
      match fields.drop f.before, body with
      | [], _ => modifySession fun s => { s with status := s.substituted }
      | _ :: arguments, some body => callFunction run m body arguments
      | name :: arguments, none =>
        match command? run m name arguments with
        | some act =>
          let outer := (← session).command
          modifySession fun s => { s with command := some name }
          try act
          catch h => if h != .failed || isSpecial then throw h
          finally modifySession fun s => { s with command := outer }
        | none =>
          let isFinal := m.isFinal && (← session).traps.isEmpty
          if isFinal then modifySession fun s => { s with isHeld := before.isHeld }
          let isUsual := (f.fields.take f.before).any fun w => w.toList.take 2 == ['-', 'p']
          let directories ← if isUsual then pure usualDirectories else searchPath
          discard (external run isFinal directories name arguments)
    finally if isLocal then leaveScope

/-! Commands made of others. -/

/-- Whether a loop goes on after a round. What leaves several loops is passed on. -/
def goesOn : Step Bool := do
  match (← session).skip with
  | .none => return true
  | .leaveLoop n =>
    modifySession fun s => { s with skip := if n ≤ 1 then .none else .leaveLoop (n - 1) }
    return false
  | .nextRound n =>
    modifySession fun s => { s with skip := if n ≤ 1 then .none else .nextRound (n - 1) }
    return n ≤ 1
  | .leaveFunction => return false

/-- Repeats a round until it says that it was the last one; the status is handed on. -/
def repeated (round : Nat → Step (Bool × Nat)) : Nat → Nat → State → Except Halt Nat × State
  | 0, _, s => (.error .endless, s)
  | fuel + 1, status, s =>
    match round status s with
    | (.ok (true, status), s) => repeated round fuel status s
    | (.ok (false, status), s) => (.ok status, s)
    | (.error h, s) => (.error h, s)

/-- Rounds after which a loop is taken not to end. -/
def loopBound : Nat := 200000

def forEach (round : String → Step Bool) : List String → State → Except Halt Unit × State
  | [], s => (.ok (), s)
  | v :: rest, s =>
    match round v s with
    | (.ok true, s) => forEach round rest s
    | (.ok false, s) => (.ok (), s)
    | (.error h, s) => (.error h, s)

/-- Runs a loop, in which there are commands to leave it. -/
def inLoop {α : Type} (a : Step α) : Step α := do
  modifySession fun s => { s with loops := s.loops + 1 }
  let r ← a
  modifySession fun s => { s with loops := s.loops - 1 }
  return r

def round (run : Runner) (m : Mode) (untilTrue : Bool) (condition body : Script) (before : Nat) : Step (Bool × Nat) := do
  run ⟨true, false⟩ condition
  let status ← status
  match (← session).skip with
  | .none =>
    if (status == 0) == untilTrue then return (false, before)
    else
      run { m with isFinal := false } body
      let status := (← session).status
      return (← goesOn, status)
  | .leaveFunction => return (false, status)
  | _ => return (← goesOn, before)

/-- What a producer must have written if it is only stopped when nobody reads any more. -/
def pipeSize : Nat := 65536

/-- Runs the stages of a pipeline, each with the output of the one before it as its input; all begin at
one time. Says whether one of them would not end. -/
def stages (run : Runner) (m : Mode) (start : Nat) : Option Nat → List Script → Step Bool
  | _, [] => return false
  | input, stage :: rest => do
    let output ← if rest.isEmpty then pure none else some <$> openChannel (.pipe [] false)
    modifyWorld fun w => { w with clock := start }
    let put (descriptor : Nat) (channel : Option Nat) (handles : List (Nat × Nat)) : List (Nat × Nat) :=
      channel.elim handles fun c => (descriptor, c) :: handles.filter fun h => h.1 != descriptor
    let begin (s : Session) : Session := { copied s with handles := put 1 output (put 0 input s.handles) }
    let isEndless ← try
        report (← inProcess begin (ended run (run ⟨m.isTested, true⟩ stage)))
        pure false
      catch h => if h == .endless then pure true else throw h
    let isStuck ← match output with
      | none => pure isEndless
      | some n =>
        finishJobs run (fun j => j.session.handles.any fun h => h.2 == n) jobLimit
        let written := (← unread n).bytes
        if isEndless then setChannel n (.pipe [written] true)
        pure (isEndless && written.length < pipeSize)
    let clock := (← world).clock
    let others ← stages run m start output rest
    modifyWorld fun w => { w with clock := max clock w.clock }
    return isStuck || others

/-- The branch of the first pattern that a text fits. -/
def branch (output : Option Script → Step Bytes) (cs : List Char) :
    List (List Word × Option Script) → Step (Option Script)
  | [] => return none
  | (patterns, body) :: rest => do
    let fits ← patterns.foldlM (fun found w => do
      if found then return true else return Wildcard.covers (← patternOf output wordDepth w) cs) false
    if fits then return body else branch output cs rest

def setLine (line : Nat) : Step Unit := modifySession fun s => { s with line }

/-- Runs one command, given how its parts are run. -/
def follow (run : Runner) (m : Mode) (script : Script) : Step Unit := do
  let output := captured run
  let inner : Mode := { m with isFinal := false }
  let tested : Mode := ⟨true, false⟩
  match script with
  | .simple line assignments words redirects => simple run m line assignments words redirects
  | .redirected line body redirects =>
    setLine line
    redirected output redirects false fun isPossible => do if isPossible then run inner body
  | .subshell line body redirects =>
    setLine line
    let act : Step Unit := redirected output redirects true fun isPossible => do
      if isPossible then run ⟨m.isTested, true⟩ body else throw .exit
    if m.isFinal && (← session).traps.isEmpty then act
    else report (← inProcess copied (ended run act))
  | .background line body =>
    setLine line
    background body
  | .pipeline parts => if ← stages run m (← world).clock none parts then throw .endless
  | .andThen a b =>
    run inner a
    if (← session).skip == .none then run m b
  | .both a b =>
    run tested a
    if (← session).skip == .none && (← status) == 0 then run m b
  | .either a b =>
    run tested a
    if (← session).skip == .none && (← status) != 0 then run m b
  | .negated a =>
    run tested a
    setStatus (if (← status) == 0 then 1 else 0)
  | .choice condition yes no =>
    run tested condition
    if (← session).skip == .none then
      if (← status) == 0 then run m yes
      else match no with
        | some no => run m no
        | none => setStatus 0
  | .loop untilTrue condition body =>
    setStatus (← inLoop (ExceptT.mk (repeated (round run m untilTrue condition body) loopBound 0)))
  | .each line name words body =>
    setLine line
    let values := (← words.mapM (fieldsOf output wordDepth)).flatten
    if values.isEmpty then setStatus 0
    inLoop (ExceptT.mk (forEach (fun v => do
      setVariable name v
      run inner body
      goesOn) values))
  | .cases line subject branches =>
    setLine line
    match ← branch output (← wordText output wordDepth subject).toList branches with
    | some body => run m body
    | none => setStatus 0
  | .define name body =>
    modifySession fun s =>
      { s with functions := (name, body) :: s.functions.filter (fun f => f.1 != name), status := 0 }

/-- Whether a failure of such a command may end the script. -/
def mayEnd : Script → Bool
  | .simple .. | .subshell .. | .background .. | .pipeline .. => true
  | _ => false

/-- Runs a command, and does what signals ask for before and after it. -/
def runScript : Nat → Runner
  | 0, _, _ => throw .endless
  | fuel + 1, m, script => do
    if ← hasOption 'n' then return
    answerSignals (runScript fuel)
    follow (runScript fuel) m script
    answerSignals (runScript fuel)
    if mayEnd script && !m.isTested && (← status) != 0 && (← hasOption 'e') then throw .exit

/-- How deeply commands may be nested. -/
def depth : Nat := 20000

end Step

/-! Whole programs. -/

/-- How a program ended, and what was written until then. -/
structure Finished where
  out : Bytes := []
  err : Bytes := []
  /-- The exit code, or the signal that ended it as a negative number; none where it would not end. -/
  code : Option Int := some 0
  /-- For how many milliseconds somebody could write to the streams. -/
  held : Nat := 0

namespace Finished

/-- The number of the first process. -/
def firstProcess : Nat := 4242

def written (w : World) (n : Nat) : Bytes :=
  match w.channels[n]? with
  | some (.pipe pieces _) => pieces.reverse.flatten
  | _ => []

/-- Runs what was left in the background, and says whether it ends or the streams are closed. -/
def settled : Nat → State → Bool × State
  | 0, s => (true, s)
  | fuel + 1, s =>
    match s.world.jobs.find? fun j => j.status.isNone with
    | none => (true, s)
    | some j =>
      match (Step.runJob (Step.runScript Step.depth) j).run s with
      | (.ok _, t) => settled fuel t
      | (.error _, t) => if Step.holdsOutput j.session then (false, t) else settled fuel { t with session := s.session }

/-- Runs a file as the first of all processes, for no longer than somebody has patience. -/
def ofCall (workspace : Workspace) (directory : Path) (patience : Option Nat) (c : Call) (file : String) (node : Node) :
    Finished :=
  let session : Session := { name := c.name, process := firstProcess, directory, handles := [(0, 2), (1, 0), (2, 1)] }
  let world : World := { workspace, patience, channels := #[.pipe [] false, .pipe [] false, .null] }
  let (o, s) := (Step.launch (Step.runScript Step.depth) true Step.chainLength c file node).run ⟨session, world⟩
  let code : Option Int := match o with
    | .ok _ | .error .exit | .error .failed => some (s.session.status % 256 : Nat)
    | .error (.killed _ n) => some (-(n : Int))
    | .error _ => none
  let (isSettled, s) := settled Step.jobLimit s
  { out := written s.world 0
    err := written s.world 1
    code := if isSettled then code else none
    held := s.world.held }

end Finished

end QualityGate.Shell
