import QualityGate.Shell.Expansion
import QualityGate.Shell.Grammar

/-! The commands of the shell itself that run no other command. -/

namespace QualityGate.Shell

/-! Signals. -/

/-- Names of signals and what is said about them, from the first one on. -/
def signals : List (String × String) :=
  [("HUP", "Hangup"), ("INT", "Interrupt"), ("QUIT", "Quit"), ("ILL", "Illegal instruction"),
    ("TRAP", "Trace/breakpoint trap"), ("ABRT", "Aborted"), ("BUS", "Bus error"), ("FPE", "Floating point exception"),
    ("KILL", "Killed"), ("USR1", "User defined signal 1"), ("SEGV", "Segmentation fault"),
    ("USR2", "User defined signal 2"), ("PIPE", "Broken pipe"), ("ALRM", "Alarm clock"), ("TERM", "Terminated"),
    ("STKFLT", "Stack fault"), ("CHLD", "Child exited"), ("CONT", "Continued"), ("STOP", "Stopped (signal)"),
    ("TSTP", "Stopped"), ("TTIN", "Stopped (tty input)"), ("TTOU", "Stopped (tty output)"),
    ("URG", "Urgent I/O condition"), ("XCPU", "CPU time limit exceeded"), ("XFSZ", "File size limit exceeded"),
    ("VTALRM", "Virtual timer expired"), ("PROF", "Profiling timer expired"), ("WINCH", "Window changed"),
    ("IO", "I/O possible"), ("PWR", "Power failure"), ("SYS", "Bad system call")]

def signalCount : Nat := 65

/-- A signal by its number or name. The end of the script is number zero. -/
def signal? (s : String) : Option Nat :=
  match natural? s with
  | some n => if n < signalCount then some n else none
  | none =>
    if s.toUpper == "EXIT" then some 0
    else (signals.findIdx? fun x => x.1 == s.toUpper).map (· + 1)

/-- The signals for all purposes have names that count from both ends. -/
def signalName (n : Nat) : String :=
  if n == 0 then "EXIT"
  else match signals[n - 1]? with
    | some (name, _) => name
    | none =>
      if n < 34 then toString n
      else if n == 34 then "RTMIN"
      else if n < 50 then "RTMIN+" ++ toString (n - 34)
      else if n < 64 then "RTMAX-" ++ toString (64 - n)
      else "RTMAX"

/-- What is said when a signal has ended a process; nothing is said about two of them. -/
def signalText? (n : Nat) : Option String :=
  if n == 2 || n == 13 then none else (signals[n - 1]?).map Prod.snd

/-- A text in quotes that reads back. -/
def singleQuoted (s : String) : String :=
  let parts := (Text.splitAtChar '\'' s.toList).map fun p => if p.isEmpty then "" else "'" ++ String.ofList p ++ "'"
  if s == "" then "''" else "\"'\"".intercalate parts

def shellCommands : List String :=
  specialCommands ++ ["[", "alias", "bg", "cd", "chdir", "command", "echo", "false", "fg", "getopts", "hash", "jobs",
    "kill", "printf", "pwd", "read", "test", "true", "type", "ulimit", "umask", "unalias", "wait"]

/-- The options of the shell, in the order in which they are told. -/
def optionNames : List (Char × String) :=
  [('e', "errexit"), ('f', "noglob"), ('I', "ignoreeof"), ('i', "interactive"), ('m', "monitor"), ('n', "noexec"),
    ('s', "stdin"), ('x', "xtrace"), ('v', "verbose"), ('V', "vi"), ('E', "emacs"), ('C', "noclobber"),
    ('a', "allexport"), ('b', "notify"), ('u', "nounset")]

namespace Step

/-- Writes what a command of the shell has to say. -/
def say (b : Bytes) : Step Unit := do
  if !(← emit 1 b) then
    warn (((← session).command.getD "") ++ ": I/O error")
    setStatus (max 1 (← status))

def sayLine (s : String) : Step Unit := say (bytesOf (s ++ "\n"))

def number (s : String) : Step Nat := do
  match natural? s with
  | some n => if n < 0x80000000 then return n else fail ("Illegal number: " ++ s)
  | none => fail ("Illegal number: " ++ s)

/-- Options by their letters, those with a colon after them with a value, and what follows them. -/
def options (allowed : String) : Nat → List (Char × String) → List String → Step (List (Char × String) × List String)
  | 0, given, rest => return (given, rest)
  | fuel + 1, given, words => do
    match words with
    | w :: rest =>
      match w.toList with
      | ['-', '-'] => return (given, rest)
      | '-' :: c :: cs =>
        match (allowed.toList.dropWhile (· != c)) with
        | _ :: ':' :: _ =>
          if !cs.isEmpty then options allowed fuel (given ++ [(c, String.ofList cs)]) rest
          else match rest with
            | v :: rest => options allowed fuel (given ++ [(c, v)]) rest
            | [] => fail ("No arg for -" ++ String.singleton c ++ " option")
        | _ :: _ =>
          if c == ':' then fail "Illegal option -:"
          else options allowed fuel (given ++ [(c, "")]) (if cs.isEmpty then rest else String.ofList ('-' :: cs) :: rest)
        | [] => fail ("Illegal option -" ++ String.singleton c)
      | _ => return (given, words)
    | [] => return (given, [])

def optionsOf (allowed : String) (words : List String) : Step (List (Char × String) × List String) :=
  options allowed (words.foldl (fun n w => n + w.length) 1) [] words

/-! Output. -/

def shellEscapes : Escapes := ⟨true, true, false, false⟩

def dialect : Dialect :=
  ⟨⟨false, false, false, true⟩, shellEscapes, (· ++ ": expected numeric value"), (· ++ ": not completely converted")⟩

def echo (words : List String) : Step Unit := do
  let (newline, words) := if words.head? == some "-n" then (false, words.drop 1) else (true, words)
  let (b, stops) := shellEscapes.all (" ".intercalate words)
  setStatus 0
  say (if newline && !stops then b ++ [10] else b)

def printf (words : List String) : Step Unit := do
  let (_, words) ← optionsOf "" words
  match words with
  | [] => fail "usage: printf format [arg ...]"
  | form :: arguments =>
    let p := dialect.print form arguments
    p.faults.reverse.forM warn
    setStatus (if p.faults.isEmpty then 0 else 1)
    match p.fatal with
    | some detail =>
      discard (emit 1 p.out.reverse.flatten)
      fail detail
    | none => say p.out.reverse.flatten

def condition (isBracketed : Bool) (words : List String) : Step Unit := do
  let s ← surroundings
  match if isBracketed then Condition.evalBracketed s words else Condition.eval s words with
  | .ok b => setStatus (if b then 0 else 1)
  | .error f => fail f.message

/-! Places. -/

/-- A directory as it is named, dots and what they undo left out. -/
def plainPath (p : Path) : Path :=
  { p with parts := (p.parts.foldl (fun acc part => if part == ".." then acc.drop 1 else part :: acc) []).reverse }

def changeDirectory (words : List String) : Step Unit := do
  let (given, words) ← optionsOf "LP" words
  let target ← match words with
    | [] => pure ((← value? "HOME").getD "")
    | w :: _ => if w == "-" then pure ((← value? "OLDPWD").getD "") else pure w
  let s ← surroundings
  let goal := if target == "" then "." else target
  let p := plainPath (s.place goal)
  if !s.isDirectory goal then fail ("can't cd to " ++ target)
  let p := if given.any fun g => g.1 == 'P' then (s.workspace.resolve p).toOption.getD p else p
  let old := spelled s.directory.text
  modifySession fun s => { s with directory := p }
  setVariable "OLDPWD" old
  setVariable "PWD" (spelled p.text)
  ["OLDPWD", "PWD"].forM fun name => do
    putVariable name { (← binding? name).getD {} with isExported := true }
  setStatus 0
  if words.head? == some "-" then sayLine (spelled p.text)

def printDirectory (words : List String) : Step Unit := do
  let (given, _) ← optionsOf "LP" words
  let s ← surroundings
  let p := if given.any fun g => g.1 == 'P' then (s.workspace.resolve s.directory).toOption.getD s.directory
    else s.directory
  setStatus 0
  sayLine (spelled p.text)

/-! Variables. -/

/-- The name and the value of an assignment, or the name alone. -/
def assigned (word : String) : String × Option String :=
  let name := word.toList.takeWhile (· != '=')
  (String.ofList name, if name.length < word.length then some (String.ofList (word.toList.drop (name.length + 1))) else none)

def listVariables (before : String) (shows : Variable → Bool) : Step Unit := do
  let shown := ((← session).vars.filter fun v => shows v.2).mergeSort fun a b => a.1 ≤ b.1
  shown.forM fun (name, v) =>
    let value := match v.value with
      | some value => "=" ++ singleQuoted value
      | none => ""
    sayLine (before ++ name ++ value)

/-- Marks variables, and sets those that have a value. -/
def markVariables (before : String) (shows : Variable → Bool) (mark : Variable → Variable) (words : List String) :
    Step Unit := do
  let (given, words) ← optionsOf "p" words
  setStatus 0
  if words.isEmpty || !given.isEmpty then listVariables before shows
  else words.forM fun w => do
    let (name, value) := assigned w
    if !isName name then fail (name ++ ": bad variable name")
    if let some value := value then setVariable name value
    putVariable name (mark ((← binding? name).getD {}))

def unset (words : List String) : Step Unit := do
  let (given, words) ← optionsOf "vf" words
  setStatus 0
  words.forM fun name => do
    if given.getLast?.any fun g => g.1 == 'f' then
      modifySession fun s => { s with functions := s.functions.filter fun f => f.1 != name }
    else
      if !isName name then fail (name ++ ": bad variable name")
      dropVariable name

def setLocal (words : List String) : Step Unit := do
  if (← session).calls == 0 then fail "not in a function"
  setStatus 0
  words.forM fun w => do
    let (name, value) := assigned w
    if !isName name then fail (name ++ ": bad variable name")
    remember name
    if let some value := value then setVariable name value

def shift (words : List String) : Step Unit := do
  let n ← match words with
    | w :: _ => number w
    | [] => pure 1
  if (← session).arguments.length < n then fail "can't shift that many"
  modifySession fun s => { s with arguments := s.arguments.drop n, status := 0 }

def putOption (c : Char) (on : Bool) : Step Unit := do
  if (optionNames.lookup c).isNone then fail ("Illegal option -" ++ String.singleton c)
  modifySession fun s =>
    let others := s.options.filter (· != c)
    let all := if on then c :: others else others
    { s with options := ((optionNames.map Prod.fst).reverse).filter all.contains }

/-- Lists the options, in a form that reads well or as commands. -/
def showOptions (asCommands : Bool) : Step Unit := do
  let on := (← session).options
  if asCommands then
    optionNames.forM fun (c, name) => sayLine ((if on.contains c then "set -o " else "set +o ") ++ name)
  else
    sayLine "Current option settings"
    optionNames.forM fun (c, name) =>
      sayLine (name ++ "".pushn ' ' (16 - name.length) ++ if on.contains c then "on" else "off")

/-- Reads options, and the arguments after them; there may be none of these. -/
def setOptions : Nat → List String → Step (Option (List String))
  | 0, _ => return none
  | _, [] => return none
  | fuel + 1, w :: rest => do
    match w.toList with
    | ['-'] =>
      ['x', 'v'].forM fun c => putOption c false
      return if rest.isEmpty then none else some rest
    | ['-', '-'] => return some rest
    | sign :: cs =>
      if sign == '-' || (sign == '+' && !cs.isEmpty) then
        let rest ← cs.foldlM (fun (rest : List String) c => do
          if c != 'o' then
            putOption c (sign == '-')
            return rest
          match rest with
          | [] =>
            showOptions (sign == '+')
            return []
          | name :: rest =>
            match optionNames.find? fun o => o.2 == name with
            | some (c, _) =>
              putOption c (sign == '-')
              return rest
            | none => fail ("Illegal option -o " ++ name)) rest
        setOptions fuel rest
      else return some (w :: rest)
    | [] => return some (w :: rest)

def setUp (words : List String) : Step Unit := do
  setStatus 0
  if words.isEmpty then listVariables "" fun v => v.value.isSome
  else match ← setOptions (words.length + 1) words with
    | some arguments => modifySession fun s => { s with arguments, optionIndex := 1, optionOffset := 0 }
    | none => return

/-! Input. -/

/-- The characters of a line and whether each of them is quoted, how many bytes they took, and whether
the line was ended. -/
def lineFrom (isRaw : Bool) : Nat → List Mark → Nat → Bytes → List Mark × Nat × Bool
  | 0, acc, taken, _ => (acc.reverse, taken, false)
  | _, acc, taken, [] => (acc.reverse, taken, false)
  | fuel + 1, acc, taken, b :: rest =>
    if b == 10 then (acc.reverse, taken + 1, true)
    else if b == 0 then lineFrom isRaw fuel acc (taken + 1) rest
    else if b == 92 && !isRaw then
      match rest with
      | c :: rest =>
        lineFrom isRaw fuel (if c == 10 then acc else (Char.ofNat c.toNat, true) :: acc) (taken + 2) rest
      | [] => (acc.reverse, taken + 1, false)
    else lineFrom isRaw fuel ((Char.ofNat b.toNat, false) :: acc) (taken + 1) rest

def isBlankMark (separators : List Char) (m : Mark) : Bool :=
  !m.2 && separators.contains m.1 && isBlankSeparator m.1

/-- The first field of a line, and what follows its separator. -/
def firstField (separators : List Char) (ms : List Mark) : List Mark × List Mark :=
  let isSeparator (m : Mark) : Bool := !m.2 && separators.contains m.1
  let isBlank := isBlankMark separators
  let ms := ms.dropWhile isBlank
  let field := ms.takeWhile fun m => !isSeparator m
  let rest := (ms.drop field.length).dropWhile isBlank
  let rest := if rest.head?.any isSeparator then (rest.drop 1).dropWhile isBlank else rest
  (field, rest)

/-- As many fields as there are names. The last one is all the rest, but for a separator that ends it. -/
def fieldsFor (separators : List Char) : List String → List Mark → List (String × List Mark)
  | [], _ => []
  | [name], ms =>
    let ms := ms.dropWhile (isBlankMark separators)
    let (field, rest) := firstField separators ms
    let whole := (ms.reverse.dropWhile (isBlankMark separators)).reverse
    [(name, if rest.isEmpty then field else whole)]
  | name :: names, ms =>
    let (field, rest) := firstField separators ms
    (name, field) :: fieldsFor separators names rest

def readLine (words : List String) : Step Unit := do
  let (given, names) ← optionsOf "p:r" words
  if names.isEmpty then fail "arg count"
  let isRaw := given.any fun g => g.1 == 'r'
  match ← handle? 0 with
  | none => setStatus 1
  | some n =>
    let source ← unread n
    let (ms, taken, ended) := lineFrom isRaw (source.bytes.length + 1) [] 0 source.bytes
    consume n taken
    (fieldsFor (← separators).toList names ms).forM fun (name, field) => do
      if !isName name then fail (name ++ ": bad variable name")
      setVariable name (String.ofList (field.map Prod.fst))
    setStatus (if ended then 0 else 1)

/-! Signals. -/

/-- Where a signal goes: to this process, one around it, or one in the background. -/
def send (process signal : Nat) : Step Bool := do
  let s ← session
  let w ← world
  if process == s.process then
    if s.copies == 0 then receive signal
    else modifyWorld fun w => { w with sent := w.sent ++ [(process, signal)] }
    return true
  else match w.jobs.find? fun j => j.process == process with
    | some j =>
      if j.status.isNone && j.signal.isNone && !isHarmless signal && signal != 0 then
        modifyWorld fun w => { w with jobs := w.jobs.map fun k =>
          if k.process == process then { k with signal := some (signal, w.clock) } else k }
      return true
    | none =>
      if process < 4242 || w.nextProcess ≤ process then return false
      modifyWorld fun w => { w with sent := w.sent ++ [(process, signal)] }
      return true

def killUsage : String :=
  "Usage: kill [-s sigspec | -signum | -sigspec] [pid | job]... or\nkill -l [exitstatus]"

def kill (words : List String) : Step Unit := do
  let (signal, isList, targets) ← match words with
    | [] => fail killUsage
    | w :: rest =>
      match w.toList with
      | '-' :: cs =>
        match (signal? (String.ofList cs)).filter fun n => n != 0 || cs == ['0'] with
        | some n => pure (n, false, rest)
        | none =>
          let (given, rest) ← optionsOf "ls:" words
          let signal ← match given.find? fun g => g.1 == 's' with
            | some (_, name) =>
              match signal? name with
              | some n => pure n
              | none => fail ("invalid signal number or name: " ++ name)
            | none => pure 15
          pure (signal, given.any fun g => g.1 == 'l', rest)
      | _ => pure (15, false, words)
  setStatus 0
  if isList then
    match targets with
    | [] =>
      sayLine "0"
      (List.range (signalCount - 1)).forM fun i => sayLine (signalName (i + 1))
    | t :: _ =>
      let n ← number t
      let n := if 128 < n then n - 128 else n
      if 0 < n && n < signalCount then sayLine (signalName n)
      else fail ("invalid signal number or exit status: " ++ t)
  else
    if targets.isEmpty then fail killUsage
    targets.forM fun t => do
      let process ← number (String.ofList (if t.toList.head? == some '-' then t.toList.drop 1 else t.toList))
      if !(← send process signal) then
        warn "No such process\n"
        setStatus 1

def trap (words : List String) : Step Unit := do
  let (_, words) ← optionsOf "" words
  setStatus 0
  match words with
  | [] =>
    let traps := (← session).traps.mergeSort fun a b => a.1 ≤ b.1
    traps.forM fun (n, action) => sayLine ("trap -- " ++ singleQuoted action ++ " " ++ signalName n)
  | first :: rest =>
    let (action, names) := if rest.isEmpty || (natural? first).isSome then (none, words)
      else if first == "-" then (none, rest) else (some first, rest)
    names.forM fun name => do
      match signal? name with
      | some n => modifySession fun s =>
        let others := s.traps.filter fun t => t.1 != n
        { s with traps := action.elim others fun a => (n, a) :: others }
      | none =>
        discard (emit 2 (bytesOf ("trap: " ++ name ++ ": bad trap\n")))
        setStatus 1

/-! Leaving. -/

def leave (words : List String) : Step Unit := do
  match words with
  | w :: _ =>
    let n ← number w
    modifySession fun s => { s with status := n, ending := s.ending.map fun _ => n }
  | [] => modifySession fun s => { s with status := s.ending.getD s.status }
  throw .exit

def leaveLoop (goesOn : Bool) (words : List String) : Step Unit := do
  let n ← match words with
    | w :: _ => do
      let n ← number w
      if n == 0 then fail ("Illegal number: " ++ w)
      pure n
    | [] => pure 1
  let n := min n (← session).loops
  setStatus 0
  if 0 < n then modifySession fun s => { s with skip := if goesOn then .nextRound n else .leaveLoop n }

def leaveFunction (words : List String) : Step Unit := do
  match words with
  | w :: _ =>
    let n ← number w
    modifySession fun s => { s with skip := .leaveFunction, status := n }
  | [] => modifySession fun s => { s with skip := .leaveFunction }

/-! What there is. -/

/-- Where programs are looked for. -/
def searchPath : Step (List String) := do
  match ← value? "PATH" with
  | some path => return (Text.splitAtChar ':' path.toList).map String.ofList
  | none => return []

/-- Where a program is. A name with a slash is a path. -/
def locate (name : String) : Step (Option String) := do
  let s ← surroundings
  let isFile (file : String) : Bool := match s.find file with
    | .ok (.file ..) | .ok (.program _) => true
    | _ => false
  if name.contains '/' then return some name
  else return ((← searchPath).map fun d => if d == "" then name else Filing.inside d name).find? isFile

def isRunnable (file : String) : Step Bool := do
  match (← surroundings).find file with
  | .ok (.file _ executable) => return executable
  | .ok (.program _) => return true
  | _ => return false

/-- Says what each name stands for, in short or in full. -/
def describe (isShort : Bool) (names : List String) : Step Unit := do
  setStatus 0
  names.forM fun name => do
    let full (what : String) : Step Unit := sayLine (name ++ " is " ++ what)
    if keywords.contains name then if isShort then sayLine name else full "a shell keyword"
    else if ((← session).functions.lookup name).isSome then if isShort then sayLine name else full "a shell function"
    else if shellCommands.contains name then
      if isShort then sayLine name
      else full (if specialCommands.contains name then "a special shell builtin" else "a shell builtin")
    else match ← locate name with
      | some file =>
        if name.contains '/' && !(← isRunnable file) then
          if !isShort then sayLine (name ++ ": not found")
          setStatus 127
        else if isShort then sayLine file else full file
      | none =>
        if !isShort then sayLine (name ++ ": not found")
        setStatus 127

/-- The permissions that are left by a mask, in letters. -/
def maskLetters (mask : Nat) : String :=
  let letters (n : Nat) : String :=
    String.ofList (([(4, 'r'), (2, 'w'), (1, 'x')].filter fun b => n / b.1 % 2 == 0).map Prod.snd)
  "u=" ++ letters (mask / 64 % 8) ++ ",g=" ++ letters (mask / 8 % 8) ++ ",o=" ++ letters (mask % 8)

def setMask (words : List String) : Step Unit := do
  let (given, words) ← optionsOf "S" words
  setStatus 0
  match words with
  | [] =>
    let mask := (← session).mask
    let digits := Nat.toDigits 8 mask
    sayLine (if given.isEmpty then "".pushn '0' (4 - digits.length) ++ String.ofList digits else maskLetters mask)
  | w :: _ =>
    if w.toList.head?.any Char.isDigit then
      if !w.toList.all fun c => '0' ≤ c && c ≤ '7' then fail ("Illegal number: " ++ w)
      modifySession fun s => { s with mask := Numeral.valueIn 8 w.toList % 512 }
    else if !w.toList.all "ugoarwxXst=+-,".toList.contains then fail ("Illegal mode: " ++ w)

/-- The next of the letters in the arguments, and how far they have been read then. -/
def nextOption (words : List String) : Step Unit := do
  match words with
  | letters :: name :: arguments =>
    let s ← session
    let arguments := if arguments.isEmpty then s.arguments else arguments
    let index := s.optionIndex
    let current := arguments[index - 1]?.getD ""
    let cs := current.toList
    let offset := s.optionOffset
    let finish (result : String) (index offset status : Nat) : Step Unit := do
      setVariable "OPTIND" (toString index)
      setVariable name result
      modifySession fun s => { s with optionOffset := offset, status }
    if offset == 0 && (cs.head? != some '-' || cs.length < 2) then finish "?" index 0 1
    else if offset == 0 && current == "--" then finish "?" (index + 1) 0 1
    else
      let position := if offset == 0 then 1 else offset
      let c := cs[position]?.getD '?'
      let isLast := cs.length ≤ position + 1
      let silent := letters.toList.head? == some ':'
      let (nextIndex, nextOffset) := if isLast then (index + 1, 0) else (index, position + 1)
      match letters.toList.dropWhile (· != c) with
      | found :: after =>
        if found == ':' then finish "?" nextIndex nextOffset 0
        else if after.head? == some ':' then
          if !isLast then
            setVariable "OPTARG" (String.ofList (cs.drop (position + 1)))
            finish (String.singleton c) (index + 1) 0 0
          else match arguments[index]? with
            | some v =>
              setVariable "OPTARG" v
              finish (String.singleton c) (index + 2) 0 0
            | none =>
              if silent then
                setVariable "OPTARG" (String.singleton c)
                finish ":" (index + 1) 0 0
              else
                discard (emit 2 (bytesOf ("No arg for -" ++ String.singleton c ++ " option\n")))
                dropVariable "OPTARG"
                finish "?" (index + 1) 0 0
        else
          dropVariable "OPTARG"
          finish (String.singleton c) nextIndex nextOffset 0
      | [] =>
        if silent then setVariable "OPTARG" (String.singleton c)
        else
          discard (emit 2 (bytesOf ("Illegal option -" ++ String.singleton c ++ "\n")))
          dropVariable "OPTARG"
        finish "?" nextIndex nextOffset 0
  | _ => fail "Usage: getopts optstring var [arg...]"

/-- A command of the shell that runs no other one. -/
def builtin? (name : String) : Option (List String → Step Unit) :=
  match name with
  | ":" | "true" => some fun _ => setStatus 0
  | "false" => some fun _ => setStatus 1
  | "echo" => some echo
  | "printf" => some printf
  | "test" => some (condition false)
  | "[" => some (condition true)
  | "cd" | "chdir" => some changeDirectory
  | "pwd" => some printDirectory
  | "export" => some (markVariables "export " (·.isExported) fun v => { v with isExported := true })
  | "readonly" => some (markVariables "readonly " (·.isReadonly) fun v => { v with isReadonly := true })
  | "unset" => some unset
  | "local" => some setLocal
  | "shift" => some shift
  | "set" => some setUp
  | "read" => some readLine
  | "kill" => some kill
  | "trap" => some trap
  | "exit" => some leave
  | "break" => some (leaveLoop false)
  | "continue" => some (leaveLoop true)
  | "return" => some leaveFunction
  | "type" => some (describe false)
  | "umask" => some setMask
  | "getopts" => some nextOption
  | "times" => some fun _ => do
    setStatus 0
    sayLine "0m0.000000s 0m0.000000s\n0m0.000000s 0m0.000000s"
  | "ulimit" => some fun _ => do
    setStatus 0
    sayLine "unlimited"
  | "alias" | "jobs" => some fun _ => setStatus 0
  | "unalias" => some fun words => do
    setStatus (if words.isEmpty then 0 else 1)
    words.forM fun w => do discard (emit 2 (bytesOf ("unalias: " ++ w ++ " not found\n")))
  | "hash" => some fun words => do
    setStatus 0
    (words.filter (· != "-r")).forM fun w => do
      if (← locate w).isNone && !shellCommands.contains w then
        warn (w ++ ": not found")
        setStatus 1
  | "fg" | "bg" => some fun _ => fail "No current job"
  | _ => none

end Step

end QualityGate.Shell
