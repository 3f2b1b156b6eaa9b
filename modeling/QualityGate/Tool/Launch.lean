import QualityGate.Shell.Run
import QualityGate.Tool.Bench

/-! Starting a program and collecting what it writes, within a bound on time and
one on the size of each stream. -/

namespace QualityGate

/-- What one program is started with; without a name of its own the tool is known by its command. -/
structure Launch where
  command : List String
  tool : Option String := none
  timeout : Float := 120
  maxOutputBytes : Int := 52428800
  directory : Path
  /-- The variables that the program sees, in place of the usual ones. -/
  environment : Option (List (String × String)) := none

namespace Launch

/-! Bounded streams. -/

/-- What has been kept of a stream, and whether some of it was dropped. -/
structure Kept where
  bytes : List UInt8 := []
  truncated : Bool := false
  deriving DecidableEq, Repr

/-- Keeps of a chunk what there is room for. -/
def keep (limit : Int) (k : Kept) (chunk : List UInt8) : Kept :=
  let room := limit - k.bytes.length
  { bytes := if 0 < room then k.bytes ++ chunk.take room.toNat else k.bytes
    truncated := k.truncated || room < chunk.length }

/-- Reads on until a read gives nothing, which is the end of the stream; also given is what comes
after that and is not read. -/
def drain (limit : Int) (k : Kept) : List (List UInt8) → Kept × List (List UInt8)
  | [] => (k, [])
  | chunk :: later => if chunk.isEmpty then (k, later) else drain limit (keep limit k chunk) later

/-- Reads a stream to its end in the chunks in which it comes. -/
def readCapped (limit : Int) (chunks : List (List UInt8)) : Kept := (drain limit {} chunks).1

def chunkSize : Nat := 65536

def chunksFrom : Nat → List UInt8 → List (List UInt8)
  | 0, _ => []
  | fuel + 1, b => if b.isEmpty then [] else b.take chunkSize :: chunksFrom fuel (b.drop chunkSize)

def chunks (b : List UInt8) : List (List UInt8) := chunksFrom (b.length / chunkSize + 1) b

/-! Finding programs. -/

/-- Where a program is: an absolute path must exist, and any other one with a slash be executable. A
name without a slash is looked up. -/
def resolve (w : Workspace) (name : String) : Outcome String :=
  let p := Path.ofText name
  let found := (Shell.Surroundings.mk (Path.ofText ".") w).find (Shell.spelled name)
  if p.isAbsolute then
    match found with
    | .ok _ => .ok p.text
    | .error _ => .error (.toolUnavailable name "executable does not exist")
  else if name.contains '/' then
    match found with
    | .ok node => if node.isRunnable then .ok name else .error (.toolUnavailable name "not found on PATH")
    | .error _ => .error (.toolUnavailable name "not found on PATH")
  else if Shell.System.programs.contains name then .ok ("/usr/bin/" ++ name)
  else .error (.toolUnavailable name "not found on PATH")

/-! Starting. -/

def usualVariables : List (String × String) :=
  [("PATH", "/usr/local/bin:/usr/bin:/bin"), ("HOME", "/root"), ("LANG", "C.UTF-8")]

/-- What the system says about something that it cannot start. -/
def refusal (number : Nat) (detail shown : String) : String :=
  "[Errno " ++ toString number ++ "] " ++ detail ++ ": " ++ shown

def unavailable {α : Type} (tool : String) (f : FileFault) (shown : String) : Outcome α :=
  .error (.toolUnavailable tool (refusal f.number f.text shown))

/-- What the system runs for a file: it must be executable, and a script name an interpreter. -/
def startFile (s : Shell.Surroundings) (patience : Nat) (tool file : String) (c : Shell.Call) : Outcome Shell.Finished :=
  let shown := Plain.quoted file
  let refused {α : Type} : Outcome α :=
    .error (.toolUnavailable tool (refusal 13 "Permission denied" shown))
  match s.find c.name with
  | .error f => unavailable tool f shown
  | .ok node =>
    let run := Shell.Finished.ofCall s.workspace s.directory patience c c.name node
    match node with
    | .program _ => .ok run
    | .file data true =>
      match Shell.interpreter? data with
      | none => .error (.system (refusal 8 "Exec format error" shown))
      | some (name, _) =>
        match s.find name with
        | .error f => unavailable tool f shown
        | .ok node => if node.isRunnable then .ok run else refused
    | _ => refused

def start (w : Workspace) (l : Launch) (tool file : String) (arguments : List String) : Outcome Shell.Finished :=
  let vars := l.environment.getD usualVariables
  let texts := arguments ++ vars.flatMap fun v => [v.1, v.2]
  let s : Shell.Surroundings := ⟨l.directory, w⟩
  let shownDirectory := "PosixPath(" ++ Plain.quoted l.directory.text ++ ")"
  if vars.any fun v => v.1.contains '=' then .error (.badValue "illegal environment variable name")
  else if texts.any fun t => t.contains '\x00' then .error (.badValue "embedded null byte")
  else match s.find (Shell.spelled l.directory.text) with
    | .error f => unavailable tool f shownDirectory
    | .ok .directory =>
      let environment := vars.map fun v => (Shell.spelled v.1, Shell.spelled v.2)
      startFile s ((l.timeout * 1000).toUInt64.toNat + 1) tool file ⟨Shell.spelled file, arguments.map Shell.spelled, environment⟩
    | .ok _ => unavailable tool .notDirectory shownDirectory

/-- What a program that finished in time gave. A time bound of zero or less is always exceeded. -/
def result (l : Launch) (tool : String) (f : Shell.Finished) : Reply :=
  match f.code with
  | some exitCode =>
    if l.timeout ≤ 0 || l.timeout * 1000 ≤ Float.ofNat f.held then .error (.toolTimeout tool l.timeout)
    else
      let out := readCapped l.maxOutputBytes (chunks f.out)
      let err := readCapped l.maxOutputBytes (chunks f.err)
      let text (k : Kept) : String := String.ofList (Text.Utf8.decodeReplacing k.bytes)
      .ok { stdout := text out, stderr := text err, exitCode, truncated := out.truncated || err.truncated }
  | none => .error (.toolTimeout tool l.timeout)

/-- Runs a command. Its exit code is part of the result, not a failure. -/
def run (w : Workspace) (l : Launch) : Reply := do
  match l.command with
  | [] => .error (.badValue "command requires at least one argument")
  | name :: arguments =>
    let tool := (l.tool.filter (· != "")).getD name
    let p ← (resolve w name).mapError fun
      | .toolUnavailable _ detail => .toolUnavailable tool detail
      | e => e
    result l tool (← start w l tool p arguments)

end Launch

/-- The launch of a configured tool, within its own bounds. -/
def ToolCommand.toLaunch (t : ToolCommand) (directory : Path) : Launch where
  command := t.command
  tool := some t.name
  timeout := Decimal.ofInteger t.timeout
  maxOutputBytes := t.maxOutputBytes
  directory

/-- Both streams, the second one only where there is some. -/
def ToolResult.combined (r : ToolResult) : String :=
  if r.stderr == "" then r.stdout else r.stdout ++ "\n" ++ r.stderr

end QualityGate
