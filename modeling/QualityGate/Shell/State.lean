import QualityGate.Shell.Small
import QualityGate.Shell.Word

/-! What a running script knows and changes. A part of it belongs to one process
and is copied for another; the rest is common to all processes. Waiting only
adds to the time that has passed. -/

namespace QualityGate.Shell

structure Variable where
  value : Option String := none
  isExported : Bool := false
  isReadonly : Bool := false

/-- Where bytes go to and come from. -/
inductive Channel where
  | null
  | zeros
  /-- What was written and not read yet, the last piece first. -/
  | pipe (pieces : List Bytes) (isEndless : Bool)
  | file (place : Path) (offset : Nat) (appends : Bool)

inductive Skip where
  | none
  | leaveLoop (count : Nat)
  | nextRound (count : Nat)
  | leaveFunction
  deriving DecidableEq

/-- What belongs to one process. -/
structure Session where
  /-- The name that messages begin with. -/
  name : String
  process : Nat
  /-- How many copies have been made since the process with this number. -/
  copies : Nat := 0
  /-- Whether somebody who waits for this process can still write to the outermost streams. -/
  isHeld : Bool := false
  line : Nat := 1
  /-- The command that is being run, for messages. -/
  command : Option String := none
  arguments : List String := []
  vars : List (String × Variable) := []
  /-- What variables were before each function that is running. -/
  scopes : List (List (String × Option Variable)) := []
  functions : List (String × Script) := []
  options : List Char := []
  traps : List (Nat × String) := []
  pending : List Nat := []
  directory : Path
  status : Nat := 0
  /-- The status of the last output that was filled in. -/
  substituted : Nat := 0
  loops : Nat := 0
  calls : Nat := 0
  skip : Skip := .none
  /-- The channels of descriptors. -/
  handles : List (Nat × Nat) := []
  lastJob : Option Nat := none
  /-- Which argument is read for options next, and how far its letters have been read. -/
  optionIndex : Nat := 1
  optionOffset : Nat := 0
  /-- The permissions that new files do not get. -/
  mask : Nat := 18
  /-- The status with which the process ends, once it is known. -/
  ending : Option Nat := none

/-- What is left in the background until somebody waits for it. -/
structure Job where
  process : Nat
  session : Session
  script : Script
  started : Nat
  status : Option Nat := none
  /-- A signal that has been sent to it, and when. -/
  signal : Option (Nat × Nat) := none

/-- What all processes share. -/
structure World where
  workspace : Workspace
  channels : Array Channel := #[]
  clock : Nat := 0
  /-- Until when somebody held the output. -/
  held : Nat := 0
  /-- When what is running is stopped. -/
  deadline : Option Nat := none
  /-- If the output is held until then, it does not matter what comes after. -/
  patience : Option Nat := none
  nextProcess : Nat := 4243
  texts : List (Nat × Word) := []
  textCount : Nat := 0
  jobs : List Job := []
  /-- Signals that have been sent to other processes than the sender. -/
  sent : List (Nat × Nat) := []

structure State where
  session : Session
  world : World

/-- Why a script ends before its last command. -/
inductive Halt where
  | exit
  /-- Something was wrong that ends all but what stands by itself. -/
  | failed
  | killed (process signal : Nat)
  | endless
  /-- The deadline has come. -/
  | late
  deriving DecidableEq

abbrev Step := ExceptT Halt (StateM State)

namespace Step

def session : Step Session := return (← get).session

def world : Step World := return (← get).world

def modifySession (f : Session → Session) : Step Unit := modify fun s => { s with session := f s.session }

def modifyWorld (f : World → World) : Step Unit := modify fun s => { s with world := f s.world }

def setStatus (code : Nat) : Step Unit := modifySession fun s => { s with status := code }

def status : Step Nat := return (← session).status

def surroundings : Step Surroundings := return ⟨(← session).directory, (← world).workspace⟩

def hasOption (c : Char) : Step Bool := return (← session).options.contains c

/-! Channels. -/

def openChannel (c : Channel) : Step Nat := do
  let n := (← world).channels.size
  modifyWorld fun w => { w with channels := w.channels.push c }
  return n

def setChannel (n : Nat) (c : Channel) : Step Unit :=
  modifyWorld fun w => { w with channels := w.channels.setIfInBounds n c }

/-- The data with some bytes written over it. -/
def overwritten (data : Bytes) (offset : Nat) (b : Bytes) : Bytes :=
  data.take offset ++ List.replicate (offset - data.length) 0 ++ b ++ data.drop (offset + b.length)

def writeChannel (n : Nat) (b : Bytes) : Step Unit := do
  let w ← world
  match w.channels[n]? with
  | some (.pipe pieces isEndless) => setChannel n (.pipe (b :: pieces) isEndless)
  | some (.file place offset appends) =>
    match w.workspace.readBytes place with
    | .ok old =>
      let old := old.toList
      let offset := if appends then old.length else offset
      match w.workspace.write place ⟨(overwritten old offset b).toArray⟩ with
      | .ok workspace =>
        modifyWorld fun w => { w with workspace }
        setChannel n (.file place (offset + b.length) appends)
      | .error _ => return
    | .error _ => return
  | _ => return

/-- What can be read from a channel. -/
def unread (n : Nat) : Step Source := do
  let w ← world
  match w.channels[n]? with
  | some (.pipe pieces isEndless) => return ⟨pieces.reverse.flatten, isEndless⟩
  | some (.file place offset _) =>
    match w.workspace.readBytes place with
    | .ok data => return ⟨data.toList.drop offset, false⟩
    | .error _ => return ⟨[], false⟩
  | some .zeros => return ⟨List.replicate endlessLength 0, true⟩
  | _ => return ⟨[], false⟩

/-- Passes over what has been read. -/
def consume (n count : Nat) : Step Unit := do
  match (← world).channels[n]? with
  | some (.pipe pieces isEndless) => setChannel n (.pipe [pieces.reverse.flatten.drop count] isEndless)
  | some (.file place offset appends) => setChannel n (.file place (offset + count) appends)
  | _ => return

def handle? (descriptor : Nat) : Step (Option Nat) := return (← session).handles.lookup descriptor

/-- Writes to a descriptor if it is open. -/
def emit (descriptor : Nat) (b : Bytes) : Step Bool := do
  match ← handle? descriptor with
  | some n =>
    if !b.isEmpty then writeChannel n b
    return true
  | none => return b.isEmpty

/-! Messages. -/

def warn (detail : String) : Step Unit := do
  let s ← session
  let about := match s.command with
    | some c => c ++ ": "
    | none => ""
  discard (emit 2 (bytesOf (s.name ++ ": " ++ toString s.line ++ ": " ++ about ++ detail ++ "\n")))

def failWith {α : Type} (code : Nat) (detail : String) : Step α := do
  warn detail
  setStatus code
  throw .failed

def fail {α : Type} (detail : String) : Step α := failWith 2 detail

/-! Variables. -/

def binding? (name : String) : Step (Option Variable) := return (← session).vars.lookup name

def value? (name : String) : Step (Option String) := return (← binding? name).bind (·.value)

def putVariable (name : String) (v : Variable) : Step Unit :=
  modifySession fun s =>
    let vars := if (s.vars.lookup name).isSome then s.vars.map fun w => if w.1 == name then (name, v) else w
      else s.vars ++ [(name, v)]
    { s with vars }

def setVariable (name value : String) : Step Unit := do
  let v := (← binding? name).getD {}
  if v.isReadonly then fail (name ++ ": is read only")
  let exports := v.isExported || (← hasOption 'a')
  putVariable name { v with value := some value, isExported := exports }
  if name == "OPTIND" then
    modifySession fun s => { s with optionIndex := max 1 ((natural? value).getD 1), optionOffset := 0 }

def dropVariable (name : String) : Step Unit := do
  if (← binding? name).any (·.isReadonly) then fail (name ++ ": is read only")
  modifySession fun s => { s with vars := s.vars.filter fun w => w.1 != name }

/-- Puts a variable back as it was. -/
def restore (name : String) (v : Option Variable) : Step Unit := do
  match v with
  | some v => putVariable name v
  | none => modifySession fun s => { s with vars := s.vars.filter fun w => w.1 != name }

def enterScope : Step Unit := modifySession fun s => { s with scopes := [] :: s.scopes }

/-- Remembers a variable until its scope is left. -/
def remember (name : String) : Step Unit := modifySession fun s =>
  match s.scopes with
  | scope :: rest => { s with scopes := ((name, s.vars.lookup name) :: scope) :: rest }
  | [] => s

def leaveScope : Step Unit := do
  match (← session).scopes with
  | scope :: rest =>
    scope.forM fun (name, v) => restore name v
    modifySession fun s => { s with scopes := rest }
  | [] => return

def bucketCount : Nat := 39

/-- Variables are listed by a number made from their names, and within one number as they came. -/
def bucket (name : String) : Nat :=
  ((bytesOf name).foldl (fun n b => n + b.toNat) (((bytesOf name).head?.getD 0).toNat * 16)) % bucketCount

/-- The variables that programs see. -/
def environment : Step (List (String × String)) := do
  let shown := (← session).vars.filterMap fun (name, v) => match v.value with
    | some value => if v.isExported then some (name, value) else none
    | none => none
  return (List.range bucketCount).flatMap fun n => shown.filter fun v => bucket v.1 == n

/-! Processes. -/

def newProcess : Step Nat := do
  let n := (← world).nextProcess
  modifyWorld fun w => { w with nextProcess := n + 1 }
  return n

/-- Whether something can still be written to the outermost streams. -/
def holdsOutput (s : Session) : Bool := s.isHeld || s.handles.any fun h => h.2 ≤ 1

def wait (milliseconds : Nat) : Step Unit := do
  let s ← session
  let w ← world
  let goal := w.clock + milliseconds
  let isLate := w.deadline.any (· < goal)
  let clock := if isLate then w.deadline.getD goal else goal
  let held := if holdsOutput s then max w.held clock else w.held
  set (State.mk s { w with clock, held })
  if isLate then throw .late
  if w.patience.any (· ≤ held) then throw .endless

/-- Signals that are ignored unless something else is said. -/
def isHarmless (signal : Nat) : Bool := [17, 18, 23, 28].contains signal

/-- Receives a signal: it may be trapped, ignored or fatal. -/
def receive (signal : Nat) : Step Unit := do
  let s ← session
  match if signal == 9 || signal == 19 then none else s.traps.lookup signal with
  | some "" => return
  | some _ => modifySession fun s => { s with pending := s.pending ++ [signal] }
  | none => if !isHarmless signal && signal != 0 then throw (.killed s.process signal)

/-- Receives what other processes have sent in the meantime. -/
def receiveSent : Step Unit := do
  let s ← session
  if s.copies == 0 then
    let mine := (← world).sent.filter fun m => m.1 == s.process
    if !mine.isEmpty then
      modifyWorld fun w => { w with sent := w.sent.filter fun m => m.1 != s.process }
      mine.forM fun m => receive m.2

/-- How a process ended. -/
inductive Ending where
  | exited
  | signalled (n : Nat)

/-- Runs something in another process and goes on in this one. Its status is kept. -/
def inProcess (begin : Session → Session) (a : Step Unit) : Step Ending := do
  let before ← session
  modifySession begin
  let inner ← session
  let (o, after) := a (← get)
  set { after with session := { before with status := after.session.status % 256 } }
  match o with
  | .ok () | .error .exit | .error .failed => return .exited
  | .error (.killed process signal) =>
    if process == inner.process && inner.copies == 0 then return .signalled signal
    else throw (.killed process signal)
  | .error h => throw h

/-- A copy of a process. It has the traps that ignore signals only. -/
def copied (s : Session) : Session :=
  { s with
    copies := s.copies + 1, isHeld := holdsOutput s, traps := s.traps.filter fun t => t.2 == "", pending := [] }

end Step

end QualityGate.Shell
