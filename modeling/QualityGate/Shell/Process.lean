import QualityGate.Shell.Redirection
import QualityGate.Shell.Builtin

/-! Processes: how a text is run in one, how it ends, and what others do in the
background. Running a single command is given. -/

namespace QualityGate.Shell

/-- How a command stands in a script. -/
structure Mode where
  /-- Its status is looked at, so that a failure does not end the script. -/
  isTested : Bool := false
  /-- Nothing else is done by its process. -/
  isFinal : Bool := false

abbrev Runner := Mode → Script → Step Unit

namespace Step

/-- Runs a text line by line. It has succeeded if there is no command in it. -/
def linesFrom (run : Runner) (m : Mode) : Nat → Bool → Reading → Step Unit
  | 0, _, _ => return
  | fuel + 1, hasRun, r => do
    let w ← world
    match Reader.line.run { r with texts := w.texts, textCount := w.textCount } with
    | .error e =>
      modifySession fun s => { s with line := e.line }
      fail e.detail
    | .ok (l, r) =>
      modifyWorld fun w => { w with texts := r.texts, textCount := r.textCount }
      match l with
      | .finished => if !hasRun then setStatus 0
      | .nothing => linesFrom run m fuel hasRun r
      | .script s isLast =>
        run { m with isFinal := m.isFinal && isLast } s
        if (← session).skip == .none then linesFrom run m fuel true r

def text (run : Runner) (m : Mode) (cs : List Char) : Step Unit := linesFrom run m (cs.length + 2) false { rest := cs }

/-- Does what has been trapped for signals that have come. The status is kept. -/
def answerSignals (run : Runner) : Step Unit := do
  receiveSent
  let s ← session
  if !s.pending.isEmpty && s.skip == .none then
    modifySession fun s => { s with pending := [], ending := some (s.ending.getD s.status) }
    s.pending.forM fun n => do
      match (← session).traps.lookup n with
      | some action => text run {} action.toList
      | none => return
      if (← session).skip == .none then setStatus s.status
    modifySession fun t => { t with ending := s.ending }

/-- Runs what has been trapped for the end of a process, whose status is kept. -/
def sayFarewell (run : Runner) : Step Unit := do
  let s ← session
  match s.traps.lookup 0 with
  | some action =>
    modifySession fun s =>
      { s with traps := s.traps.filter fun t => t.1 != 0, skip := .none, ending := some (s.ending.getD s.status) }
    try text run {} action.toList
    catch h => if h != .exit && h != .failed then throw h
    modifySession fun s => { s with status := s.ending.getD s.status }
  | none => return

/-- Runs something to the end of its process. -/
def ended (run : Runner) (a : Step Unit) : Step Unit := do
  try a
  catch h => if h != .exit && h != .failed then throw h
  sayFarewell run

/-- Says which signal has ended a process. -/
def report (e : Ending) : Step Unit := do
  match e with
  | .exited => return
  | .signalled n =>
    setStatus (128 + n)
    match signalText? n with
    | some s => discard (emit 2 (bytesOf (s ++ "\n")))
    | none => return

/-- Runs something for a limited time, and says whether it has come to its end. -/
def limited (milliseconds : Nat) (a : Step Unit) : Step Bool := do
  let before ← get
  let outer := before.world.deadline
  let goal := before.world.clock + milliseconds
  if outer.any (· ≤ goal) then
    a
    return true
  else
    modifyWorld fun w => { w with deadline := some goal }
    let (o, after) := a.run (← get)
    match o with
    | .ok () =>
      set { after with world := { after.world with deadline := outer } }
      return true
    | .error .late | .error .endless =>
      let held := if holdsOutput before.session then max after.world.held goal else after.world.held
      set (State.mk before.session { after.world with deadline := outer, clock := goal, held })
      return false
    | .error h =>
      set { after with world := { after.world with deadline := outer } }
      throw h

/-! The background. -/

def putJob (j : Job) : Step Unit :=
  modifyWorld fun w => { w with jobs := w.jobs.map fun k => if k.process == j.process then j else k }

/-- Runs a job, beside what else has happened since it was started, and says when it ended. Its status
is left in it. -/
def runJob (run : Runner) (j : Job) : Step Nat := do
  let before ← get
  putJob { j with status := some 0 }
  modifyWorld fun w => { w with clock := j.started }
  let body : Step Ending := inProcess (fun _ => j.session) (ended run (run ⟨false, true⟩ j.script))
  let act : Step Unit := do
    let status ← match ← body with
      | .exited => status
      | .signalled n => pure (128 + n)
    putJob { j with status := some status }
  match j.signal with
  | none => act
  | some (n, time) => if !(← limited (time - j.started) act) then putJob { j with status := some (128 + n) }
  let clock := (← world).clock
  modifyWorld fun w => { w with clock := max clock before.world.clock }
  modifySession fun _ => before.session
  return clock

def pendingJobs : Step (List Job) := return (← world).jobs.filter (·.status.isNone)

def finishJob (run : Runner) (j : Job) : Step Unit := do
  match (← world).jobs.find? fun k => k.process == j.process with
  | some j => if j.status.isNone then discard (runJob run j)
  | none => return

/-- Brings jobs to their end, and those that they leave behind. -/
def finishJobs (run : Runner) (concerns : Job → Bool) : Nat → Step Unit
  | 0 => return
  | fuel + 1 => do
    match (← pendingJobs).find? concerns with
    | some j =>
      finishJob run j
      finishJobs run concerns fuel
    | none => return

def jobLimit : Nat := 1000

/-- Lets all jobs end that do so up to some time. -/
def settle (run : Runner) (time : Nat) : Step Unit := do
  (← pendingJobs).forM fun j => do
    let before ← get
    match (runJob run j).run before with
    | (.ok clock, after) =>
      if clock ≤ time then set { after with world := { after.world with clock := before.world.clock } }
    | (.error _, _) => return

/-- The output of a script in a copy of this process, up to the end of all who can write to it. -/
def captured (run : Runner) (script : Option Script) : Step Bytes := do
  match script with
  | none => return []
  | some script =>
    let before ← status
    let n ← openChannel (.pipe [] false)
    let begin (s : Session) : Session := { copied s with handles := (1, n) :: s.handles.filter fun h => h.1 != 1 }
    let e ← inProcess begin (ended run (run ⟨false, true⟩ script))
    finishJobs run (fun j => j.session.handles.any fun h => h.2 == n) jobLimit
    report e
    modifySession fun s => { s with substituted := s.status, status := before }
    let found ← unread n
    setChannel n .null
    return found.bytes

/-- Leaves a script in the background. It has no input of its own. -/
def background (script : Script) : Step Unit := do
  let process ← newProcess
  let input ← openChannel .null
  let s ← session
  let inner : Session :=
    { copied s with isHeld := false, handles := (0, input) :: s.handles.filter fun h => h.1 != 0 }
  modifyWorld fun w => { w with jobs := w.jobs ++ [⟨process, inner, script, w.clock, none, none⟩] }
  modifySession fun s => { s with lastJob := some process, status := 0 }

/-- Waits for jobs of this process, or for all of them. -/
def awaitJobs (run : Runner) (words : List String) : Step Unit := do
  let s ← session
  let isOwn (j : Job) : Bool := j.session.process == s.process && j.session.copies == s.copies + 1
  if words.isEmpty then
    finishJobs run isOwn jobLimit
    setStatus 0
  else words.forM fun w => do
    let n ← number w
    match (← world).jobs.find? fun j => j.process == n && isOwn j with
    | none => setStatus 127
    | some j =>
      finishJob run j
      match (← world).jobs.find? fun k => k.process == n with
      | some ⟨_, _, _, _, status, signal⟩ =>
        let code := status.getD 0
        setStatus code
        match signal with
        | some (k, _) => if code == 128 + k then report (.signalled k)
        | none => return
      | none => return

end Step

end QualityGate.Shell
