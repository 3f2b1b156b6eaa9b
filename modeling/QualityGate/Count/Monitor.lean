import QualityGate.Event.Bus
import QualityGate.Failure

/-! Watching the counts. A count is asked for by a caller, by a change of the
editor's diagnostics or by a timer. Only one is in progress at a time: what
asks for another one meanwhile is dropped, and the next tick sees the newest
state anyway. -/

namespace QualityGate

/-- Who asked for a count. -/
inductive CountCause where
  | caller | change | timer
  deriving DecidableEq, Repr

inductive JobPhase where
  | queued
  | counting
  /-- The timer between two ticks. -/
  | sleeping
  | finished
  deriving DecidableEq, Repr

structure Job where
  id : Nat
  cause : CountCause
  phase : JobPhase := .queued
  isCancelled : Bool := false
  /-- What the count gave; none for a job that was dropped or stopped. -/
  result : Option (Outcome ErrorCount) := none

structure Monitor where
  latest : Option ErrorCount := none
  dropped : Nat := 0
  jobs : List Job := []
  isSubscribed : Bool := false
  /-- How many counts were begun. -/
  begun : Nat := 0
  published : List Event := []

namespace Monitor

def isBusy (m : Monitor) : Bool := m.jobs.any fun j => j.phase == .counting

def isRunning (m : Monitor) : Bool := m.jobs.any fun j => j.cause == .timer && j.phase != .finished

def job? (m : Monitor) (id : Nat) : Option Job := m.jobs.find? fun j => j.id == id

def update (m : Monitor) (id : Nat) (f : Job → Job) : Monitor :=
  { m with jobs := m.jobs.map fun j => if j.id == id then f j else j }

/-- Adds a job, which takes the number of jobs before it as its name. -/
def enqueue (m : Monitor) (cause : CountCause) : Monitor :=
  { m with jobs := m.jobs ++ [{ id := m.jobs.length, cause }] }

/-- A change is dropped while a count is in progress or another change waits. -/
def dropsChange (m : Monitor) : Bool :=
  m.isBusy || m.jobs.any fun j => j.cause == .change && j.phase != .finished

def notify (m : Monitor) : Monitor :=
  if m.dropsChange then { m with dropped := m.dropped + 1 } else m.enqueue .change

/-- Where a job goes once its count is over: the timer waits for its next tick. -/
def phaseAfter (j : Job) : JobPhase := if j.cause == .timer && !j.isCancelled then .sleeping else .finished

/-- Begins a job that is queued, unless it was stopped. -/
def start (m : Monitor) (j : Job) : Monitor :=
  if j.isCancelled then m.update j.id fun j => { j with phase := .finished }
  else if m.isBusy then
    { m.update j.id fun j => { j with phase := phaseAfter j } with dropped := m.dropped + 1 }
  else { m.update j.id fun j => { j with phase := .counting } with begun := m.begun + 1 }

/-- New counts are made known where their numbers differ from the ones before. -/
def learn (m : Monitor) (c : ErrorCount) : Monitor :=
  let isSame := m.latest.any fun p => p.sameNumbers c
  { m with
    latest := some c
    published := if isSame then m.published else m.published ++ [.countsChanged c m.latest] }

/-- Ends the count of a job with its outcome, or without one when the job was stopped. -/
def complete (m : Monitor) (j : Job) (o : Outcome ErrorCount) : Monitor :=
  if j.isCancelled then m.update j.id fun j => { j with phase := .finished }
  else
    let m := m.update j.id fun j => { j with phase := phaseAfter j, result := some o }
    match o with
    | .ok c => m.learn c
    | .error _ => m

/-- The timer's next tick. -/
def tick (m : Monitor) : Monitor :=
  { m with jobs := m.jobs.map fun j => if j.phase == .sleeping then { j with phase := .queued } else j }

/-- Subscribes to changes and starts the timer, whose first tick is at once. -/
def begin (m : Monitor) : Monitor :=
  if m.isRunning then m else { m.enqueue .timer with isSubscribed := true }

def isOwn (j : Job) : Bool := j.cause != .caller && j.phase != .finished

/-- Asks the timer and the changes to stop; callers get their counts. -/
def cancel (m : Monitor) : Monitor :=
  { m with
    isSubscribed := false
    jobs := m.jobs.map fun j => if isOwn j then { j with isCancelled := true } else j }

/-- An event from outside. -/
def hear (m : Monitor) (e : Event) : Monitor :=
  let m := { m with published := m.published ++ [e] }
  if m.isSubscribed && EventKind.diagnosticsChanged.covers e.kind then m.notify else m

end Monitor

/-! The order in which jobs go on: first come, first served. A count waits at a
gate while it is closed and then gives the value that is current. -/

structure Watch where
  monitor : Monitor := {}
  isOpen : Bool := true
  value : Outcome ErrorCount := .ok {}
  /-- The jobs that can go on, the first to do so first. -/
  ready : List Nat := []

namespace Watch

/-- Applies a change that may add jobs; those are ready to begin. -/
def adding (w : Watch) (f : Monitor → Monitor) : Watch :=
  let m := f w.monitor
  { w with
    monitor := m
    ready := w.ready ++ (m.jobs.drop w.monitor.jobs.length).map Job.id }

def advanceCounting (w : Watch) (j : Job) : Watch :=
  if w.isOpen || j.isCancelled then { w with monitor := w.monitor.complete j w.value } else w

def advanceQueued (w : Watch) (j : Job) : Watch :=
  let w := { w with monitor := w.monitor.start j }
  match w.monitor.job? j.id with
  | some j => if j.phase == .counting then w.advanceCounting j else w
  | none => w

def advance (w : Watch) (id : Nat) : Watch :=
  match w.monitor.job? id with
  | none => w
  | some j =>
    match j.phase with
    | .queued => w.advanceQueued j
    | .counting => w.advanceCounting j
    | .sleeping =>
      if j.isCancelled then { w with monitor := w.monitor.update id fun j => { j with phase := .finished } } else w
    | .finished => w

/-- Lets every job go on that can. -/
def settle (w : Watch) : Watch := w.ready.foldl advance { w with ready := [] }

def release (w : Watch) : Watch :=
  { w with
    isOpen := true
    ready := w.ready ++ (w.monitor.jobs.filter fun j => j.phase == .counting).map Job.id }

/-- Stops the timer and the changes, and waits until they have stopped. -/
def stop (w : Watch) : Watch :=
  let own := (w.monitor.jobs.filter fun j => Monitor.isOwn j && j.phase != .queued).map Job.id
  if w.monitor.jobs.any Monitor.isOwn then
    settle { w with monitor := w.monitor.cancel, ready := w.ready ++ own }
  else { w with monitor := w.monitor.cancel }

/-- The job that a caller's request adds. -/
def request (w : Watch) : Watch × Nat := (w.adding fun m => m.enqueue .caller, w.monitor.jobs.length)

end Watch

end QualityGate
