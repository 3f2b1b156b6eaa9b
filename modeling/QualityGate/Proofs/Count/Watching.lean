import Mathlib
import QualityGate.Count.Monitor
import QualityGate.Proofs.Trace

/-! Requests, counts and stops in any order. Jobs take their turns when they like, a count may end at any time
with anything, and what a stop waits for goes on meanwhile. -/

namespace QualityGate

namespace Monitor

/-- Whether a change asks for a count: it does when it comes directly, and as an event when that is listened for. -/
def heeds (m : Monitor) (via : Option Event) : Bool :=
  via.all fun e => m.isSubscribed && EventKind.diagnosticsChanged.covers e.kind

/-- A change that comes directly or as an event. -/
def receive (m : Monitor) : Option Event → Monitor
  | none => m.notify
  | some e => m.hear e

/-- A stop that is over no longer knows the changes it has not waited for: nobody stops them, as nobody stops a caller. -/
def forget (m : Monitor) : Monitor :=
  { m with jobs := m.jobs.map fun j => if j.cause == .change && j.phase != .finished then { j with cause := .caller } else j }

/-- How many subscribers a bus has that has some others. -/
def subscribers (others : Nat) (m : Monitor) : Nat := if m.isSubscribed then others + 1 else others

end Monitor

namespace Watching

def numbers (c : ErrorCount) : Int × Int × Int × Int :=
  (c.typeCheckErrors, c.typeCheckWarnings, c.lintErrors, c.lintWarnings)

/-- What is made known of a count, given the latest counts before it: its own and those. -/
def newsOf (previous : Option ErrorCount) : Outcome ErrorCount → Option (ErrorCount × Option ErrorCount)
  | .ok c => if previous.map numbers = some (numbers c) then none else some (c, previous)
  | .error _ => none

structure State where
  monitor : Monitor := {}
  /-- The stops under way, and what each of them waits for. -/
  stops : List (Nat × List Nat) := []
  /-- How many stops have begun. -/
  begun : Nat := 0
  /-- Whether subscribers are being told what the count of a change came to. -/
  isTelling : Bool := false

inductive Deed where
  /-- A request that waits for its turn, and the event it came as. -/
  | asked (id : Nat) (cause : CountCause) (via : Option Event)
  /-- A change that is dropped at once. -/
  | refused (via : Option Event)
  | heard (e : Event)
  | started (id : Nat)
  /-- The turn of a request. -/
  | began (id : Nat)
  | dropped (id : Nat)
  | calledOff (id : Nat)
  /-- The end of a count, and what is made known of it. -/
  | completed (id : Nat) (o : Outcome ErrorCount) (news : Option (ErrorCount × Option ErrorCount))
  | cut (id : Nat)
  /-- A count that goes on although it was asked to stop. -/
  | spared (id : Nat)
  /-- The end of the timer between two counts. -/
  | left (id : Nat)
  | stopping (k : Nat)
  | stopped (k : Nat)

inductive Step : State → Deed → State → Prop where
  | poll {m : Monitor} {stops : List (Nat × List Nat)} {n : Nat} {t : Bool} :
    Step ⟨m, stops, n, t⟩ (.asked m.jobs.length .caller none) ⟨m.enqueue .caller, stops, n, t⟩
  | accept {m : Monitor} {stops : List (Nat × List Nat)} {n : Nat} {t : Bool} {via : Option Event}
    (hvia : m.heeds via = true) (h : m.dropsChange = false) :
    Step ⟨m, stops, n, t⟩ (.asked m.jobs.length .change via) ⟨m.receive via, stops, n, t⟩
  | refuse {m : Monitor} {stops : List (Nat × List Nat)} {n : Nat} {t : Bool} {via : Option Event}
    (hvia : m.heeds via = true) (h : m.dropsChange = true) :
    Step ⟨m, stops, n, t⟩ (.refused via) ⟨m.receive via, stops, n, t⟩
  /-- A change that is over but for the telling is in the way of another. -/
  | echo {m : Monitor} {stops : List (Nat × List Nat)} {n : Nat} {via : Option Event} (hvia : m.heeds via = true) :
    Step ⟨m, stops, n, true⟩ (.refused via)
      ⟨{ m with dropped := m.dropped + 1, published := m.published ++ via.toList }, stops, n, true⟩
  | overhear {m : Monitor} {stops : List (Nat × List Nat)} {n : Nat} {t : Bool} {e : Event}
    (he : m.heeds (some e) = false) : Step ⟨m, stops, n, t⟩ (.heard e) ⟨m.hear e, stops, n, t⟩
  | start {m : Monitor} {n : Nat} {t : Bool} (h : m.isRunning = false) :
    Step ⟨m, [], n, t⟩ (.started m.jobs.length) ⟨m.begin, [], n, false⟩
  | tick {m : Monitor} {stops : List (Nat × List Nat)} {n : Nat} {t : Bool} {j : Job} (hj : j ∈ m.jobs)
    (h : j.phase = .sleeping) : Step ⟨m, stops, n, t⟩ (.asked j.id .timer none) ⟨m.tick, stops, n, false⟩
  | begin {m : Monitor} {stops : List (Nat × List Nat)} {n : Nat} {t : Bool} {j : Job} (hj : j ∈ m.jobs)
    (h : j.phase = .queued) (hc : j.isCancelled = false) (hb : m.isBusy = false) :
    Step ⟨m, stops, n, t⟩ (.began j.id) ⟨m.start j, stops, n, false⟩
  | drop {m : Monitor} {stops : List (Nat × List Nat)} {n : Nat} {t : Bool} {j : Job} (hj : j ∈ m.jobs)
    (h : j.phase = .queued) (hc : j.isCancelled = false) (hb : m.isBusy = true) :
    Step ⟨m, stops, n, t⟩ (.dropped j.id) ⟨m.start j, stops, n, false⟩
  | callOff {m : Monitor} {stops : List (Nat × List Nat)} {n : Nat} {t : Bool} {j : Job} (hj : j ∈ m.jobs)
    (h : j.phase = .queued) (hc : j.isCancelled = true) :
    Step ⟨m, stops, n, t⟩ (.calledOff j.id) ⟨m.start j, stops, n, false⟩
  | complete {m : Monitor} {stops : List (Nat × List Nat)} {n : Nat} {t : Bool} {j : Job} (hj : j ∈ m.jobs)
    (h : j.phase = .counting) (hc : j.isCancelled = false) (o : Outcome ErrorCount) :
    Step ⟨m, stops, n, t⟩ (.completed j.id o (newsOf m.latest o))
      ⟨m.complete j o, stops, n, j.cause == .change && (newsOf m.latest o).isSome⟩
  | cut {m : Monitor} {stops : List (Nat × List Nat)} {n : Nat} {t : Bool} {j : Job} (hj : j ∈ m.jobs)
    (h : j.phase = .counting) (hc : j.isCancelled = true) (o : Outcome ErrorCount) :
    Step ⟨m, stops, n, t⟩ (.cut j.id) ⟨m.complete j o, stops, n, false⟩
  | spare {m : Monitor} {stops : List (Nat × List Nat)} {n : Nat} {t : Bool} {j : Job} (hj : j ∈ m.jobs)
    (h : j.phase = .counting) :
    Step ⟨m, stops, n, t⟩ (.spared j.id) ⟨m.update j.id fun j => { j with isCancelled := false }, stops, n, false⟩
  | leave {m : Monitor} {stops : List (Nat × List Nat)} {n : Nat} {t : Bool} {j : Job} (hj : j ∈ m.jobs)
    (h : j.phase = .sleeping) (hc : j.isCancelled = true) :
    Step ⟨m, stops, n, t⟩ (.left j.id) ⟨m.update j.id fun j => { j with phase := .finished }, stops, n, false⟩
  | stop {m : Monitor} {stops : List (Nat × List Nat)} {n : Nat} {t : Bool} :
    Step ⟨m, stops, n, t⟩ (.stopping n)
      ⟨m.cancel, stops ++ [(n, (m.jobs.filter Monitor.isOwn).map Job.id)], n + 1, false⟩
  | stopped {m : Monitor} {l r : List (Nat × List Nat)} {k n : Nat} {own : List Nat} {t : Bool}
    (h : ∀ j ∈ m.jobs, j.id ∈ own → j.phase = .finished) :
    Step ⟨m, l ++ (k, own) :: r, n, t⟩ (.stopped k) ⟨m.forget, l ++ r, n, false⟩

/-! What deeds add up to. -/

/-- The counts in progress, given those before a deed. -/
def Deed.counting (l : List Nat) : Deed → List Nat
  | .began id => id :: l
  | .completed id .. | .cut id => l.erase id
  | _ => l

def Deed.asks (id : Nat) : Deed → Bool
  | .asked id' .. | .started id' => id' == id
  | _ => false

def Deed.answers (id : Nat) : Deed → Bool
  | .began id' | .dropped id' | .calledOff id' => id' == id
  | _ => false

def Deed.begins : Deed → Bool
  | .began _ => true
  | _ => false

def Deed.drops : Deed → Bool
  | .dropped _ | .refused _ => true
  | _ => false

def Deed.success? : Deed → Option ErrorCount
  | .completed _ o _ => o.toOption
  | _ => none

def Deed.news? : Deed → Option (ErrorCount × Option ErrorCount)
  | .completed _ _ news => news
  | _ => none

def Deed.published? : Deed → Option Event
  | .asked _ _ via | .refused via => via
  | .heard e => some e
  | .completed _ _ news => news.map fun (c, previous) => .countsChanged c previous
  | _ => none

/-- The job that ends as it was asked to stop. -/
def Deed.cancelled? : Deed → Option Nat
  | .calledOff id | .cut id | .left id => some id
  | _ => none

/-- The job of the timer or of a change that begins to exist. -/
def Deed.created? : Deed → Option Nat
  | .asked id .change _ | .started id => some id
  | _ => none

/-- The timer, or a change that came as an event: what begins to exist because the monitor was started. -/
def Deed.owned? : Deed → Option Nat
  | .asked id .change (some _) | .started id => some id
  | _ => none

/-- The counts that are begun and not ended. -/
def countingAfter (ds : List Deed) : List Nat := ds.foldl Deed.counting []

def latestIn (ds : List Deed) : Option ErrorCount := (ds.filterMap Deed.success?).getLast?

/-- What was made known of the counts, the earliest first. -/
def newsIn (ds : List Deed) : List (ErrorCount × Option ErrorCount) := ds.filterMap Deed.news?

def isCounting (j : Job) : Bool := j.phase == .counting

def waits (id : Nat) (j : Job) : Bool := j.id == id && j.phase == .queued

def isTiming (j : Job) : Bool := j.cause == .timer && j.phase != .finished

/-- No stop is under way. -/
def Quiet (ds : List Deed) : Prop := ∀ k, .stopping k ∈ ds → .stopped k ∈ ds

/-- The timer or a change was made, and no stop that was under way then is over: such a stop has forgotten the change. -/
def Remembered (ds : List Deed) (id : Nat) : Prop :=
  ∃ pre d post, ds = pre ++ d :: post ∧ d.created? = some id ∧
    ∀ k, .stopping k ∈ pre → .stopped k ∈ post → .stopped k ∈ pre

/-- The timer or a change was made during a stop that is over. -/
def Forgotten (ds : List Deed) (id : Nat) : Prop :=
  ∃ pre d post k, ds = pre ++ d :: post ∧ d.created? = some id ∧ .stopping k ∈ pre ∧ .stopped k ∉ pre ∧
    .stopped k ∈ post

/-- The timer or a change was there when a stop began. -/
def Stopped (ds : List Deed) (id : Nat) : Prop :=
  ∃ pre k post, ds = pre ++ .stopping k :: post ∧ ∃ d ∈ pre, d.created? = some id

/-- What holds of the deeds so far and of the state they have led to. -/
structure Lawful (ds : List Deed) (x : State) : Prop where
  /-- At most one count is in progress. -/
  alone : (countingAfter ds).length ≤ 1
  busy : x.monitor.isBusy = true ↔ countingAfter ds ≠ []
  distinct : (x.monitor.jobs.map Job.id).Nodup
  /-- Every request is answered once, unless it waits still. -/
  answered : ∀ id, ds.countP (Deed.asks id) = ds.countP (Deed.answers id) + x.monitor.jobs.countP (waits id)
  begun : x.monitor.begun = ds.countP Deed.begins
  dropped : x.monitor.dropped = ds.countP Deed.drops
  /-- Only a stop cancels, and only the timer and the changes. -/
  cancelled : ∀ pre d post, ds = pre ++ d :: post → ∀ id, d.cancelled? = some id → Stopped pre id
  latest : x.monitor.latest = latestIn ds
  published : x.monitor.published = ds.filterMap Deed.published?
  /-- What is made known of a count is decided by the latest counts before it. -/
  told : ∀ pre id o news post, ds = pre ++ .completed id o news :: post → news = newsOf (latestIn pre) o
  apart : (newsIn ds).IsChain fun a b => numbers a.1 ≠ numbers b.1
  last : (newsIn ds).getLast?.map (fun a => numbers a.1) = (latestIn ds).map numbers
  /-- When a stop is over, the timer and the changes heard of before it have ended. -/
  ended : ∀ pre k post, ds = pre ++ .stopping k :: post → .stopped k ∈ post →
    ∀ d ∈ pre, ∀ id, d.owned? = some id → ∀ j ∈ x.monitor.jobs, j.id = id → j.phase = .finished
  /-- So have those that were asked for directly, unless an earlier stop has forgotten them. -/
  directEnded : ∀ pre k post, ds = pre ++ .stopping k :: post → .stopped k ∈ post →
    ∀ id, Remembered pre id → ∀ j ∈ x.monitor.jobs, j.id = id → j.phase = .finished

/-- A stop that is over has ended the timer and every change made before it. -/
def EndsAll (ds : List Deed) (x : State) : Prop :=
  ∀ pre k post, ds = pre ++ .stopping k :: post → .stopped k ∈ post →
    ∀ d ∈ pre, ∀ id, d.created? = some id → ∀ j ∈ x.monitor.jobs, j.id = id → j.phase = .finished

end Watching

end QualityGate
