import QualityGate.Count.Basic
import QualityGate.Policy.Basic

/-! What is made known to subscribers, and a bus that delivers it in the order in
which they subscribed. A subscriber may act on the bus while it is served, and may
fail; a failure ends that subscriber's own turn only. -/

namespace QualityGate

inductive Event where
  /-- An event that says nothing. -/
  | plain
  | auditStarted (checks : List String) (totalFiles : Nat)
  | checkFinished (check : String) (issueCount : Nat)
  | auditFinished (report : Option Report)
  | countsChanged (current : ErrorCount) (previous : Option ErrorCount)
  | suspiciousZero (failedTools : List String)
  | diagnosticsChanged (files : List String)
  | policyTransition (state : PolicyState)

/-- The kinds of events. Every event is of kind `any`. -/
inductive EventKind where
  | any | auditStarted | checkFinished | auditFinished | countsChanged | suspiciousZero | diagnosticsChanged
  | policyTransition
  deriving DecidableEq, Repr

instance : Labelled EventKind where
  members := [.any, .auditStarted, .checkFinished, .auditFinished, .countsChanged, .suspiciousZero,
    .diagnosticsChanged, .policyTransition]
  label
    | .any => "Event"
    | .auditStarted => "AuditStarted"
    | .checkFinished => "CheckerFinished"
    | .auditFinished => "AuditFinished"
    | .countsChanged => "CountsChanged"
    | .suspiciousZero => "SuspiciousZero"
    | .diagnosticsChanged => "DiagnosticsChanged"
    | .policyTransition => "PolicyTransition"
  title := "EventKind"

def Event.kind : Event → EventKind
  | plain => .any
  | auditStarted .. => .auditStarted
  | checkFinished .. => .checkFinished
  | auditFinished _ => .auditFinished
  | countsChanged .. => .countsChanged
  | suspiciousZero _ => .suspiciousZero
  | diagnosticsChanged _ => .diagnosticsChanged
  | policyTransition _ => .policyTransition

def EventKind.covers (k : EventKind) (e : EventKind) : Bool := k == .any || k == e

/-! The bus. -/

inductive BusAction where
  | fail
  | subscribe (handle : String) (kind : EventKind) (actions : List BusAction)
  | unsubscribe (handle : String)
  | publish (kind : EventKind)
  deriving Inhabited

/-- What a subscriber wants to hear of and does when it does; `key` tells it from all others. -/
structure Subscription where
  key : Nat
  handle : String
  kind : EventKind
  actions : List BusAction

structure Bus where
  /-- The active subscriptions, the oldest first. -/
  subscriptions : List Subscription := []
  /-- The subscription that each handle stands for, active or not. -/
  handles : List (String × Nat) := []
  nextKey : Nat := 0
  /-- Who was served which kind of event, the earliest first. -/
  deliveries : List (String × EventKind) := []

namespace Bus

def isActive (b : Bus) (key : Nat) : Bool := b.subscriptions.any fun s => s.key == key

def subscribe (b : Bus) (handle : String) (kind : EventKind) (actions : List BusAction) : Bus :=
  { b with
    subscriptions := b.subscriptions ++ [⟨b.nextKey, handle, kind, actions⟩]
    handles := Schema.insertKey b.handles handle b.nextKey
    nextKey := b.nextKey + 1 }

/-- Ends the subscription of a handle; one that has ended already stays so. -/
def unsubscribe? (b : Bus) (handle : String) : Option Bus :=
  (b.handles.lookup handle).map fun key => { b with subscriptions := b.subscriptions.filter fun s => s.key != key }

/-- One action, and whether it succeeded; `publish` delivers an event. -/
def perform (publish : EventKind → Bus → Bus × Bool) (b : Bus) : BusAction → Bus × Bool
  | .fail => (b, false)
  | .subscribe handle kind actions => (b.subscribe handle kind actions, true)
  | .unsubscribe handle => ((b.unsubscribe? handle).getD b, (b.unsubscribe? handle).isSome)
  | .publish kind => publish kind b

/-- Actions up to the first that fails. -/
def performAll (publish : EventKind → Bus → Bus × Bool) (b : Bus) : List BusAction → Bus
  | [] => b
  | a :: rest =>
    match perform publish b a with
    | (b, true) => performAll publish b rest
    | (b, false) => b

/-- Serves those of the given subscriptions that are still active when their turn comes. -/
def deliver (publish : EventKind → Bus → Bus × Bool) (kind : EventKind) (b : Bus) : List Subscription → Bus
  | [] => b
  | s :: rest =>
    if b.isActive s.key && s.kind.covers kind then
      let b := { b with deliveries := b.deliveries ++ [(s.handle, kind)] }
      deliver publish kind (performAll publish b s.actions) rest
    else deliver publish kind b rest

/-- Delivers an event to all who are subscribed now. Events published by a subscriber are delivered
at once, nested at most `depth` deep; one nested deeper fails. -/
def publish : Nat → EventKind → Bus → Bus × Bool
  | 0, _, b => (b, false)
  | depth + 1, kind, b => (deliver (publish depth) kind b b.subscriptions, true)

def maxDepth : Nat := 200

/-- One step from outside; none for a handle that is unknown. -/
def step? (b : Bus) (a : BusAction) : Option Bus :=
  match perform (publish maxDepth) b a with
  | (b, true) => some b
  | (_, false) => none

end Bus

end QualityGate
