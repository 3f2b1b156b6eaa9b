import QualityGate.Console.Markup
import QualityGate.Event.Bus
import QualityGate.Tool.Bench
import QualityGate.Workspace.Discovery
import QualityGate.Workspace.Tree
import QualityGate.Git.Store

/-! All that a run reads and changes: the files, the tools, the events it has
published and the time, and where it shows something. A run that fails keeps
what it has changed. -/

namespace QualityGate

structure Session where
  workspace : Workspace
  bench : Bench := {}
  git : Git.Command := {}
  events : List Event := []
  now : Timestamp
  terminal : Console.Terminal := {}

abbrev Run := ExceptT Failure (StateM Session)

namespace Run

def lift {α : Type} (o : Outcome α) : Run α := liftM o

/-- The outcome of a run, as a value that the rest can look at. -/
def attempt {α : Type} (t : Run α) : Run (Outcome α) := fun s => let (o, s) := t s; (.ok o, s)

def workspace : Run Workspace := do return (← get).workspace

def publish (e : Event) : Run Unit := modify fun s => { s with events := s.events ++ [e] }

def call (c : ToolCall) : Run ToolResult := fun s =>
  let (reply, bench) := s.bench.call c
  (reply, { s with bench })

def edit {α : Type} (e : Edit α) : Run α := fun s =>
  let (o, w) := e s.workspace
  (o, { s with workspace := w })

end Run

end QualityGate
