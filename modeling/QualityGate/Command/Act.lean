import QualityGate.Console.Markup
import QualityGate.Session

/-! What a command does: it works in a session, prints, and may end early. -/

namespace QualityGate.Command

inductive Ending where
  | exit (code : Nat)
  /-- A failure that the command does not report itself. -/
  | failed (e : Failure)

/-- A session with what has been printed in it, the last text first. -/
structure Console where
  session : Session
  printed : List String := []

abbrev Act := ExceptT Ending (StateM Console)

namespace Act

/-- Prints a text as it is. -/
def write (s : String) : Act Unit := modify fun c => { c with printed := s :: c.printed }

/-- Prints what a marked-up line shows. -/
def say (markup : String) : Act Unit := do
  match Console.shown (← get).session.terminal markup with
  | .ok s => write (s ++ "\n")
  | .error e => throw (.failed e)

def attempt {α : Type} (r : Run α) : Act (Outcome α) := fun c =>
  let (o, session) := r c.session
  (.ok o, { c with session })

def perform {α : Type} (r : Run α) : Act α := do
  match ← attempt r with
  | .ok a => return a
  | .error e => throw (.failed e)

/-- Failures of the gate's own are reported after a heading, and end the command. -/
def reporting {α : Type} (heading : String) (r : Run α) : Act α := do
  match ← attempt r with
  | .ok a => return a
  | .error e =>
    if e.isGateFailure then
      say (heading ++ e.message)
      throw (.exit 1)
    else throw (.failed e)

def workspace : Act Workspace := do return (← get).session.workspace

end Act

end QualityGate.Command
