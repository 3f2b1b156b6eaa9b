import QualityGate.Json.Reader
import QualityGate.Policy.Basic
import QualityGate.Workspace.Tree

/-! The saved state of protection. -/

namespace QualityGate.PolicyStore

/-- The saved state, or the state without protection where none was saved. -/
def load (w : Workspace) (p : Path) : Outcome PolicyState := do
  if !w.contains p then .ok {}
  else
    let text ← w.readText p
    match Json.read text with
    | .error _ => .error (.configInvalid p.text (.faults "PolicyState" []))
    | .ok v => (PolicyState.reader (.ofJson v)).mapError fun fs => .configInvalid p.text (.faults "PolicyState" fs)

def text (s : PolicyState) : String := s.toJson.text (Json.indented 2)

def save (p : Path) (s : PolicyState) (w : Workspace) : Outcome Workspace := do
  (← w.createDirectories p.parent).writeText p (text s)

def clear (p : Path) (w : Workspace) : Outcome Workspace :=
  match w.remove p with
  | .error (.access .notFound _) => .ok w
  | r => r

end QualityGate.PolicyStore
