import QualityGate.Settings.Config
import QualityGate.Workspace.Glob
import QualityGate.Workspace.Tree

/-! Which files of a workspace are scanned. -/

namespace QualityGate.Discovery

/-- The compiled patterns of a file selection. -/
structure Filter where
  included : List Glob
  excluded : List Glob

def Filter.ofSelection (s : FileSelection) : Outcome Filter := do
  let included ← Glob.compileAll s.included
  .ok ⟨included, ← Glob.compileAll s.excluded⟩

/-- Directories are entered unless they are always excluded or their path with a slash after it is. -/
def Filter.enters (f : Filter) (path name : String) : Bool :=
  !alwaysExcluded.contains name && !Glob.selects f.excluded (path ++ "/")

def Filter.takes (f : Filter) (path : String) : Bool :=
  Glob.selects f.included path && !Glob.selects f.excluded path

def pathOf (below : List String) : String := "/".intercalate below

/-- The chosen files at or below a directory, `below` being its components under the scanned root. A
link to a directory is neither a file nor entered; any other link is a file. -/
def scan (w : Workspace) (f : Filter) (root : List String) : Nat → List String → List (List String)
  | 0, _ => []
  | depth + 1, below =>
    (w.children (root ++ below)).flatMap fun (name, entry) =>
      let own := below ++ [name]
      match entry with
      | .directory => if f.enters (pathOf own) name then scan w f root depth own else []
      | .file .. => if f.takes (pathOf own) then [own] else []
      | .link _ =>
        if !w.isDirectory ⟨"/", root ++ own⟩ && f.takes (pathOf own) then [own] else []

def depthOf (w : Workspace) : Nat := w.entries.foldl (fun n e => max n e.1.length) 0

/-- The order of paths: component by component. -/
def comesBefore : List String → List String → Bool
  | [], _ => true
  | _ :: _, [] => false
  | a :: as, b :: bs => if a == b then comesBefore as bs else a < b

/-- The selected files below a directory, in the order of their paths. -/
def files (w : Workspace) (root : Path) (s : FileSelection) : Outcome (List Path) := do
  let f ← Filter.ofSelection s
  match w.locate root with
  | .ok ⟨place, some .directory⟩ =>
    .ok (((scan w f place (depthOf w + 1) []).mergeSort comesBefore).map fun below => root.join ⟨"", below⟩)
  | _ => .ok []

end QualityGate.Discovery
