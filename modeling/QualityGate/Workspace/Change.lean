import QualityGate.Workspace.Tree

/-! What turns one tree of files into another, in an order in which it can be
done: nothing is made in a place before what stood there is gone, nor below a
directory before the directory. -/

namespace QualityGate

inductive Change where
  | removeFile (p : Path)
  | removeDirectory (p : Path)
  | makeDirectory (p : Path)
  | write (p : Path) (data : ByteArray) (executable : Bool)

/-- Links count as files here: what they lead to is not looked at. -/
def Entry.isDirectory : Entry → Bool
  | directory => true
  | _ => false

namespace Workspace

def placePath (place : List String) : Path := ⟨"/", place⟩

/-- Whether an entry of the one kind stands at a place, and none of that kind in the other tree. -/
def lostAt (after : Workspace) (place : List String) (e : Entry) : Bool :=
  match after.entryAt place with
  | some f => e.isDirectory != f.isDirectory
  | none => true

def removals (before after : Workspace) : List Change :=
  let lost := (before.entries.filter fun (place, e) => after.lostAt place e).mergeSort
    fun x y => y.1.length ≤ x.1.length
  lost.map fun (place, e) =>
    if e.isDirectory then .removeDirectory (placePath place) else .removeFile (placePath place)

def makings (before after : Workspace) : List Change :=
  let made := (after.entries.filter fun (place, e) => e.isDirectory && before.lostAt place e).mergeSort
    fun x y => x.1.length ≤ y.1.length
  made.map fun (place, _) => .makeDirectory (placePath place)

def writings (before after : Workspace) : List Change :=
  after.entries.filterMap fun (place, e) =>
    match e, before.entryAt place with
    | .file data executable, some (.file old wasExecutable) =>
      if data.data == old.data && executable == wasExecutable then none
      else some (.write (placePath place) data executable)
    | .file data executable, _ => some (.write (placePath place) data executable)
    | _, _ => none

def changes (before after : Workspace) : List Change :=
  removals before after ++ makings before after ++ writings before after

end Workspace

end QualityGate
