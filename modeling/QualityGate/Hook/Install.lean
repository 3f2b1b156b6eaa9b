import QualityGate.Git.Repository
import QualityGate.Hook.Script

/-! Installing the hooks and removing them again. A hook of the user's own is
moved to a backup, and back when the managed one is removed. -/

namespace QualityGate.Hook

inductive Action where
  | installed | updated | unchanged
  deriving DecidableEq, Repr

instance : Labelled Action where
  members := [.installed, .updated, .unchanged]
  label
    | .installed => "installed"
    | .updated => "updated"
    | .unchanged => "unchanged"
  title := "Action"

structure Installed where
  kind : HookKind
  path : Path
  action : Action
  /-- Where a hook of the user's own went. -/
  backup : Option Path

def backupSuffix : String := ".bastion-backup"

def backupOf (p : Path) : Path := p.withName (p.name ++ backupSuffix)

def allKinds : List HookKind := [.preCommit, .prePush]

def isManagedFile (w : Workspace) (p : Path) : Bool :=
  w.isFile p &&
    match w.readText p with
    | .ok text => isManaged text
    | .error _ => false

/-- Makes the place of a hook free for a script: what stands there is kept if it is managed, and
moved to the backup otherwise, unless a backup is there already. -/
def makeRoom (p : Path) (script : String) : Edit (Action × Option Path) := do
  let w ← get
  if !w.contains p && !w.isLink p then return (.installed, none)
  else if isManagedFile w p then
    let text ← Edit.lift (w.readText p)
    return (if text == script.toList then .unchanged else .updated, none)
  else
    let backup := backupOf p
    if w.contains backup then
      throw (.hook (backup.text ++ " already exists; move it away before installing"))
    Edit.change (·.rename p backup)
    return (.installed, some backup)

def install (project : Path) (kind : HookKind) (level : EnforcementLevel) (tools : Tools) (sectionName : String) :
    Edit Installed := do
  match ← Edit.lift (Git.hooksDirectory? (← get) project) with
  | none => throw (.hook ("Not a git repository: " ++ project.text))
  | some dir => do
    Edit.change (·.createDirectories dir)
    let p := dir.child (Labelled.label kind)
    let text := script kind level tools sectionName
    let (action, backup) ← makeRoom p text
    Edit.change (·.writeText p text)
    Edit.change (·.makeExecutable p)
    return ⟨kind, p, action, backup⟩

/-- Installs hooks one after the other, up to the first that cannot be installed. -/
def installAll (project : Path) (level : EnforcementLevel) (tools : Tools) (sectionName : String)
    (kinds : List HookKind) : Edit (List Installed) :=
  kinds.mapM fun kind => install project kind level tools sectionName

/-- Removes one managed hook and puts its backup back. -/
def uninstall (p : Path) : Edit (Option Path) := do
  if !isManagedFile (← get) p then return none
  Edit.change (·.remove p)
  let backup := backupOf p
  if (← get).contains backup then Edit.change (·.rename backup p)
  return some p

/-- Removes managed hooks; all others are left alone. -/
def uninstallAll (project : Path) (kinds : List HookKind) : Edit (List Path) := do
  match ← Edit.lift (Git.hooksDirectory? (← get) project) with
  | none => return []
  | some dir => do
    let removed ← kinds.mapM fun kind => uninstall (dir.child (Labelled.label kind))
    return removed.filterMap id

end QualityGate.Hook
