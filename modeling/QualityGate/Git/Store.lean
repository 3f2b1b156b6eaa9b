import QualityGate.Git.Repository

/-! Reading and writing the configuration of the repository around a directory. -/

namespace QualityGate.Git

/-- How deep files may include each other. -/
def deepestInclude : Nat := 10

/-- The file that an entry includes, relative to the one it stands in. -/
def included? (file : Path) (k : Key) (value : List Char) : Option Path :=
  if k == ⟨chars "include", chars "path"⟩ && value.head? != some '~' then some (file.parent.join (pathIn value)) else none

/-- The settings of a text, those of included files among them. -/
def withIncluded? (w : Workspace) : Nat → Path → List Char → Option Settings
  | 0, _, _ => none
  | depth + 1, file, text => do
    let parts ← (← settings? text).mapM fun (k, value) =>
      if k == ⟨chars "include", chars "path"⟩ && value.isNone then none
      else match value.bind (included? file k) with
        | none => some [(k, value)]
        | some p =>
          if !w.contains p then some [(k, value)]
          else do
            let data ← (w.readBytes p).toOption
            some ((k, value) :: (← withIncluded? w depth p (ofBytes data)))
    some parts.flatten

/-- A file that is missing is empty. -/
def fileText? (w : Workspace) (p : Path) : Option (List Char) :=
  if w.contains p then (w.readBytes p).toOption.map ofBytes else some []

def configFile (r : Repository) : Path := r.common.child "config"

def worktreeFile (r : Repository) : Path := r.directory.child "config.worktree"

/-- The directory where the files are worked on has to be there, unless there is none to be had. -/
def hasWorktree (w : Workspace) (r : Repository) (f : Format) : Bool :=
  match f.worktree with
  | none => true
  | some path =>
    let p := pathIn path
    f.isBare == some true || !path.isEmpty && (if p.isAbsolute then w.isDirectory p.parent else w.isDirectory (r.directory.join p))

/-- The format of a repository, if it can be used. -/
def format? (w : Workspace) (r : Repository) : Option Format := do
  let common ← Format.ofSettings? (← settings? (← fileText? w (configFile r)))
  let f ← if common.worktreeConfig then common.withWorktree? (← settings? (← fileText? w (worktreeFile r)))
    else if r.common == r.directory then some common
    else some { common with isBare := none, worktree := none }
  if f.isKnown && hasWorktree w r f then some f else none

/-- The repository around a directory, and its format. -/
def around? (w : Workspace) (dir : Path) : Option (Repository × Format) :=
  let dir := w.absolute dir
  match nearest w (dir.parts.length + 1) dir with
  | .here r => (format? w r).map fun f => (r, f)
  | _ => none

/-- All that the configuration of a repository says, that of the worktree last. -/
def allSettings? (w : Workspace) (r : Repository) (f : Format) : Option Settings := do
  let read (p : Path) : Option Settings := do withIncluded? w (deepestInclude + 1) p (← fileText? w p)
  some ((← read (configFile r)) ++ (← if f.worktreeConfig then read (worktreeFile r) else some []))

/-- A key that would be taken for an option of the command is refused. -/
def isOption (key : String) : Bool := startsWith key "-"

def value? (w : Workspace) (dir : Path) (key : String) : Option (List Char) := do
  if isOption key then none
  let k ← Key.ofChars? (bytesOf key)
  let (r, f) ← around? w dir
  (← allSettings? w r f).value? k

/-- The configuration is written only where all of it can be read. -/
def withValueAt? (w : Workspace) (dir : Path) (key value : String) : Option Workspace := do
  if isOption key then none
  let (r, f) ← around? w dir
  discard (allSettings? w r f)
  let p := configFile r
  let lock ← match w.locate p with
    | .ok ⟨place, _⟩ => some (⟨"/", place⟩ : Path)
    | .error _ => none
  if (w.locateLink (lock.withName (lock.name ++ ".lock"))).toOption.any (·.entry.isSome) then none
  let text ← withValue? (← fileText? w p) (bytesOf key) (bytesOf value)
  (w.write p (toBytes text)).toOption

def truth (b : Bool) : String := if b then "true" else "false"

def protectionKey (sectionName : String) : String := sectionName ++ ".protection-mode"

def strictKey (sectionName : String) : String := sectionName ++ ".strict-mode"

/-- The command that reads and writes the configuration. Where it is missing, nothing is set. -/
structure Command where
  isInstalled : Bool := true

namespace Command

/-- A command is run in a directory, and no argument of it may hold a NUL. -/
def start (w : Workspace) (dir : Path) (arguments : List String) : Outcome Bool :=
  if arguments.any fun a => a.toList.contains '\x00' then .error (.badValue "embedded null byte")
  else match w.stat dir with
    | .ok .directory => .ok true
    | .error .notFound => .ok false
    | .ok _ | .error .notDirectory => .error (.access .notDirectory dir.text)
    | .error f => .error (.access f dir.text)

def config? (c : Command) (w : Workspace) (dir : Path) (key : String) : Outcome (Option String) := do
  if !(← start w dir [key]) || !c.isInstalled then .ok none
  else match value? w dir key with
    | none => .ok none
    | some v => do
      let cs ← (Text.Utf8.decode (toBytes v).toList).mapError Failure.encoding
      .ok (some (String.ofList (Text.trim (Text.unifyNewlines cs))))

/-- Whether the value could be set. -/
def setConfig (c : Command) (dir : Path) (key value : String) : Edit Bool := do
  let started ← Edit.lift (start (← get) dir [key, value])
  let w ← get
  match if started && c.isInstalled then withValueAt? w dir key value else none with
  | some w =>
    set w
    return true
  | none => return false

/-- Sets the two keys that the hooks read; both are tried. -/
def configureProtection (c : Command) (dir : Path) (sectionName : String) (protection strict : Bool) : Edit Bool := do
  let first ← c.setConfig dir (protectionKey sectionName) (truth protection)
  let second ← c.setConfig dir (strictKey sectionName) (truth strict)
  return second && first

end Command

end QualityGate.Git
