import QualityGate.Decimal.Numeral
import QualityGate.Git.Config
import QualityGate.Workspace.Tree

/-! A repository: what its own configuration says about it, and where its directory
is. -/

namespace QualityGate.Git

/-! The version of its format, the extensions in use, and where its files are worked on. -/

def chars (s : String) : List Char := s.toList

def lowered (cs : List Char) : String := String.ofList (cs.map Char.toLower)

/-- A whole number in base eight, ten or sixteen, perhaps in units of 1024. -/
def number? (cs : List Char) : Option Int :=
  let (negative, r) := Numeral.signed (cs.dropWhile isSpace)
  let (base, r) := match r with
    | '0' :: c :: h :: r => if c.toLower == 'x' && (Text.hexValue? h).isSome then (16, h :: r) else (8, '0' :: c :: h :: r)
    | '0' :: r => (8, '0' :: r)
    | r => (10, r)
  let isDigit (c : Char) : Bool := ((Text.hexValue? c).filter (· < base)).isSome
  let digits := r.takeWhile isDigit
  let unit? := match lowered (r.drop digits.length) with
    | "" => some 1
    | "k" => some 1024
    | "m" => some (1024 * 1024)
    | "g" => some (1024 * 1024 * 1024)
    | _ => none
  let n? := unit?.map fun unit => Numeral.withSign negative (Numeral.valueIn base digits * unit)
  if digits.isEmpty then none else n?.filter fun n => n.natAbs < 2147483648

/-- A name that stands alone is true. -/
def truth? (value : Option (List Char)) : Option Bool :=
  match value with
  | none => some true
  | some v => match lowered v with
    | "true" | "yes" | "on" => some true
    | "" | "false" | "no" | "off" => some false
    | _ => (number? v).map (· != 0)

structure Format where
  version : Option Int := none
  isBare : Option Bool := none
  worktree : Option (List Char) := none
  /-- Each worktree has a configuration of its own beside the common one. -/
  worktreeConfig : Bool := false
  /-- Extensions that need the second version of the format. -/
  later : Bool := false
  unknown : Bool := false

namespace Format

/-- Takes one setting into account; a value that makes no sense is not passed over. -/
def worktreeSetting (f : Format) (name : String) (value : Option (List Char)) : Option Format :=
  match name with
  | "core.bare" => (truth? value).map fun b => { f with isBare := some b }
  | "core.worktree" => value.map fun v => { f with worktree := some v }
  | _ => some f

def extension (f : Format) (name : String) (value : Option (List Char)) : Option Format :=
  match name with
  | "noop" => some f
  | "preciousobjects" => (truth? value).map fun _ => f
  | "partialclone" => value.map fun _ => f
  | "worktreeconfig" => (truth? value).map fun b => { f with worktreeConfig := b }
  | "noop-v1" => some { f with later := true }
  | "objectformat" =>
    if value == some (chars "sha1") || value == some (chars "sha256") then some { f with later := true } else none
  | _ => some { f with unknown := true }

def nameOf (k : Key) : String := String.ofList (k.group ++ '.' :: k.name)

/-- The format with what one worktree says about itself. -/
def withWorktree? (f : Format) (s : Settings) : Option Format :=
  s.foldlM (fun f e => f.worktreeSetting (nameOf e.1) e.2) f

def setting (f : Format) (k : Key) (value : Option (List Char)) : Option Format :=
  let name := nameOf k
  if name == "core.repositoryformatversion" then
    (value.bind number?).map fun n => { f with version := some n }
  else match (chars "extensions.").isPrefixOf (chars name) with
    | true => f.extension (String.ofList ((chars name).drop 11)) value
    | false => f.worktreeSetting name value

/-- Where the configuration says no version, it says nothing about the format. -/
def ofSettings? (s : Settings) : Option Format := do
  let f ← s.foldlM (fun f e => f.setting e.1 e.2) ({} : Format)
  some (if f.version.isSome then f else {})

/-- Whether a repository of this format can be used. -/
def isKnown (f : Format) : Bool :=
  match f.version with
  | none => true
  | some n => n ≤ 1 && (n ≤ 0 || !f.unknown) && (n != 0 || !f.later)

end Format

/-! The directory. -/

def startsWith (s first : String) : Bool := first.toList.isPrefixOf s.toList

/-- The directory that a pointer file names after its colon. -/
def pointed (w : Workspace) (project : Path) (content : List Char) : Outcome Path :=
  let target := Path.ofText (Text.trimString (String.ofList ((content.dropWhile (· != ':')).drop 1)))
  if target.isAbsolute then .ok target else w.resolve (project.join target)

/-- The repository's directory: the entry `.git`, or the directory that it points to. -/
def directory? (w : Workspace) (project : Path) : Outcome (Option Path) :=
  let p := project.child ".git"
  if w.isDirectory p then .ok (some p)
  else if w.isFile p then do
    let content := Text.trim (← w.readText p)
    if "gitdir:".toList.isPrefixOf content then
      let target ← pointed w project content
      .ok (if w.isDirectory target then some target else none)
    else .ok none
  else .ok none

def hooksDirectory? (w : Workspace) (project : Path) : Outcome (Option Path) := do
  .ok ((← directory? w project).map (·.child "hooks"))

/-! The configuration is looked for where the tool itself looks: in the nearest
repository at or above the directory. The search stops for good at a repository
that is broken. -/

/-- A directory with what all its worktrees have in common, which may stand elsewhere. -/
structure Repository where
  directory : Path
  common : Path

/-- What a search found. -/
inductive Found (α : Type) where
  | here (a : α)
  | nothing
  | broken

def isHeadText (text : List Char) : Bool :=
  match text with
  | 'r' :: 'e' :: 'f' :: ':' :: r => (chars "refs/").isPrefixOf (r.dropWhile isSpace)
  | s => 40 ≤ (s.takeWhile fun c => (Text.hexValue? c).isSome).length

/-- A head is a link into the references, or a file that names a reference or a commit. -/
def isHead (w : Workspace) (p : Path) : Bool :=
  match w.locateLink p with
  | .ok ⟨_, some (.link target)⟩ => startsWith target "refs/"
  | .ok ⟨_, some (.file data _)⟩ => isHeadText (ofBytes data)
  | _ => false

/-- A path in a file, without the line ends after it. -/
def pathIn (content : List Char) : Path :=
  let line := (content.reverse.dropWhile fun c => c == '\n' || c == '\r').reverse
  Path.ofText ((String.fromUTF8? (toBytes line)).getD "\x00")

/-- The common directory of a repository, which it may name in a file. -/
def common? (w : Workspace) (dir : Path) : Option Path :=
  let p := dir.child "commondir"
  if !w.contains p then some dir
  else match w.readBytes p with
    | .ok data => if data.isEmpty then none else (w.resolve (dir.join (pathIn (ofBytes data)))).toOption
    | .error _ => none

/-- Whether a directory is entered, or a file run. -/
def isEnterable (w : Workspace) (p : Path) : Bool :=
  match w.stat p with
  | .ok .directory => true
  | .ok (.file _ executable) => executable
  | _ => false

/-- A directory with a head, objects and references. -/
def repository (w : Workspace) (dir : Path) : Found Repository :=
  if !isHead w (dir.child "HEAD") then .nothing
  else match common? w dir with
    | none => .broken
    | some common =>
      if isEnterable w (common.child "objects") && isEnterable w (common.child "refs") then .here ⟨dir, common⟩
      else .nothing

/-- The repository that a file points to. -/
def pointedRepository (w : Workspace) (dir : Path) (content : List Char) : Found Repository :=
  let line := (content.reverse.dropWhile fun c => c == '\n' || c == '\r').reverse
  if !(chars "gitdir: ").isPrefixOf line || line.length < 9 then .broken
  else match repository w (dir.join (pathIn (line.drop 8))) with
    | .here r => .here r
    | _ => .broken

/-- The nearest repository: in the entry `.git` of a directory, or the directory itself. -/
def nearest (w : Workspace) : Nat → Path → Found Repository
  | 0, _ => .nothing
  | n + 1, dir =>
    let p := dir.child ".git"
    let inside := match w.stat p with
      | .ok (.file data _) => pointedRepository w dir (ofBytes data)
      | .ok .directory => repository w p
      | _ => .nothing
    match inside with
    | .nothing => match repository w dir with
      | .nothing => nearest w n dir.parent
      | found => found
    | found => found

end QualityGate.Git
