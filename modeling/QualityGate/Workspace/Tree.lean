import QualityGate.Failure
import QualityGate.Workspace.Path

/-! The files around a workspace. Entries are kept by the components of their
paths; an entry's parents are directories. -/

namespace QualityGate

inductive Entry where
  | file (data : ByteArray) (executable : Bool)
  | directory
  | link (target : String)
  deriving Inhabited

/-- Relative paths start at `root`, an absolute path. It and all above it are directories. -/
structure Workspace where
  root : Path
  entries : List (List String × Entry) := []

namespace Workspace

/-- What stands at the end of a path, and where it stands once its links are followed. -/
structure Located where
  place : List String
  entry : Option Entry

def entryAt (w : Workspace) (place : List String) : Option Entry :=
  if place.isPrefixOf w.root.parts then some .directory else w.entries.lookup place

def linkLimit : Nat := 40

/-- Follows a path from a directory, component by component. A link is replaced by its target;
`links` bounds how many. Where the last component is a link and `followLast` is false, the link
itself is found. -/
def walk (w : Workspace) (followLast : Bool) (links : Nat) (dir : List String) (path : List String) :
    Except FileFault Located :=
  match path with
  | [] => .ok ⟨dir, some .directory⟩
  | ".." :: rest => walk w followLast links dir.dropLast rest
  | name :: rest =>
    let place := dir ++ [name]
    match w.entryAt place with
    | some .directory => walk w followLast links place rest
    | some (.link target) =>
      if rest.isEmpty && !followLast then .ok ⟨place, some (.link target)⟩
      else match links with
        | 0 => .error .tooManyLinks
        | links + 1 =>
          let t := Path.ofText target
          walk w followLast links (if t.isAbsolute then [] else dir) (t.parts ++ rest)
    | some entry => if rest.isEmpty then .ok ⟨place, some entry⟩ else .error .notDirectory
    | none => if rest.isEmpty then .ok ⟨place, none⟩ else .error .notFound
termination_by (links, path.length)

def absolute (w : Workspace) (p : Path) : Path := w.root.join p

def locate (w : Workspace) (p : Path) : Except FileFault Located := w.walk true linkLimit [] (w.absolute p).parts

def locateLink (w : Workspace) (p : Path) : Except FileFault Located := w.walk false linkLimit [] (w.absolute p).parts

/-- The entry at a path, its links followed. -/
def stat (w : Workspace) (p : Path) : Except FileFault Entry :=
  match w.locate p with
  | .ok ⟨_, some e⟩ => .ok e
  | .ok ⟨_, none⟩ => .error .notFound
  | .error f => .error f

def contains (w : Workspace) (p : Path) : Bool := (w.stat p).isOk

def isDirectory (w : Workspace) (p : Path) : Bool :=
  match w.stat p with
  | .ok .directory => true
  | _ => false

def isFile (w : Workspace) (p : Path) : Bool :=
  match w.stat p with
  | .ok (.file ..) => true
  | _ => false

def isLink (w : Workspace) (p : Path) : Bool :=
  match w.locateLink p with
  | .ok ⟨_, some (.link _)⟩ => true
  | _ => false

/-! Reading. -/

def readBytes (w : Workspace) (p : Path) : Outcome ByteArray :=
  match w.stat p with
  | .ok (.file data _) => .ok data
  | .ok _ => .error (.access .isDirectory p.text)
  | .error f => .error (.access f p.text)

def decoded (bytes : Outcome ByteArray) (decode : List UInt8 → Except EncodingFault (List Char)) :
    Outcome (List Char) := do
  let text ← (decode (← bytes).data.toList).mapError Failure.encoding
  .ok (Text.unifyNewlines text)

/-- The text of a file, each of its line ends a line feed. -/
def readText (w : Workspace) (p : Path) : Outcome (List Char) := decoded (w.readBytes p) Text.Utf8.decode

/-- The text of a file that may begin with a byte order mark. -/
def readMarkedText (w : Workspace) (p : Path) : Outcome (List Char) :=
  decoded (w.readBytes p) Text.Utf8.decodeMarked

/-! Changing. -/

def put (w : Workspace) (parts : List String) (e : Entry) : Workspace :=
  { w with entries := Schema.insertKey w.entries parts e }

def drop (w : Workspace) (parts : List String) : Workspace :=
  { w with entries := w.entries.filter fun x => x.1 != parts }

/-- Writes a file through any links. A file that was there keeps its permissions. -/
def write (w : Workspace) (p : Path) (data : ByteArray) : Outcome Workspace :=
  match w.locate p with
  | .ok ⟨place, some (.file _ executable)⟩ => .ok (w.put place (.file data executable))
  | .ok ⟨place, none⟩ => .ok (w.put place (.file data false))
  | .ok _ => .error (.access .isDirectory p.text)
  | .error f => .error (.access f p.text)

def writeText (w : Workspace) (p : Path) (s : String) : Outcome Workspace := w.write p s.toUTF8

/-- What happens when a directory is made at a place that is not free. -/
def createDirectoryAt (w : Workspace) (p : Path) (found : Except FileFault Located) : Outcome Workspace :=
  match found with
  | .ok ⟨place, none⟩ => .ok (w.put place .directory)
  | .ok _ => if w.isDirectory p then .ok w else .error (.access .alreadyExists p.text)
  | .error f => .error (.access f p.text)

/-- Creates a directory, and those above it where they are missing. -/
def createDirectories (w : Workspace) (p : Path) : Outcome Workspace := go p.parts.length p
where
  go : Nat → Path → Outcome Workspace
    | 0, q => w.createDirectoryAt q (w.locateLink q)
    | n + 1, q =>
      match w.locateLink q with
      | .error .notFound => do
        let w ← go n q.parent
        w.createDirectoryAt q (w.locateLink q)
      | found => w.createDirectoryAt q found

/-- Removes a file or a link. -/
def remove (w : Workspace) (p : Path) : Outcome Workspace :=
  match w.locateLink p with
  | .ok ⟨_, some .directory⟩ => .error (.access .isDirectory p.text)
  | .ok ⟨place, some _⟩ => .ok (w.drop place)
  | .ok ⟨_, none⟩ => .error (.access .notFound p.text)
  | .error f => .error (.access f p.text)

/-- Moves an entry with all below it. A file or link that stands in the new place is replaced. -/
def rename (w : Workspace) (p q : Path) : Outcome Workspace :=
  match w.locateLink p, w.locateLink q with
  | .ok ⟨source, some _⟩, .ok ⟨target, _⟩ =>
    let w := w.drop target
    .ok { w with entries := w.entries.map fun (parts, e) =>
      if source.isPrefixOf parts then (target ++ parts.drop source.length, e) else (parts, e) }
  | .ok ⟨_, none⟩, _ => .error (.access .notFound p.text)
  | .error f, _ => .error (.access f p.text)
  | _, .error f => .error (.access f p.text)

def makeExecutable (w : Workspace) (p : Path) : Outcome Workspace :=
  match w.locate p with
  | .ok ⟨place, some (.file data _)⟩ => .ok (w.put place (.file data true))
  | .ok ⟨_, some _⟩ => .ok w
  | .ok ⟨_, none⟩ => .error (.access .notFound p.text)
  | .error f => .error (.access f p.text)

/-- Puts an entry at a path, with the directories above it. Where that cannot be done nothing changes. -/
def add (w : Workspace) (p : Path) (e : Entry) : Workspace :=
  let added : Outcome Workspace := do
    let w ← w.createDirectories (w.absolute p).parent
    match e with
    | .file data executable => do
      let w ← w.write p data
      if executable then w.makeExecutable p else .ok w
    | .directory => w.createDirectories p
    | .link t => match w.locateLink p with
      | .ok l => .ok (w.put l.place (.link t))
      | .error _ => .ok w
  added.toOption.getD w

/-- The entries directly inside a directory, in the order of the tree. -/
def children (w : Workspace) (dir : List String) : List (String × Entry) :=
  w.entries.filterMap fun (parts, e) =>
    match parts.getLast? with
    | some name => if parts.dropLast == dir then some (name, e) else none
    | none => none

/-- The path once every link on it is followed; what does not exist stays as it is spelled. -/
def resolve (w : Workspace) (p : Path) : Outcome Path :=
  go linkLimit [] (w.absolute p).parts
where
  go (links : Nat) (dir path : List String) : Outcome Path :=
    match path with
    | [] => .ok ⟨"/", dir⟩
    | ".." :: rest => go links dir.dropLast rest
    | name :: rest =>
      match w.entryAt (dir ++ [name]) with
      | some (.link target) =>
        match links with
        | 0 => .error (.runtime ("Symlink loop from " ++ Plain.quoted (Path.text ⟨"/", dir ++ name :: rest⟩)))
        | links + 1 =>
          let t := Path.ofText target
          go links (if t.isAbsolute then [] else dir) (t.parts ++ rest)
      | _ => go links (dir ++ [name]) rest
  termination_by (links, path.length)

end Workspace

/-! Changes of the files that may fail part way; what was changed before stays
changed. -/

abbrev Edit := ExceptT Failure (StateM Workspace)

namespace Edit

def lift {α : Type} (o : Outcome α) : Edit α := liftM o

def change (f : Workspace → Outcome Workspace) : Edit Unit := do set (← lift (f (← get)))

end Edit

end QualityGate
