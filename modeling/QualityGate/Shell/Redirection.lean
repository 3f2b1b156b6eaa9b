import QualityGate.Shell.Expansion

/-! Redirections. All targets are filled in before the first file is opened. -/

namespace QualityGate.Shell

/-- Where a redirection leads. -/
inductive Goal where
  | file (name : String)
  | descriptor (n : Nat)
  | closed
  | text (w : Word)

/-- What stands in words is filled in at most this deep. -/
def wordDepth : Nat := 200

namespace Step

def goal (output : Option Script → Step Bytes) (r : Redirect) : Step Goal := do
  match r.kind with
  | .here number => return .text (((← world).texts.lookup number).getD [])
  | .duplicate =>
    match (← wordText output wordDepth r.target).toList with
    | ['-'] => return .closed
    | [c] => if c.isDigit then return .descriptor (c.toNat - 48) else fail "Syntax error: Bad fd number"
    | _ => fail "Syntax error: Bad fd number"
  | _ => return .file (← wordText output wordDepth r.target)

/-- Files that stand for open descriptors. -/
def descriptorFiles : List (String × Nat) :=
  [("/dev/stdin", 0), ("/dev/stdout", 1), ("/dev/stderr", 2)] ++
    (List.range 10).flatMap fun n => ["/dev/fd/", "/proc/self/fd/"].map fun d => (d ++ toString n, n)

/-- What is said about a file that cannot be opened, or cannot be made. -/
def openFault (isMade : Bool) (f : FileFault) : String :=
  match f with
  | .notFound | .notDirectory => if isMade then "Directory nonexistent" else "No such file"
  | f => f.text

def cannotOpen (file : String) (f : FileFault) : String := "cannot open " ++ file ++ ": " ++ openFault false f

def cannotMake (file : String) (f : FileFault) : String := "cannot create " ++ file ++ ": " ++ openFault true f

/-- A file that is read. -/
def openToRead (file : String) : Step (Except String Nat) := do
  let s ← surroundings
  match s.find file with
  | .ok .null => return .ok (← openChannel .null)
  | .ok .zeros => return .ok (← openChannel .zeros)
  | .ok (.program _) => return .ok (← openChannel (.pipe [] false))
  | .ok _ => return .ok (← openChannel (.file (s.place file) 0 false))
  | .error f => return .error (cannotOpen file f)

/-- A file that is written. It is made if there is none, and emptied unless it is kept. -/
def openToWrite (keeps appends mayReplace : Bool) (file : String) : Step (Except String Nat) := do
  let s ← surroundings
  match s.find file with
  | .ok .null | .ok .zeros => return .ok (← openChannel .null)
  | .ok .directory => return .error (cannotMake file .isDirectory)
  | found =>
    let isThere := match found with
      | .ok _ => true
      | .error _ => false
    if isThere && !mayReplace then return .error (cannotMake file .alreadyExists)
    let made := if isThere && keeps then .ok s.workspace else s.write file []
    match made with
    | .ok workspace =>
      modifyWorld fun w => { w with workspace }
      return .ok (← openChannel (.file (s.place file) 0 appends))
    | .error f => return .error (cannotMake file f)

/-- The channel that a redirection leads to, if it is not closed. -/
def openGoal (output : Option Script → Step Bytes) (kind : RedirectKind) (g : Goal) : Step (Except String (Option Nat)) := do
  match g with
  | .closed => return .ok none
  | .descriptor n => duplicate n
  | .text w =>
    let text := textOfGlyphs (← glyphs output false false wordDepth w)
    return .ok (some (← openChannel (.pipe [bytesOf text] false)))
  | .file name =>
    match descriptorFiles.lookup name with
    | some n => duplicate n
    | none =>
      let opened ← match kind with
        | .read => openToRead name
        | .readWrite => openToWrite true false true name
        | .append => openToWrite true true true name
        | .write => openToWrite false false (!(← hasOption 'C')) name
        | _ => openToWrite false false true name
      return opened.map some
where
  duplicate (n : Nat) : Step (Except String (Option Nat)) := do
    match ← handle? n with
    | some c => return .ok (some c)
    | none => return .error (toString n ++ ": Bad file descriptor")

def putHandle (descriptor : Nat) (channel : Option Nat) : Step Unit := modifySession fun s =>
  let others := s.handles.filter fun h => h.1 != descriptor
  { s with handles := channel.elim others fun c => (descriptor, c) :: others }

/-- Follows redirections one after the other, up to the first that is not possible. -/
def openAll (output : Option Script → Step Bytes) : List (Redirect × Goal) → Step Bool
  | [] => return true
  | (r, g) :: rest => do
    match ← openGoal output r.kind g with
    | .ok channel =>
      putHandle r.descriptor channel
      openAll output rest
    | .error detail =>
      warn detail
      setStatus 2
      return false

/-- Runs something with redirections, if all of them are possible, and takes them back afterwards
unless they are `kept`. -/
def redirected (output : Option Script → Step Bytes) (rs : List Redirect) (kept : Bool) (a : Bool → Step Unit) :
    Step Unit := do
  if rs.isEmpty then a true
  else
    let goals ← rs.mapM (goal output)
    let before ← session
    if !kept then modifySession fun s => { s with isHeld := holdsOutput s }
    try a (← openAll output (rs.zip goals))
    finally if !kept then modifySession fun s => { s with handles := before.handles, isHeld := before.isHeld }

end Step

end QualityGate.Shell
