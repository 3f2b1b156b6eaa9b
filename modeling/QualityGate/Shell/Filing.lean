import QualityGate.Shell.Program

/-! Programs that show and change files. -/

namespace QualityGate.Shell.Filing

open Program Options

/-- Where a path is in the tree of a workspace, its last link not followed. -/
def located (s : Surroundings) (file : String) : Except FileFault Workspace.Located :=
  if file == "" then .error .notFound
  else match s.workspace.locateLink (s.place file) with
    | .ok l =>
      match l.entry with
      | some (.file ..) => if asksDirectory file then .error .notDirectory else .ok l
      | _ => .ok l
    | .error f => .error f

/-- What stands at a path, its last link not followed. -/
def entry (s : Surroundings) (file : String) : Except FileFault Entry :=
  match located s file with
  | .ok ⟨_, some e⟩ => .ok e
  | .ok ⟨_, none⟩ => .error .notFound
  | .error f => .error f

def isThere (s : Surroundings) (file : String) : Bool := (s.find file).isOk || (entry s file).isOk

def attempt (w : Outcome Workspace) (report : FileFault → Program Unit) : Program Unit :=
  match w with
  | .ok w => change w
  | .error (.access f _) => report f
  | .error _ => report .notFound

/-- The path of a name in a directory. -/
def inside (directory name : String) : String :=
  if directory.toList.getLast? == some '/' then directory ++ name else directory ++ "/" ++ name

def lastName (file : String) : String := spelled ((Path.ofText (unspelled file)).name)

/-! Directories shown. -/

def isHidden (name : String) : Bool := name.toList.head? == some '.'

/-- The mark after a name that tells what it names. -/
def indicator (o : Options) (s : Surroundings) (file : String) : String :=
  match entry s file with
  | .ok .directory => if o.has 'F' || o.has 'p' then "/" else ""
  | .ok (.link _) => if o.has 'F' then "@" else ""
  | .ok (.file _ executable) => if o.has 'F' && executable then "*" else ""
  | .error _ => ""

def ordered (o : Options) (names : List String) : List String :=
  let names := names.mergeSort fun a b => a ≤ b
  if o.has 'r' then names.reverse else names

def listed (o : Options) (s : Surroundings) (directory : String) : List String :=
  let names := s.names directory
  let names := if o.has 'a' then "." :: ".." :: names else names
  ordered o (if o.has 'a' || o.has 'A' then names else names.filter fun n => !isHidden n)

/-- Lists directories under headers, those inside of them after each if that is asked for. -/
def showDirectories (o : Options) (s : Surroundings) (hasHeaders : Bool) : Nat → Bool → List String → Program Bool
  | 0, isFirst, _ => return isFirst
  | _, isFirst, [] => return isFirst
  | fuel + 1, isFirst, d :: ds => do
    let names := listed o s d
    if hasHeaders then print ((if isFirst then "" else "\n") ++ d ++ ":\n")
    names.forM fun n => printLine (n ++ indicator o s (inside d n))
    let inner := if o.has 'R' then
        (names.filter fun n => n != "." && n != ".." && (match entry s (inside d n) with
          | .ok .directory => true
          | _ => false)).map (inside d)
      else []
    showDirectories o s hasHeaders fuel false (inner ++ ds)

def ls : Program Unit :=
  withOptions 2 ⟨"1aAdFprRQlhstuUSX", "wI", [("all", 'a'), ("almost-all", 'A'), ("directory", 'd'), ("recursive", 'R'),
    ("reverse", 'r'), ("classify", 'F')], false, none⟩ fun o => do
    let s ← surroundings
    let operands := if o.operands.isEmpty then ["."] else o.operands
    let missing := (ordered o operands).filter fun f => !isThere s f
    missing.forM fun f => do
      let fault := match s.find f with
        | .error e => e.text
        | .ok _ => ""
      complain ("cannot access " ++ named f ++ ": " ++ fault)
      setCode 2
    let there := operands.filter (isThere s)
    let isListed (f : String) : Bool := !o.has 'd' && s.isDirectory f
    let files := ordered o (there.filter fun f => !isListed f)
    files.forM fun f => printLine (f ++ indicator o s f)
    let directories := ordered o (there.filter isListed)
    discard (showDirectories o s (1 < operands.length || o.has 'R') (s.workspace.entries.length + operands.length + 1)
      files.isEmpty directories)

/-! Names. -/

def withoutSlashes (s : String) : String := String.ofList (s.toList.reverse.dropWhile (· == '/')).reverse

def baseName (s : String) (suffix : String) : String :=
  let trimmed := withoutSlashes s
  if trimmed == "" then (if s == "" then "" else "/")
  else
    let name := (trimmed.toList.reverse.takeWhile (· != '/')).reverse
    let stem := name.take (name.length - suffix.length)
    String.ofList (if suffix != "" && !stem.isEmpty && suffix.toList.isSuffixOf name then stem else name)

def directoryName (s : String) : String :=
  let trimmed := withoutSlashes s
  if trimmed == "" then (if s == "" then "." else "/")
  else
    let before := trimmed.toList.reverse.dropWhile (· != '/')
    if before.isEmpty then "."
    else
      let d := withoutSlashes (String.ofList before.reverse)
      if d == "" then "/" else d

def basename : Program Unit :=
  withOptions 1 ⟨"az", "s", [("multiple", 'a'), ("suffix", 's')], true, none⟩ fun o => do
    match o.operands with
    | [] => refuse 1 "missing operand"
    | first :: others =>
      if o.has 'a' || o.has 's' then
        o.operands.forM fun f => printLine (baseName f ((o.value? 's').getD ""))
      else match others with
        | [] => printLine (baseName first "")
        | [suffix] => printLine (baseName first suffix)
        | _ :: extra :: _ => refuse 1 ("extra operand " ++ (← quoted extra))

def dirname : Program Unit := withOptions 1 ⟨"z", "", [], false, none⟩ fun o => do
  if o.operands.isEmpty then refuse 1 "missing operand"
  else o.operands.forM fun f => printLine (directoryName f)

/-! Files made and removed. -/

/-- The directories on the way to a path, the outermost first. -/
def waysTo (file : String) : List String :=
  let cs := file.toList
  ((List.range cs.length).filterMap fun i =>
    if 0 < i && cs[i]? == some '/' && cs[i - 1]? != some '/' then some (String.ofList (cs.take i)) else none) ++ [file]

def makeDirectory (o : Options) (file : String) : Program Unit := do
  let failed (f : FileFault) : Program Unit := do
    complain ("cannot create directory " ++ (← quoted file) ++ ": " ++ f.text)
  (if o.has 'p' then waysTo (withoutSlashes file) else [file]).forM fun f => do
    let s ← surroundings
    if o.has 'p' && s.isDirectory f then return
    match s.workspace.locateLink (s.place f) with
    | .ok ⟨place, none⟩ =>
      change (s.workspace.put place .directory)
      if o.has 'v' then printLine ((← read).name ++ ": created directory " ++ named f)
    | .ok _ => failed .alreadyExists
    | .error e => failed (if f == "" then .notFound else e)

def mkdir : Program Unit :=
  withOptions 1 ⟨"pv", "m", [("parents", 'p'), ("verbose", 'v'), ("mode", 'm')], false, none⟩ fun o => do
    if o.operands.isEmpty then refuse 1 "missing operand" else o.operands.forM (makeDirectory o)

def rmdir : Program Unit := withOptions 1 ⟨"pv", "", [("parents", 'p')], false, none⟩ fun o => do
  if o.operands.isEmpty then refuse 1 "missing operand"
  o.operands.forM fun file => do
    (if o.has 'p' then (waysTo (withoutSlashes file)).reverse else [file]).forM fun f => do
      let s ← surroundings
      let failed (detail : String) : Program Unit := complain ("failed to remove " ++ named f ++ ": " ++ detail)
      match located s f with
      | .ok ⟨place, some .directory⟩ =>
        if (s.workspace.children place).isEmpty then change (s.workspace.drop place) else failed "Directory not empty"
      | .ok ⟨_, some _⟩ => failed FileFault.notDirectory.text
      | .ok ⟨_, none⟩ => failed FileFault.notFound.text
      | .error e => failed e.text

def touch : Program Unit := withOptions 1 ⟨"acmh", "drt", [("no-create", 'c')], false, none⟩ fun o => do
  if o.operands.isEmpty then refuse 1 "missing file operand"
  o.operands.forM fun f => do
    let s ← surroundings
    match s.find f with
    | .ok _ => return
    | .error .notFound =>
      if !o.has 'c' then match s.write f [] with
        | .ok w => change w
        | .error e => complain ("cannot touch " ++ named f ++ ": " ++ e.text)
    | .error e => complain ("cannot touch " ++ named f ++ ": " ++ e.text)

def isDots (file : String) : Bool :=
  let name := (withoutSlashes file).toList.reverse.takeWhile (· != '/')
  name == ['.'] || name == ['.', '.']

def rm : Program Unit :=
  withOptions 1 ⟨"dfirRvI", "", [("force", 'f'), ("recursive", 'r'), ("verbose", 'v'), ("dir", 'd')], false, none⟩ fun o => do
    if o.operands.isEmpty && !o.has 'f' then refuse 1 "missing operand"
    let deep := o.has 'r' || o.has 'R'
    o.operands.forM fun f => do
      let s ← surroundings
      let failed (detail : String) : Program Unit := complain ("cannot remove " ++ named f ++ ": " ++ detail)
      if deep && isDots f then complain ("refusing to remove '.' or '..' directory: skipping " ++ named f)
      else match located s f with
        | .ok ⟨place, some .directory⟩ =>
          if deep then
            change { s.workspace with entries := s.workspace.entries.filter fun e => !place.isPrefixOf e.1 }
            if o.has 'v' then printLine ("removed directory " ++ named f)
          else if o.has 'd' && (s.workspace.children place).isEmpty then change (s.workspace.drop place)
          else failed FileFault.isDirectory.text
        | .ok ⟨place, some _⟩ =>
          change (s.workspace.drop place)
          if o.has 'v' then printLine ("removed " ++ named f)
        | .ok ⟨_, none⟩ => if !o.has 'f' then failed FileFault.notFound.text
        | .error e => if !(o.has 'f' && e == .notFound) then failed e.text

def unlink : Program Unit := withOptions 1 {} fun o => do
  match o.operands with
  | [] => refuse 1 "missing operand"
  | [f] =>
    let s ← surroundings
    let failed (e : FileFault) : Program Unit := complain ("cannot unlink " ++ named f ++ ": " ++ e.text)
    match located s f with
    | .ok ⟨_, some .directory⟩ => failed .isDirectory
    | .ok ⟨place, some _⟩ => change (s.workspace.drop place)
    | .ok ⟨_, none⟩ => failed .notFound
    | .error e => failed e
  | _ :: w :: _ => refuse 1 ("extra operand " ++ (← quoted w))

/-! Copies. -/

/-- What stands below a place, the place itself included. -/
def below (w : Workspace) (place : List String) : List (List String × Entry) :=
  w.entries.filter fun e => place.isPrefixOf e.1

def copyOne (deep : Bool) (file target : String) : Program Unit := do
  let s ← surroundings
  match s.find file with
  | .error e => complain ("cannot stat " ++ named file ++ ": " ++ e.text)
  | .ok .directory =>
    if !deep then complain ("-r not specified; omitting directory " ++ named file)
    else match s.workspace.locate (s.place file), s.workspace.locateLink (s.place target) with
      | .ok source, .ok goal =>
        let copies := (below s.workspace source.place).map fun (p, e) => (goal.place ++ p.drop source.place.length, e)
        change (copies.foldl (fun w (p, e) => w.put p e) (s.workspace.put goal.place .directory))
      | _, .error e => complain ("cannot create directory " ++ named target ++ ": " ++ e.text)
      | .error e, _ => complain ("cannot stat " ++ named file ++ ": " ++ e.text)
  | .ok node =>
    let (data, executable) := match node with
      | .file data executable => (data, executable)
      | _ => ([], false)
    let same := match s.workspace.locate (s.place file), s.workspace.locate (s.place target) with
      | .ok a, .ok b => a.place == b.place
      | _, _ => false
    if same then complain (named file ++ " and " ++ named target ++ " are the same file")
    else
      let isNew := !(s.find target).isOk
      match s.write target data with
      | .ok w => change (if isNew && executable then ((w.makeExecutable (s.place target)).toOption).getD w else w)
      | .error e => complain ("cannot create regular file " ++ named target ++ ": " ++ e.text)

/-- Does something with each source and its target, which lies in the last operand if that is a directory. -/
def toTargets (o : Options) (act : String → String → Program Unit) : Program Unit := do
  match o.operands.getLast?, o.operands.dropLast with
  | none, _ => refuse 1 "missing file operand"
  | some f, [] => refuse 1 ("missing destination file operand after " ++ named f)
  | some target, sources =>
    let s ← surroundings
    if s.isDirectory target && !o.has 'T' then sources.forM fun f => act f (inside target (lastName f))
    else match sources with
      | [f] => act f target
      | _ =>
        let fault := match s.find target with
          | .ok _ => FileFault.notDirectory
          | .error e => e
        complain ("target " ++ named target ++ ": " ++ fault.text)

def cp : Program Unit :=
  withOptions 1 ⟨"afinpPrRuvTLdH", "t", [("recursive", 'r'), ("archive", 'a'), ("force", 'f')], false, none⟩ fun o =>
    toTargets o (copyOne (o.has 'r' || o.has 'R' || o.has 'a'))

def moveOne (file target : String) : Program Unit := do
  let s ← surroundings
  match located s file, located s target with
  | .error e, _ => complain ("cannot stat " ++ named file ++ ": " ++ e.text)
  | .ok ⟨_, none⟩, _ => complain ("cannot stat " ++ named file ++ ": " ++ FileFault.notFound.text)
  | .ok ⟨a, some e⟩, .ok ⟨b, _⟩ =>
    if a == b then complain (named file ++ " and " ++ named target ++ " are the same file")
    else if a.isPrefixOf b then
      complain ("cannot move " ++ named file ++ " to a subdirectory of itself, " ++ named target)
    else
      let moved := (below s.workspace a).map fun (p, e) => (b ++ p.drop a.length, e)
      let kept := { s.workspace with entries := s.workspace.entries.filter fun e => !a.isPrefixOf e.1 && e.1 != b }
      change (moved.foldl (fun w (p, e) => w.put p e) (kept.put b e))
  | .ok _, .error e => complain ("cannot move " ++ named file ++ " to " ++ named target ++ ": " ++ e.text)

def mv : Program Unit := withOptions 1 ⟨"finuvT", "t", [("force", 'f')], false, none⟩ fun o => toTargets o moveOne

def ln : Program Unit := withOptions 1 ⟨"sfnvT", "", [("symbolic", 's'), ("force", 'f')], false, none⟩ fun o => do
  match o.operands with
  | [] => refuse 1 "missing file operand"
  | file :: rest =>
    let s ← surroundings
    let target := rest.getLast?.getD (lastName file)
    let target := if s.isDirectory target then inside target (lastName file) else target
    match s.workspace.locateLink (s.place target) with
    | .ok ⟨place, found⟩ =>
      if found.isSome && !o.has 'f' then
        complain ("failed to create " ++ (if o.has 's' then "symbolic" else "hard") ++ " link " ++ named target ++ ": File exists")
      else if o.has 's' then change (s.workspace.put place (.link (unspelled file)))
      else match entry s file with
        | .ok e => change (s.workspace.put place e)
        | .error e => complain ("failed to access " ++ named file ++ ": " ++ e.text)
    | .error e => complain ("failed to create symbolic link " ++ named target ++ ": " ++ e.text)

/-! What stands at a path. -/

def realPath (s : Surroundings) (file : String) : Option String :=
  ((s.workspace.resolve (s.place file)).toOption).map fun p => spelled p.text

def readlink : Program Unit := withOptions 1 ⟨"femnqsvz", "", [("canonicalize", 'f')], false, none⟩ fun o => do
  if o.operands.isEmpty then refuse 1 "missing operand"
  o.operands.forM fun f => do
    let s ← surroundings
    let ending := if o.has 'n' then "" else "\n"
    if o.has 'f' || o.has 'm' || o.has 'e' then
      match realPath s f with
      | some p => print (p ++ ending)
      | none => setCode 1
    else match entry s f with
      | .ok (.link target) => print (spelled target ++ ending)
      | _ => setCode 1

def realpath : Program Unit := withOptions 1 ⟨"emqszL", "", [], false, none⟩ fun o => do
  if o.operands.isEmpty then refuse 1 "missing operand"
  o.operands.forM fun f => do
    let s ← surroundings
    let parentIsThere := s.isDirectory (directoryName f)
    match if o.has 'm' || (parentIsThere && !o.has 'e') || isThere s f then realPath s f else none with
    | some p => printLine p
    | none => complain (f ++ ": " ++ FileFault.notFound.text)

/-- The permission to run a file after a change of its mode. -/
def runnable? (mode : String) (before : Bool) : Option Bool :=
  match mode.toList with
  | '+' :: r => if r.all "rwxX".toList.contains then some (before || r.contains 'x') else none
  | '-' :: r => if r.all "rwxX".toList.contains then some (before && !r.contains 'x') else none
  | cs =>
    if cs.all fun c => '0' ≤ c && c ≤ '7' then some (cs.any fun c => (c.toNat - 48) % 2 == 1)
    else
      let who := cs.takeWhile "ugoa".toList.contains
      match cs.drop who.length with
      | '+' :: r => if who.isEmpty || !r.all "rwxX".toList.contains then none else some (before || r.contains 'x')
      | '-' :: r => if who.isEmpty || !r.all "rwxX".toList.contains then none else some (before && !r.contains 'x')
      | '=' :: r => if who.isEmpty || !r.all "rwxX".toList.contains then none else some (r.contains 'x')
      | _ => none

def chmod : Program Unit := do
  let o : Options := ⟨[], (← read).arguments.filter fun a => a != "-R" && a != "--"⟩
  match o.operands with
  | [] => refuse 1 "missing operand"
  | [mode] => refuse 1 ("missing operand after " ++ (← quoted mode))
  | mode :: files =>
    if (runnable? mode false).isNone then refuse 1 ("invalid mode: " ++ (← quoted mode))
    else files.forM fun f => do
      let s ← surroundings
      match s.workspace.locate (s.place f), s.find f with
      | .ok ⟨place, some (.file data executable)⟩, .ok _ =>
        change (s.workspace.put place (.file data ((runnable? mode executable).getD executable)))
      | _, .ok _ => return
      | _, .error e => complain ("cannot access " ++ named f ++ ": " ++ e.text)

def statField (s : Surroundings) (file : String) (c : Char) : String :=
  let data (f : Entry) : String × String × String := match f with
    | .file d x =>
      (toString d.size, if x then "755" else "644", if d.size == 0 then "regular empty file" else "regular file")
    | .directory => ("4096", "755", "directory")
    | .link t => (toString t.utf8ByteSize, "777", "symbolic link")
  match entry s file with
  | .ok e =>
    let (size, mode, kind) := data e
    match c with
    | 'n' => file
    | 's' => size
    | 'a' => mode
    | 'F' => kind
    | 'U' | 'G' => "root"
    | 'u' | 'g' => "0"
    | _ => "?"
  | .error _ => ""

def statText (s : Surroundings) (file : String) : List Char → String
  | '%' :: '%' :: r => "%" ++ statText s file r
  | '%' :: c :: r => statField s file c ++ statText s file r
  | c :: r => String.singleton c ++ statText s file r
  | [] => ""

def stat : Program Unit := withOptions 1 ⟨"Lft", "c", [("format", 'c')], false, none⟩ fun o => do
  if o.operands.isEmpty then refuse 1 "missing operand"
  o.operands.forM fun f => do
    let s ← surroundings
    match entry s f with
    | .ok _ => printLine (statText s f ((o.value? 'c').getD "%n").toList)
    | .error e => complain ("cannot statx " ++ named f ++ ": " ++ e.text)

def tee : Program Unit := withOptions 1 ⟨"aip", "", [("append", 'a')], false, none⟩ fun o => do
  let s ← input
  write s.bytes
  if s.isEndless then endless
  o.operands.forM fun f => do
    let there ← surroundings
    let before := if o.has 'a' then match there.find f with
        | .ok (.file data _) => data
        | _ => []
      else []
    match there.write f (before ++ s.bytes) with
    | .ok w => change w
    | .error e => complain (f ++ ": " ++ e.text)

def truncate : Program Unit := withOptions 1 ⟨"co", "s", [("size", 's')], false, none⟩ fun o => do
  match (o.value? 's').bind size? with
  | none => refuse 1 ("you must specify either " ++ (← quoted "--size") ++ " or " ++ (← quoted "--reference"))
  | some n => o.operands.forM fun f => do
    let s ← surroundings
    let before := match s.find f with
      | .ok (.file data _) => data
      | _ => []
    match s.write f (before.take n ++ List.replicate (n - before.length) 0) with
    | .ok w => change w
    | .error e => complain ("cannot open " ++ named f ++ " for writing: " ++ e.text)

end QualityGate.Shell.Filing
