import QualityGate.Text.Lines

/-! File paths as an optional root and a list of components. -/

namespace QualityGate

/-- The root is empty for a relative path, and one slash or exactly two for an absolute one. -/
structure Path where
  root : String := ""
  parts : List String := []
  deriving DecidableEq, Repr, Inhabited

namespace Path

def isAbsolute (p : Path) : Bool := p.root != ""

/-- Empty components and single dots say nothing and are dropped. -/
def components (s : List Char) : List String :=
  (Text.splitAtChar '/' s).filterMap fun part =>
    if part.isEmpty || part == ['.'] then none else some (String.ofList part)

def ofText (s : String) : Path :=
  let cs := s.toList
  let slashes := (cs.takeWhile (· == '/')).length
  let root := if slashes == 0 then "" else if slashes == 2 then "//" else "/"
  ⟨root, components cs⟩

def text (p : Path) : String :=
  if p.root == "" && p.parts.isEmpty then "." else p.root ++ "/".intercalate p.parts

def name (p : Path) : String := p.parts.getLast?.getD ""

def parent (p : Path) : Path := { p with parts := p.parts.dropLast }

/-- An absolute second path replaces the first one. -/
def join (p q : Path) : Path := if q.isAbsolute then q else { p with parts := p.parts ++ q.parts }

def child (p : Path) (name : String) : Path := { p with parts := p.parts ++ [name] }

def withName (p : Path) (name : String) : Path := { p with parts := p.parts.dropLast ++ [name] }

/-- From the last dot of the name, unless the name begins or ends with it. -/
def suffix (p : Path) : String :=
  let cs := p.name.toList
  let ending := (cs.reverse.takeWhile (· != '.')).reverse
  let stem := cs.length - ending.length
  if ending.isEmpty || stem ≤ 1 then "" else String.ofList ('.' :: ending)

def relativeTo? (p root : Path) : Option Path :=
  if p.root == root.root && root.parts.isPrefixOf p.parts then some ⟨"", p.parts.drop root.parts.length⟩
  else none

/-- The path relative to the root where it lies under it. -/
def normalized (root : Option Path) (s : String) : String :=
  let p := ofText s
  match root with
  | some r => if p.isAbsolute then ((p.relativeTo? r).getD p).text else p.text
  | none => p.text

def endsWith (s ending : String) : Bool := ending.toList.isSuffixOf s.toList

def sourceSuffixes : List String := [".ts", ".tsx", ".js", ".jsx", ".mts", ".cts", ".mjs", ".cjs"]

def isSourceFile (s : String) : Bool := sourceSuffixes.any (endsWith s)

def commentedNames : List String := ["jsconfig.json", ".eslintrc.json", ".eslintrc"]

/-- Files whose tools accept comments and trailing commas in JSON. -/
def allowsComments (p : Path) : Bool :=
  commentedNames.contains p.name ||
    ("tsconfig".toList.isPrefixOf p.name.toList && endsWith p.name ".json") ||
    (p.parent.name == ".vscode" && endsWith p.name ".json")

end Path

end QualityGate
