import QualityGate.Failure
import QualityGate.Finding.Severity
import QualityGate.Workspace.Tree

/-! What the editor's language services report about the open files, and where the
reports come from. -/

namespace QualityGate

open Schema

inductive DiagnosticSeverity where
  | error | warning | info | hint
  deriving DecidableEq, Repr

instance : Labelled DiagnosticSeverity where
  members := [.error, .warning, .info, .hint]
  label
    | .error => "error"
    | .warning => "warning"
    | .info => "info"
    | .hint => "hint"
  title := "DiagnosticSeverity"

structure EditorDiagnostic where
  file : String
  line : Int := 0
  column : Int := 0
  severity : DiagnosticSeverity := .error
  source : String := ""
  message : String := ""
  code : Option String := none
  deriving DecidableEq, Repr

namespace EditorDiagnostic

def typeCheckSources : List String := ["ts", "typescript", "tsc", "javascript", "js"]

def lintSources : List String := ["eslint", "lint"]

/-- Findings of language services count as type-check findings, those of linters as lint findings. -/
def category (d : EditorDiagnostic) : Source :=
  let name := Text.toLowercase d.source
  if typeCheckSources.contains name then .typeCheck
  else if lintSources.contains name then .lint
  else .wellFormed

def isError (d : EditorDiagnostic) : Bool := d.severity == .error

def isWarning (d : EditorDiagnostic) : Bool := d.severity == .warning

def reader : Reader EditorDiagnostic :=
  record fun e =>
    EditorDiagnostic.mk
      <$> required e "file" string
      <*> optional e "line" 0 int
      <*> optional e "column" 0 int
      <*> optional e "severity" .error (member .unknownLiteral Labelled.ofLabel?)
      <*> optional e "source" "" string
      <*> optional e "message" "" string
      <*> optional e "code" none (nullable string)

def toJson (d : EditorDiagnostic) : Json :=
  .obj [("file", .str d.file), ("line", .int d.line), ("column", .int d.column),
    ("severity", .str (Labelled.label d.severity)), ("source", .str d.source), ("message", .str d.message),
    ("code", d.code.elim .null .str)]

end EditorDiagnostic

/-- The diagnostics of one file, however its path is spelled. -/
def diagnosticsOf (root : Option Path) (all : List EditorDiagnostic) (file : String) : List EditorDiagnostic :=
  all.filter fun d => Path.normalized root d.file == Path.normalized root file

/-- Diagnostics by file, in the order in which the files first got some. -/
structure DiagnosticsByFile where
  root : Option Path
  files : List (String × List EditorDiagnostic) := []

namespace DiagnosticsByFile

def all (d : DiagnosticsByFile) : List EditorDiagnostic := d.files.flatMap (·.2)

def key (d : DiagnosticsByFile) (file : String) : String := Path.normalized d.root file

/-- Replaces the diagnostics of one file; an empty list forgets the file. -/
def set (d : DiagnosticsByFile) (file : String) (ds : List EditorDiagnostic) : DiagnosticsByFile :=
  let k := d.key file
  if ds.isEmpty then { d with files := d.files.filter fun f => f.1 != k }
  else { d with files := Schema.insertKey d.files k ds }

def clear (d : DiagnosticsByFile) : DiagnosticsByFile := { d with files := [] }

def ofFile (d : DiagnosticsByFile) (file : String) : List EditorDiagnostic := diagnosticsOf d.root d.all file

end DiagnosticsByFile

/-- Reads exported diagnostics, a list of objects. -/
def readDiagnostics (fileName : String) (content : List Char) : Outcome (List EditorDiagnostic) :=
  match Json.read content with
  | .error f =>
    .error (if f.problem.isSyntax then .unparsable "diagnostics" (.text f.message) else .ofJson f)
  | .ok (.arr items) => items.mapM fun v =>
      (EditorDiagnostic.reader (.ofJson v)).mapError fun fs => .unparsable "diagnostics" (.faults "EditorDiagnostic" fs)
  | .ok _ => .error (.unparsable "diagnostics" (.text (fileName ++ " must contain a JSON list")))

/-! Where the diagnostics come from. -/

inductive Provider where
  /-- Handed in by the editor. -/
  | memory (d : DiagnosticsByFile)
  /-- Exported by the editor to a file, which need not be there. -/
  | exported (file : Path) (root : Option Path)
  /-- Any other list that the host keeps, which it may fail to give. -/
  | host (root : Option Path) (list : Workspace → Outcome (List EditorDiagnostic))

namespace Provider

def all (w : Workspace) : Provider → Outcome (List EditorDiagnostic)
  | memory d => .ok d.all
  | exported file _ => do
    if w.contains file then readDiagnostics file.name (← w.readText file) else .ok []
  | host _ list => list w

def root : Provider → Option Path
  | memory d => d.root
  | exported _ root => root
  | host root _ => root

def ofFile (w : Workspace) (p : Provider) (file : String) : Outcome (List EditorDiagnostic) := do
  .ok (diagnosticsOf p.root (← p.all w) file)

end Provider

end QualityGate
