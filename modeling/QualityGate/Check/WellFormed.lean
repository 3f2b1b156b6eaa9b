import QualityGate.Check.Configuration
import QualityGate.Scan.Brackets

/-! The check that JSON files can be read and that brackets balance. -/

namespace QualityGate.Check.WellFormed

def maxScanBytes : Nat := 5 * 1024 * 1024

/-- Reads a JSON file, with comments where its tools accept them. -/
def loadJson (w : Workspace) (p : Path) : Outcome Json := do
  let text ← w.readMarkedText p
  (if p.allowsComments then Json.readCommented text else Json.read text).mapError Failure.ofJson

def unreadable (ctx : Context) (file : String) (e : Failure) : Issue :=
  { file
    source := .wellFormed
    severity := ctx.config.severity.unreadableFile
    message := "File could not be read: " ++ e.message
    suggestedFix := "Check file permissions and encoding (UTF-8 expected)"
    code := some "unreadable-file" }

def malformedJson (ctx : Context) (file : String) (f : Json.LocatedFault) : Issue :=
  { file
    line := f.line
    column := f.column
    source := .wellFormed
    severity := ctx.config.severity.malformedJson
    message := "Invalid JSON: " ++ f.problem.text
    suggestedFix := "Fix the JSON syntax"
    code := some "malformed-json" }

def unbalanced (ctx : Context) (file : String) (text : List Char) (f : Scan.Brackets.Imbalance) : Issue :=
  { file
    line := Text.lineOf text f.index
    column := Text.columnOf text f.index
    source := .wellFormed
    severity := ctx.config.severity.unbalancedBrackets
    message := f.problem.message
    suggestedFix := "Balance the brackets, braces and parentheses"
    code := some "unbalanced-brackets" }

/-- Whether a failure is about a file that cannot be read as text. -/
def isUnreadable (e : Failure) : Bool :=
  match e with
  | .encoding _ => true
  | e => e.isSystem

def jsonIssue? (ctx : Context) (w : Workspace) (p : Path) (file : String) : Outcome (Option Issue) :=
  match loadJson w p with
  | .ok _ => .ok none
  | .error (.json f) => .ok (some (malformedJson ctx file f))
  | .error e => if isUnreadable e then .ok (some (unreadable ctx file e)) else .error e

/-- Large files are left out. -/
def bracketIssue? (ctx : Context) (w : Workspace) (p : Path) (file : String) : Option Issue :=
  match w.readBytes p with
  | .error e => some (unreadable ctx file e)
  | .ok data =>
    if maxScanBytes < data.size then none
    else match w.readMarkedText p with
      | .error e => some (unreadable ctx file e)
      | .ok text => (Scan.Brackets.firstImbalance? text).map (unbalanced ctx file text)

def issue? (ctx : Context) (w : Workspace) (p : Path) : Outcome (Option Issue) :=
  let file := ctx.relative p.text
  if Configuration.ownedFiles.contains file then .ok none
  else if p.suffix == ".json" then jsonIssue? ctx w p file
  else if Path.isSourceFile p.text then .ok (bracketIssue? ctx w p file)
  else .ok none

def findings (ctx : Context) (w : Workspace) : Outcome Findings := do
  .ok { issues := (← ctx.files.mapM (issue? ctx w)).filterMap id }

def check : Check where
  name := "syntax"
  source := .wellFormed
  perform ctx := do Run.lift (findings ctx (← Run.workspace))

end QualityGate.Check.WellFormed
