import QualityGate.Command.Act
import QualityGate.Policy.Basic
import QualityGate.Text.Lines

/-! How reports, counts and decisions are shown, partly in tables without lines:
each cell is as wide as its column and stands between two spaces on either side.
The console is taken to have room for a whole row. -/

namespace QualityGate.Console

structure Column where
  title : String
  isNumber : Bool := false

structure Table where
  columns : List Column
  rows : List (List String)

namespace Table

def widths (t : Table) : List Nat :=
  (List.range t.columns.length).map fun i =>
    ((t.columns.map Column.title :: t.rows).map fun row => (row[i]?.getD "").length).foldl max 0

/-- Numbers stand at the right of their column. -/
def cell (c : Column) (width : Nat) (s : String) : String :=
  let filler := "".pushn ' ' (width - s.length)
  "  " ++ (if c.isNumber then filler ++ s else s ++ filler) ++ "  "

def line (t : Table) (row : List String) : String :=
  String.join ((t.columns.zip (t.widths.zip row)).map fun (c, width, s) => cell c width s)

def text (t : Table) : String :=
  String.join ((t.columns.map Column.title :: t.rows).map fun row => t.line row ++ "\n")

end Table

end QualityGate.Console

namespace QualityGate.Command.Act

/-! Reports. -/

def severityStyle : Severity → String
  | .critical => "bold red"
  | .high => "red"
  | .medium => "yellow"
  | .low => "dim"

def padRight (width : Nat) (s : String) : String := s.pushn ' ' (width - s.length)

/-- The first `limit` items; a negative limit leaves that many out at the end. -/
def shortened {α : Type} (limit : Int) (xs : List α) : List α :=
  xs.take (if limit < 0 then (xs.length + limit).toNat else limit.toNat)

def sayIssue (i : Issue) : Act Unit := do
  let style := severityStyle i.severity
  let location := if i.file == "" then "(project)" else
    i.file ++ ":" ++ toString i.line ++ ":" ++ toString i.column
  let code := (i.code.filter (· != "")).elim "" fun c => " [" ++ c ++ "]"
  say ("  [" ++ style ++ "]" ++ padRight 8 (Labelled.label i.severity) ++ "[/" ++ style ++ "] " ++
    Console.escape (location ++ code ++ " " ++ i.message))
  if i.suggestedFix != "" then say ("           [dim]Fix:[/dim] " ++ Console.escape i.suggestedFix)

def issueNumbers : List Console.Column := [⟨"Errors", true⟩, ⟨"Warnings", true⟩]

def summaryTable (d : Details) : Console.Table where
  columns := ⟨"Source", false⟩ :: issueNumbers
  rows := d.map fun (s, c) => [Labelled.label s, toString c.errors, toString c.warnings]

def sayLines (heading : String) (limit : Int) (lines : List String) : Act Unit := do
  if !lines.isEmpty then
    say ("\n[bold]" ++ heading ++ " (" ++ toString lines.length ++ "):[/bold]")
    (shortened limit lines).forM fun l => say ("  " ++ Console.escape l)

def suppressionLine (s : Suppression) : String :=
  s.file ++ ":" ++ toString s.line ++ " " ++ s.directive ++ " - " ++ s.reason

def sayReport (r : Report) (limit : Int) : Act Unit := do
  write (summaryTable r.summary).text
  say ""
  (shortened limit r.issues).forM sayIssue
  if limit < r.issues.length then
    say ("  [dim]... and " ++ toString (r.issues.length - limit) ++ " more[/dim]")
  sayLines "Unsafe suppressions" limit (r.unsafeSuppressions.map suppressionLine)
  sayLines "Business-logic concerns" limit r.concerns
  say ("\n[bold]Summary:[/bold] " ++ toString r.errorCount ++ " error(s), " ++ toString r.warningCount ++
    " warning(s), " ++ toString r.suppressions.length ++ " suppression(s), quality score " ++
    toString r.qualityScore ++ "/100")

/-! Counts. -/

def countTable (c : ErrorCount) : Console.Table where
  columns := ⟨"Category", false⟩ :: issueNumbers ++ [⟨"From", false⟩]
  rows := [
    ["type-check", toString c.typeCheckErrors, toString c.typeCheckWarnings, Labelled.label (c.originOf "type-check")],
    ["lint", toString c.lintErrors, toString c.lintWarnings, Labelled.label (c.originOf "lint")]]

def countLine (c : ErrorCount) : String :=
  "type-check: " ++ toString c.typeCheckErrors ++ " error(s) | lint: " ++ toString c.lintErrors ++
    " error(s), " ++ toString c.lintWarnings ++ " warning(s)"

/-- What a watcher is told about one count. -/
def sayCount (latest : Option ErrorCount) (c : ErrorCount) : Act Unit := do
  if c.suspiciousZero then
    say ("[yellow]Suspicious zero counts (" ++ ", ".intercalate c.failedTools ++ " failed)[/yellow]")
  if !(latest.any fun p => p.sameNumbers c) then say (countLine c)

/-! Decisions. -/

def decisionLine (d : Decision) : String :=
  (if d.allowed then "[bold green]ALLOWED[/bold green] " else "[bold red]BLOCKED[/bold red] ") ++
    Console.escape d.reason

end QualityGate.Command.Act
