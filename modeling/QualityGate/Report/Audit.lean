import QualityGate.Check.Basic
import QualityGate.Check.External
import QualityGate.Check.WellFormed
import QualityGate.Report.Text
import QualityGate.Scan.Directives

/-! An audit: every check is run, and what they found is merged into one report. -/

namespace QualityGate.Check.Directives

/-! The scan of source files for suppressions and concerns. Files that cannot be
read are left out; another check reports them. -/

def findings (ctx : Context) (w : Workspace) : Findings :=
  let texts := ctx.sourceFiles.filterMap fun p =>
    match w.readMarkedText p with
    | .ok text => some (ctx.relative p.text, text)
    | .error _ => none
  { suppressions := texts.flatMap fun (file, text) => Scan.suppressions file text
    concerns := texts.flatMap fun (file, text) => Scan.concerns file text }

def check : Check where
  name := "suppression-scan"
  source := .lint
  perform ctx := do return findings ctx (← Run.workspace)

end QualityGate.Check.Directives

/-! Every check, in the order of the report. -/

namespace QualityGate.Check

def all : List Check :=
  [TypeChecking.check, Linting.check, Building.check, WellFormed.check, Directives.check, Dependencies.check,
    Configuration.check]

def named? (name : String) : Option Check := all.find? fun c => c.name == name

end QualityGate.Check

namespace QualityGate.Audit

/-- What a check contributes when its run went as given. A failure that got past the check itself is
reported in its place. -/
def contribution (c : Check) (t : SeverityTable) (went : Outcome Findings) : Outcome Findings :=
  match went with
  | .ok f => .ok f
  | .error e => if e.endsRun then .error e else .ok (c.reported e "checker-crashed" t.toolUnavailable)

/-- The contributions of all checks, in their order; the first failure that ends the run wins. -/
def contributions (t : SeverityTable) (went : List (Check × Outcome Findings)) : Outcome (List Findings) :=
  went.mapM fun (c, o) => contribution c t o

/-- Runs one check and makes known that it has finished. Only an interruption stops the others. -/
def runCheck (ctx : Context) (c : Check) : Run (Check × Outcome Findings) := do
  match ← Run.attempt (c.run ctx) with
  | .ok f => do
    Run.publish (.checkFinished c.name f.issues.length)
    return (c, .ok f)
  | .error (.interrupted detail) => throw (.interrupted detail)
  | .error e => return (c, .error e)

def run (root : Path) (config : Config) (checks : List Check) : Run Report := do
  let files ← Run.lift (Discovery.files (← Run.workspace) root config.files)
  Run.publish (.auditStarted (checks.map Check.name) files.length)
  let went ← checks.mapM (runCheck ⟨root, config, files⟩)
  let results ← Run.lift (contributions config.severity went)
  let report := Report.build results config.scoring files.length (← get).now
  Run.publish (.auditFinished (some report))
  return report

/-- Writes a report, with the directories it needs. -/
def write (r : Report) (p : Path) : Edit Unit := do
  Edit.change (·.createDirectories p.parent)
  Edit.change (·.writeText p r.text)

def read (w : Workspace) (p : Path) : Outcome Report := do Report.ofText (String.ofList (← w.readText p))

end QualityGate.Audit
