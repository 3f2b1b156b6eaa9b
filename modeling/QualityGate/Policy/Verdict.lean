import QualityGate.Count.Basic
import QualityGate.Diagnostics.Basic
import QualityGate.Failure
import QualityGate.Policy.Basic

/-! The decisions, each as a function of the state and of what could be learned
about the project. What cannot be learned blocks. -/

namespace QualityGate

namespace PolicyState

def decision (s : PolicyState) (trigger : Trigger) (allowed : Bool) (reason : String) : Decision :=
  { allowed, reason, trigger, level := s.level, projectClass := s.projectClass }

/-- Whether counts block: errors always do, warnings only under zero tolerance. -/
def blocks (s : PolicyState) (errors warnings : Int) : Bool :=
  match s.level with
  | .zeroTolerance => 0 < errors || 0 < warnings
  | .advisory => 0 < errors

def levelText (s : PolicyState) : String := " (" ++ Labelled.label s.level ++ ")"

/-- The errors and warnings among diagnostics by the kind of check, where there are any. -/
def diagnosticDetails (ds : List EditorDiagnostic) : Details :=
  Source.all.filterMap fun source =>
    let own := ds.filter fun d => d.category == source
    let c : Summary := ⟨own.countP EditorDiagnostic.isError, own.countP EditorDiagnostic.isWarning⟩
    if c.errors != 0 || c.warnings != 0 then some (source, c) else none

/-- Saving goes by the editor's diagnostics of the file alone. -/
def saveVerdict (s : PolicyState) (file : String) (editor : Option (Outcome (List EditorDiagnostic))) :
    Outcome Decision :=
  match editor with
  | none => .ok (s.decision .save false "Save blocked: no editor diagnostics available")
  | some (.error e) =>
    if e.endsRun then .error e
    else .ok (s.decision .save false ("Save blocked: diagnostics unavailable (" ++ e.message ++ ")"))
  | some (.ok ds) =>
    let errors : Int := ds.countP EditorDiagnostic.isError
    let warnings : Int := ds.countP EditorDiagnostic.isWarning
    let details := diagnosticDetails ds
    let has := ": " ++ file ++ " has " ++ describeCounts errors warnings details none
    let blocked := s.blocks errors warnings
    let reason := if blocked then "Save blocked" ++ s.levelText ++ has else "Save allowed" ++ has
    .ok { s.decision .save (!blocked) reason with errors, warnings, details }

/-- In advisory mode a new project may commit whatever it holds. -/
def commitsFreely (s : PolicyState) : Bool := s.level == .advisory && s.projectClass == .fresh

def freeCommit (s : PolicyState) : Decision :=
  s.decision .commit true "Commit allowed: new project, protection applies gradually in advisory mode"

/-- Projects whose commits the caller may let through in advisory mode. -/
def canOverride (s : PolicyState) : Bool :=
  s.level == .advisory && (s.projectClass == .legacyWithErrors || s.projectClass == .unknown)

def blocksCommit (s : PolicyState) (r : Report) : Bool :=
  s.blocks r.errorCount r.warningCount || (s.level == .zeroTolerance && 0 < r.unsafeSuppressions.length)

def commitReason (s : PolicyState) (blocked honored : Bool) (counts : String) : String :=
  if honored then
    "Commit allowed by override (" ++ Labelled.label s.projectClass ++ "): project contains " ++ counts
  else if blocked then "Commit blocked" ++ s.levelText ++ ": project contains " ++ counts
  else "Commit allowed: project contains " ++ counts

def commitVerdict (s : PolicyState) (override : Bool) (audit : Outcome Report) : Outcome Decision :=
  match audit with
  | .error e =>
    if e.endsRun then .error e
    else .ok (s.decision .commit false ("Commit blocked: audit failed (" ++ e.message ++ ")"))
  | .ok r =>
    let suppressions := r.unsafeSuppressions.length
    let blocked := s.blocksCommit r
    let honored := blocked && override && s.canOverride
    let counts := describeCounts r.errorCount r.warningCount r.summary (some suppressions)
    .ok { s.decision .commit (!blocked || honored) (s.commitReason blocked honored counts) with
      errors := r.errorCount
      warnings := r.warningCount
      suppressions
      details := r.summary
      overrideRequested := override && blocked
      overrideHonored := honored }

/-- Counts that cannot be trusted block a build. -/
def buildVerdict (s : PolicyState) (count : Outcome ErrorCount) : Outcome Decision :=
  match count with
  | .error e =>
    if e.endsRun then .error e
    else .ok (s.decision .build false ("Build blocked: error count failed (" ++ e.message ++ ")"))
  | .ok c =>
    if c.suspiciousZero then
      let reason := "Build blocked: counts unreliable because " ++ ", ".intercalate c.failedTools ++ " failed"
      .ok { s.decision .build false reason with details := c.details }
    else
      let contains := ": project contains " ++ describeCounts c.errors c.warnings c.details none
      let blocked := s.blocks c.errors c.warnings
      let reason := if blocked then "Build blocked" ++ s.levelText ++ contains else "Build allowed" ++ contains
      .ok { s.decision .build (!blocked) reason with errors := c.errors, warnings := c.warnings, details := c.details }

end PolicyState

end QualityGate
