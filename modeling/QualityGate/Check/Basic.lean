import QualityGate.Session

/-! A check and how its failures are reported. Running a check never fails
unless the user stops it: whatever goes wrong becomes one issue. -/

namespace QualityGate

/-- What a check works on. -/
structure Context where
  root : Path
  config : Config
  files : List Path

namespace Context

/-- A path as it is reported: relative to the root where it lies below it. -/
def relative (c : Context) (path : String) : String := if path == "" then "" else Path.normalized (some c.root) path

def sourceFiles (c : Context) : List Path := c.files.filter fun p => Path.isSourceFile p.text

def localized (c : Context) (issues : List Issue) : List Issue :=
  issues.map fun i => { i with file := c.relative i.file }

end Context

structure Check where
  name : String
  source : Source
  /-- Left out without a word when its tool is missing. -/
  isOptional : Bool := false
  /-- Failures of the check itself go on to the caller. -/
  escapes : Bool := false
  perform : Context → Run Findings

namespace Check

def failureIssue (name : String) (source : Source) (e : Failure) (code : String) (severity : Severity) : Issue :=
  { source
    severity
    message := "Could not check " ++ name ++ ": " ++ e.message
    suggestedFix := "Make sure " ++ name ++ " is installed and runs from the project root"
    code := some code }

def failureCode : Failure → String
  | .toolUnavailable .. => "tool-unavailable"
  | .toolTimeout .. => "tool-timeout"
  | .unparsable .. => "parse-failure"
  | _ => "checker-crashed"

def failureSeverity (t : SeverityTable) : Failure → Severity
  | .unparsable .. => t.unparsedFailure
  | _ => t.toolUnavailable

def isMissingTool : Failure → Bool
  | .toolUnavailable .. => true
  | _ => false

def reported (c : Check) (e : Failure) (code : String) (severity : Severity) : Findings :=
  { issues := [failureIssue c.name c.source e code severity] }

/-- What a check contributes, given how it went. -/
def settle (c : Check) (t : SeverityTable) (went : Outcome Findings) : Outcome Findings :=
  match went with
  | .ok f => .ok f.deduplicated
  | .error e =>
    if e.endsRun then .error e
    else if c.isOptional && isMissingTool e then .ok {}
    else .ok (c.reported e (failureCode e) (failureSeverity t e))

def run (c : Check) (ctx : Context) : Run Findings := do
  if c.escapes then c.perform ctx
  else Run.lift (c.settle ctx.config.severity (← Run.attempt (c.perform ctx)))

/-- Output that was cut off before anything could be read from it tells nothing. -/
def requireComplete (r : ToolResult) (tool : String) (issues : List Issue) : Outcome Unit :=
  if r.truncated && issues.isEmpty then
    .error (.unparsable tool (.text "output exceeded the size cap and no diagnostics could be parsed"))
  else .ok ()

end Check

end QualityGate
