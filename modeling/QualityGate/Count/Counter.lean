import QualityGate.Check.External
import QualityGate.Diagnostics.Basic

/-! The quick count. The tools run first; when one is missing or too slow, the
editor's diagnostics of its category stand in for it. -/

namespace QualityGate.Count

/-- The numbers of one category and how they were obtained. -/
structure Category where
  tool : String
  errors : Nat := 0
  warnings : Nat := 0
  origin : CountOrigin := .none
  /-- The tool is missing or was too slow. -/
  toolFailed : Bool := false
  /-- The tool failed or was cut off, yet nothing was counted. -/
  exitFailed : Bool := false

namespace Category

/-- The tool failed and nothing else stood in for it. -/
def isUnreliable (c : Category) : Bool := c.exitFailed || (c.toolFailed && c.origin == .none)

def hasFailed (c : Category) : Bool := c.toolFailed || c.exitFailed

def ofTypeCheck (tool : String) (r : ToolResult) : Outcome Category :=
  let errors := Output.TypeCheck.errorCount r.stdout r.stderr
  .ok { tool, errors, origin := .tool, exitFailed := (!r.succeeded || r.truncated) && errors == 0 }

def ofLint (tool : String) (r : ToolResult) : Outcome Category := do
  let c ← Output.Lint.counts r.stdout r.stderr
  .ok { tool
        errors := c.errors
        warnings := c.warnings
        origin := .tool
        exitFailed := (!r.succeeded || r.truncated) && c.errors + c.warnings == 0 }

def ofEditor (tool : String) (source : Source) (ds : List EditorDiagnostic) : Category :=
  let own := ds.filter fun d => d.category == source
  { tool
    errors := own.countP EditorDiagnostic.isError
    warnings := own.countP EditorDiagnostic.isWarning
    origin := .editor
    toolFailed := true }

/-- Diagnostics that cannot be had leave the category without numbers. -/
def standIn (tool : String) (source : Source) (editor : Option (Outcome (List EditorDiagnostic))) : Outcome Category :=
  match editor with
  | none => .ok { tool, toolFailed := true }
  | some (.ok ds) => .ok (ofEditor tool source ds)
  | some (.error e) => if e.isGateFailure then .ok { tool, toolFailed := true } else .error e

/-- The numbers of a category, given what its tool replied. -/
def ofReply (tool : String) (source : Source) (read : String → ToolResult → Outcome Category) (reply : Reply)
    (editor : Option (Outcome (List EditorDiagnostic))) : Outcome Category :=
  match reply with
  | .ok r => read tool r
  | .error (.toolUnavailable ..) | .error (.toolTimeout ..) => standIn tool source editor
  | .error e => .error e

end Category

def merge (typeCheck lint : Category) : ErrorCount :=
  let both := [typeCheck, lint]
  { typeCheckErrors := typeCheck.errors
    typeCheckWarnings := typeCheck.warnings
    lintErrors := lint.errors
    lintWarnings := lint.warnings
    origins := [("type-check", typeCheck.origin), ("lint", lint.origin)]
    failedTools := (both.filter Category.hasFailed).map Category.tool
    suspiciousZero :=
      typeCheck.errors + typeCheck.warnings + (lint.errors + lint.warnings) == 0 && both.any Category.isUnreliable }

def typeCheckCategory (root : Path) (config : Config) (provider : Option Provider) : Run Category := do
  let tool := config.tools.typeCheck
  let w ← Run.workspace
  if !Check.TypeChecking.hasProject w root tool then return { tool := tool.name }
  let reply ← Run.attempt (Run.call (tool.toCall config.tools.counterTimeout))
  Run.lift (Category.ofReply tool.name .typeCheck Category.ofTypeCheck reply (provider.map (Provider.all w)))

def lintCategory (config : Config) (provider : Option Provider) : Run Category := do
  let tool := config.tools.lint
  let w ← Run.workspace
  let reply ← Run.attempt (Run.call (tool.toCall config.tools.counterTimeout))
  Run.lift (Category.ofReply tool.name .lint Category.ofLint reply (provider.map (Provider.all w)))

/-- An interruption by the user ends the count at once. -/
def stopIfInterrupted (went : Outcome Category) : Run Unit :=
  match went with
  | .error (.interrupted detail) => throw (.interrupted detail)
  | _ => return

/-- Counts both categories. The second is counted even where the first fails, unless the user
interrupts. -/
def run (root : Path) (config : Config) (provider : Option Provider) : Run ErrorCount := do
  let typeCheck ← Run.attempt (typeCheckCategory root config provider)
  stopIfInterrupted typeCheck
  let lint ← Run.attempt (lintCategory config provider)
  stopIfInterrupted lint
  let count := merge (← Run.lift typeCheck) (← Run.lift lint)
  if count.suspiciousZero then Run.publish (.suspiciousZero count.failedTools)
  return count

end QualityGate.Count
