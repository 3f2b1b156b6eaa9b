import QualityGate.Check.Basic
import QualityGate.Json.Embedded
import QualityGate.Output.Build
import QualityGate.Output.Lint
import QualityGate.Output.TypeCheck
import QualityGate.Output.Vulnerability

/-! The checks that run an external tool and read its output. -/

namespace QualityGate.Check

def runTool (t : ToolCommand) : Run ToolResult := Run.call (t.toCall t.timeout)

namespace TypeChecking

def projectFiles : List String := ["tsconfig.json", "jsconfig.json"]

/-- Without a project file the compiler would only print how it is used. -/
def hasProject (w : Workspace) (root : Path) (t : ToolCommand) : Bool :=
  t.name != "tsc" || projectFiles.any fun name => w.contains (root.child name)

def findings (ctx : Context) (r : ToolResult) : Outcome Findings := do
  let tool := ctx.config.tools.typeCheck.name
  let issues ← Output.TypeCheck.issues ctx.config.severity r.stdout r.stderr
  requireComplete r tool issues
  let issues ← Output.requireSome tool "diagnostics" r.exitCode issues
  .ok { issues := ctx.localized issues }

def check : Check where
  name := "type-check"
  source := .typeCheck
  perform ctx := do
    let tool := ctx.config.tools.typeCheck
    if hasProject (← Run.workspace) ctx.root tool then Run.lift (findings ctx (← runTool tool))
    else return {}

end TypeChecking

namespace Linting

def findings (ctx : Context) (r : ToolResult) : Outcome Findings := do
  let issues ← Output.Lint.issues ctx.config.severity r.stdout r.stderr r.exitCode
  requireComplete r ctx.config.tools.lint.name issues
  .ok { issues := ctx.localized issues }

def check : Check where
  name := "lint"
  source := .lint
  perform ctx := do Run.lift (findings ctx (← runTool ctx.config.tools.lint))

end Linting

namespace Building

def manifest : String := "package.json"

/-- Whether the package has a script. A manifest that cannot be read has none; one that is no text
is a failure. -/
def hasScript (w : Workspace) (root : Path) (script : String) : Outcome Bool :=
  let p := root.child manifest
  if !w.contains p then .ok false
  else match w.readMarkedText p with
    | .error e => if e.isSystem then .ok false else .error e
    | .ok text =>
      match Json.read text with
      | .error f => if f.problem.isSyntax then .ok false else .error (.ofJson f)
      | .ok v =>
        match v.field? "scripts" with
        | some (.obj scripts) => .ok (scripts.any (·.1 == script))
        | _ => .ok false

/-- Whether the build would run a script that the package does not have. -/
def lacksScript (w : Workspace) (root : Path) (command : List String) : Outcome Bool :=
  match command with
  | "npm" :: "run" :: script :: _ => (hasScript w root script).map (!·)
  | _ => .ok false

def findings (ctx : Context) (r : ToolResult) : Outcome Findings := do
  let issues ← Output.Build.issues ctx.config.severity r.stdout r.stderr r.exitCode
  requireComplete r ctx.config.tools.build.name issues
  .ok { issues := ctx.localized issues }

def check : Check where
  name := "build"
  source := .build
  perform ctx := do
    let tool := ctx.config.tools.build
    if ← Run.lift (lacksScript (← Run.workspace) ctx.root tool.command) then return {}
    else Run.lift (findings ctx (← runTool tool))

end Building

namespace Dependencies

def lockFiles : List String := ["package-lock.json", "npm-shrinkwrap.json"]

def applies (w : Workspace) (root : Path) : Bool :=
  w.contains (root.child Building.manifest) && lockFiles.any fun name => w.contains (root.child name)

def findings (ctx : Context) (r : ToolResult) : Outcome Findings := do
  let tool := ctx.config.tools.dependencyAudit.name
  match ← (Json.payload? r.stdout.toList r.stderr.toList).mapError .ofJson with
  | none | some .null => .error (.unparsable tool (.text ("no JSON in output (exit code " ++ toString r.exitCode ++ ")")))
  | some payload =>
    let issues ← Output.Vulnerability.issues ctx.config.severity Building.manifest payload
    requireComplete r tool issues
    .ok { issues }

def check : Check where
  name := "dependency-audit"
  source := .dependency
  isOptional := true
  perform ctx := do
    if applies (← Run.workspace) ctx.root then Run.lift (findings ctx (← runTool ctx.config.tools.dependencyAudit))
    else return {}

end Dependencies

end QualityGate.Check
