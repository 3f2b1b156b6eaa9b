import QualityGate.Check.Basic
import QualityGate.Check.CompilerOptions

/-! The check that the configuration of compiler and linter can be read and
keeps the safety options on. -/

namespace QualityGate.Check.Configuration

def compilerFile : String := "tsconfig.json"

def linterFiles : List String := [".eslintrc.json", ".eslintrc"]

/-- The files this check answers for; other checks leave them alone. -/
def ownedFiles : List String := compilerFile :: linterFiles

def malformed (ctx : Context) (e : Failure) (file : String) : Issue :=
  { file := ctx.relative file
    source := .config
    severity := ctx.config.severity.configMalformed
    message := e.message
    suggestedFix := "Fix the JSON syntax in this configuration file"
    code := some "config-malformed" }

def unsafeOption (ctx : Context) (message fix code : String) : Issue :=
  { file := compilerFile
    source := .config
    severity := ctx.config.severity.configUnsafe
    message
    suggestedFix := fix
    code := some code }

def isTrue : Option Json → Bool
  | some (.bool b) => b
  | _ => false

def isFalse : Option Json → Bool
  | some (.bool b) => !b
  | _ => false

def optionIssues (ctx : Context) (options : Json.Fields) : List Issue :=
  (if isTrue (options.lookup "strict") then []
    else [unsafeOption ctx "Strict type-checking is not enabled" "Set \"strict\": true in compilerOptions" "strict"]) ++
  (if isFalse (options.lookup "noImplicitAny") then
    [unsafeOption ctx "noImplicitAny is disabled" "Remove \"noImplicitAny\": false from compilerOptions" "noImplicitAny"]
    else [])

def compilerIssues (ctx : Context) (w : Workspace) : Outcome (List Issue) :=
  let p := ctx.root.child compilerFile
  if !w.contains p then .ok []
  else match CompilerOptions.load w p with
    | .error e => if CompilerOptions.isInvalid e then .ok [malformed ctx e p.text] else .error e
    | .ok fields => do .ok (optionIssues ctx (← CompilerOptions.resolve w CompilerOptions.maxLinks p fields))

/-- A linter configuration without a suffix may be of another format; one that cannot be read is
taken for JSON. -/
def looksLikeJson (w : Workspace) (p : Path) : Bool :=
  match w.readMarkedText p with
  | .ok text => (Text.dropBlanks text).head? == some '\x7b'
  | .error _ => true

def linterIssues (ctx : Context) (w : Workspace) (name : String) : Outcome (List Issue) :=
  let p := ctx.root.child name
  if !w.contains p || (name == ".eslintrc" && !looksLikeJson w p) then .ok []
  else match CompilerOptions.load w p with
    | .error e => if CompilerOptions.isInvalid e then .ok [malformed ctx e p.text] else .error e
    | .ok _ => .ok []

def findings (ctx : Context) (w : Workspace) : Outcome Findings := do
  let issues ← compilerIssues ctx w
  let further ← linterFiles.mapM (linterIssues ctx w)
  .ok { issues := issues ++ further.flatten }

def check : Check where
  name := "config-audit"
  source := .config
  perform ctx := do Run.lift (findings ctx (← Run.workspace))

end QualityGate.Check.Configuration
