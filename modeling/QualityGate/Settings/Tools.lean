import QualityGate.Finding.Severity

/-! The external tools and the bounds they run under. -/

namespace QualityGate

open Schema

def startsWithDash (s : String) : Bool := s.toList.head? == some '-'

structure ToolCommand where
  command : List String
  timeout : Int := 120
  maxOutputBytes : Int := 52428800
  deriving DecidableEq, Repr

namespace ToolCommand

def launchers : List String := ["npx", "pnpm", "yarn", "bunx"]

/-- The tool behind a launcher, or the script that the package manager runs. -/
def name (t : ToolCommand) : String :=
  match t.command.filter fun part => !startsWithDash part with
  | [] => "unknown"
  | [tool] => tool
  | launcher :: tool :: rest =>
    if launchers.contains launcher then tool
    else if launcher == "npm" then
      match tool == "run", rest with
      | true, script :: _ => "npm run " ++ script
      | _, _ => "npm " ++ tool
    else launcher

def reader : Reader ToolCommand :=
  record fun e =>
    ToolCommand.mk
      <$> required e "command" (listOf string)
      <*> optional e "timeout" 120 int
      <*> optional e "max_output_bytes" 52428800 int

def toJson (t : ToolCommand) : Json :=
  .obj [("command", .arr (t.command.map .str)), ("timeout", .int t.timeout),
    ("max_output_bytes", .int t.maxOutputBytes)]

end ToolCommand

structure Tools where
  typeCheck : ToolCommand := { command := ["npx", "tsc", "--noEmit", "--pretty", "false"] }
  lint : ToolCommand := { command := ["npx", "eslint", ".", "--format", "json"] }
  lintFix : ToolCommand := { command := ["npx", "eslint", "--fix"] }
  build : ToolCommand := { command := ["npm", "run", "build"], timeout := 300 }
  dependencyAudit : ToolCommand := { command := ["npm", "audit", "--json"], timeout := 60 }
  counterTimeout : Int := 30
  deriving DecidableEq, Repr

namespace Tools

def reader : Reader Tools :=
  record fun e =>
    let d : Tools := {}
    Tools.mk
      <$> optional e "type_check" d.typeCheck ToolCommand.reader
      <*> optional e "lint" d.lint ToolCommand.reader
      <*> optional e "lint_fix" d.lintFix ToolCommand.reader
      <*> optional e "build" d.build ToolCommand.reader
      <*> optional e "dependency_audit" d.dependencyAudit ToolCommand.reader
      <*> optional e "counter_timeout" d.counterTimeout int

def toJson (t : Tools) : Json :=
  .obj [("type_check", t.typeCheck.toJson), ("lint", t.lint.toJson), ("lint_fix", t.lintFix.toJson),
    ("build", t.build.toJson), ("dependency_audit", t.dependencyAudit.toJson),
    ("counter_timeout", .int t.counterTimeout)]

end Tools

end QualityGate
