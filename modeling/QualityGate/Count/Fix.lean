import QualityGate.Count.Counter

/-! The linter's own repair, with the counts before and after it. -/

namespace QualityGate

structure Fix where
  before : ErrorCount
  after : ErrorCount
  exitCode : Int
  targets : List String

namespace Fix

def fixedErrors (f : Fix) : Int := max 0 (f.before.lintErrors - f.after.lintErrors)

def fixedWarnings (f : Fix) : Int := max 0 (f.before.lintWarnings - f.after.lintWarnings)

/-- The given files, or the whole project when there are none. -/
def targetsOf (files : List String) : List String := if files.isEmpty then ["."] else files

def toCall (config : Config) (files : List String) : ToolCall :=
  let tool := config.tools.lintFix
  ⟨tool.name ++ " --fix", tool.command ++ targetsOf files, tool.timeout, tool.maxOutputBytes⟩

def counted (count : Run ErrorCount) (config : Config) (files : List String) : Run Fix := do
  let before ← count
  let r ← Run.call (toCall config files)
  let after ← count
  return ⟨before, after, r.exitCode, targetsOf files⟩

/-- No editor stands in for the tools unless another count is given. -/
def run (root : Path) (config : Config) (files : List String) : Run Fix := counted (Count.run root config none) config files

end Fix

end QualityGate
