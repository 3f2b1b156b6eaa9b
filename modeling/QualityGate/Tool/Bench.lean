import QualityGate.Failure
import QualityGate.Settings.Tools

/-! The external tools as a bench of replies known in advance, which records
every call made to it. -/

namespace QualityGate

structure ToolResult where
  stdout : String := ""
  stderr : String := ""
  exitCode : Int := 0
  /-- Some output was dropped because it went over its bound. -/
  truncated : Bool := false

def ToolResult.succeeded (r : ToolResult) : Bool := r.exitCode == 0

structure ToolCall where
  tool : String
  command : List String
  timeout : Int
  maxOutputBytes : Int
  deriving DecidableEq, Repr

abbrev Reply := Outcome ToolResult

structure Bench where
  replies : List (String × List Reply) := []
  calls : List ToolCall := []

namespace Bench

/-- The replies that are left after one call: the last one is given again and again. -/
def remaining : List Reply → List Reply
  | _ :: r :: rest => r :: rest
  | rest => rest

def reply (b : Bench) (tool : String) : Reply :=
  match b.replies.lookup tool with
  | some (r :: _) => r
  | _ => .error (.toolUnavailable tool "not scripted")

def call (b : Bench) (c : ToolCall) : Reply × Bench :=
  (b.reply c.tool,
    { replies := b.replies.map fun (name, rs) => if name == c.tool then (name, remaining rs) else (name, rs)
      calls := b.calls ++ [c] })

end Bench

/-- The call of a configured tool; another time bound may be given. -/
def ToolCommand.toCall (t : ToolCommand) (timeout : Int) : ToolCall :=
  ⟨t.name, t.command, timeout, t.maxOutputBytes⟩

end QualityGate
