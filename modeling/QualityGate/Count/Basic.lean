import QualityGate.Report.Basic

/-! Error counts of the two categories that the quick count covers. -/

namespace QualityGate

open Schema

/-- Where a category's numbers come from. -/
inductive CountOrigin where
  | tool | editor | none
  deriving DecidableEq, Repr

instance : Labelled CountOrigin where
  members := [.tool, .editor, .none]
  label
    | .tool => "tool"
    | .editor => "editor"
    | .none => "none"
  title := "CountOrigin"

structure ErrorCount where
  typeCheckErrors : Int := 0
  typeCheckWarnings : Int := 0
  lintErrors : Int := 0
  lintWarnings : Int := 0
  origins : List (String × CountOrigin) := []
  failedTools : List String := []
  /-- Every count is zero and a tool failed. -/
  suspiciousZero : Bool := false
  deriving DecidableEq, Repr

namespace ErrorCount

def errors (c : ErrorCount) : Int := c.typeCheckErrors + c.lintErrors

def warnings (c : ErrorCount) : Int := c.typeCheckWarnings + c.lintWarnings

def total (c : ErrorCount) : Int := c.errors + c.warnings

def details (c : ErrorCount) : Details :=
  [(.typeCheck, ⟨c.typeCheckErrors, c.typeCheckWarnings⟩), (.lint, ⟨c.lintErrors, c.lintWarnings⟩)]

def sameNumbers (a b : ErrorCount) : Bool :=
  a.typeCheckErrors == b.typeCheckErrors && a.typeCheckWarnings == b.typeCheckWarnings &&
    a.lintErrors == b.lintErrors && a.lintWarnings == b.lintWarnings

def originOf (c : ErrorCount) (category : String) : CountOrigin := (c.origins.lookup category).getD .none

def reader : Reader ErrorCount :=
  record fun e =>
    ErrorCount.mk
      <$> optional e "type_check_errors" 0 int
      <*> optional e "type_check_warnings" 0 int
      <*> optional e "lint_errors" 0 int
      <*> optional e "lint_warnings" 0 int
      <*> optional e "origins" [] (mapOf string Labelled.reader)
      <*> optional e "failed_tools" [] (tupleOf string)
      <*> optional e "suspicious_zero" false bool

def toJson (c : ErrorCount) : Json :=
  .obj [("type_check_errors", .int c.typeCheckErrors), ("type_check_warnings", .int c.typeCheckWarnings),
    ("lint_errors", .int c.lintErrors), ("lint_warnings", .int c.lintWarnings),
    ("origins", .obj (c.origins.map fun (k, o) => (k, .str (Labelled.label o)))),
    ("failed_tools", .arr (c.failedTools.map .str)), ("suspicious_zero", .bool c.suspiciousZero)]

end ErrorCount

end QualityGate
