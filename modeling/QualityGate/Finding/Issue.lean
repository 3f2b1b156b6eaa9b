import QualityGate.Finding.Severity

/-! Findings: issues, suppressions and what one check found. -/

namespace QualityGate

open Schema

structure Issue where
  file : String := ""
  line : Nat := 0
  column : Nat := 0
  source : Source
  severity : Severity
  message : String
  suggestedFix : String := ""
  code : Option String := none
  deriving DecidableEq, Repr

namespace Issue

def isError (i : Issue) : Bool := i.severity.isError

/-- What makes two issues of one check the same: place and code, or place and message where there
is no code. -/
def identity (i : Issue) : String × Nat × Nat × String :=
  (i.file, i.line, i.column, i.code.getD ("msg:" ++ i.message))

def reader : Reader Issue :=
  record fun e =>
    Issue.mk
      <$> optional e "file" "" string
      <*> optional e "line" 0 atLeastZero
      <*> optional e "column" 0 atLeastZero
      <*> required e "source" Labelled.reader
      <*> required e "severity" Labelled.reader
      <*> required e "message" string
      <*> aliased e "suggestedFix" "suggested_fix" (some "") string
      <*> optional e "code" none (nullable string)

def toJson (i : Issue) : Json :=
  .obj [("file", .str i.file), ("line", .int i.line), ("column", .int i.column),
    ("source", .str (Labelled.label i.source)), ("severity", .str (Labelled.label i.severity)),
    ("message", .str i.message), ("suggestedFix", .str i.suggestedFix),
    ("code", i.code.elim .null .str)]

end Issue

inductive SuppressionKind where
  | ignoreLine | expectError | disableFile | disableRules
  deriving DecidableEq, Repr

instance : Labelled SuppressionKind where
  members := [.ignoreLine, .expectError, .disableFile, .disableRules]
  label
    | .ignoreLine => "IgnoreLine"
    | .expectError => "ExpectError"
    | .disableFile => "DisableFile"
    | .disableRules => "DisableRules"
  title := "SuppressionKind"

/-- A directive in a source file that silences a diagnostic. -/
structure Suppression where
  file : String
  line : Nat
  kind : SuppressionKind
  directive : String
  rule : Option String := none
  shouldFlag : Bool
  reason : String := ""
  deriving DecidableEq, Repr

namespace Suppression

def reader : Reader Suppression :=
  record fun e =>
    Suppression.mk
      <$> required e "file" string
      <*> required e "line" atLeastZero
      <*> required e "kind" Labelled.reader
      <*> required e "directive" string
      <*> optional e "rule" none (nullable string)
      <*> aliased e "shouldFlag" "should_flag" none bool
      <*> optional e "reason" "" string

def toJson (s : Suppression) : Json :=
  .obj [("file", .str s.file), ("line", .int s.line), ("kind", .str (Labelled.label s.kind)),
    ("directive", .str s.directive), ("rule", s.rule.elim .null .str),
    ("shouldFlag", .bool s.shouldFlag), ("reason", .str s.reason)]

end Suppression

/-- What one check found. -/
structure Findings where
  issues : List Issue := []
  suppressions : List Suppression := []
  concerns : List String := []
  deriving DecidableEq, Repr

namespace Findings

def firstOfEach (seen : List (String × Nat × Nat × String)) : List Issue → List Issue
  | [] => []
  | i :: is =>
    if seen.contains i.identity then firstOfEach seen is
    else i :: firstOfEach (i.identity :: seen) is

/-- Keeps the first issue of each identity. -/
def deduplicated (f : Findings) : Findings := { f with issues := firstOfEach [] f.issues }

end Findings

end QualityGate
