import QualityGate.Finding.Severity

/-! Which severity each tool's own words stand for. -/

namespace QualityGate

open Schema

structure SeverityTable where
  typeCheck : List (String × Severity) := [("error", .critical), ("warning", .medium), ("message", .low)]
  lint : List (Int × Severity) := [(2, .high), (1, .medium), (0, .low)]
  build : List (String × Severity) := [("error", .critical), ("warning", .medium)]
  dependency : List (String × Severity) :=
    [("critical", .critical), ("high", .high), ("moderate", .medium), ("low", .low), ("info", .low)]
  toolUnavailable : Severity := .high
  unparsedFailure : Severity := .high
  configUnsafe : Severity := .high
  configMalformed : Severity := .critical
  malformedJson : Severity := .critical
  unbalancedBrackets : Severity := .medium
  unreadableFile : Severity := .high
  deriving DecidableEq, Repr

namespace SeverityTable

def forTypeCheck (t : SeverityTable) (label : String) : Severity :=
  (t.typeCheck.lookup (Text.toLowercase label)).getD .critical

def forLint (t : SeverityTable) (level : Int) : Severity := (t.lint.lookup level).getD .medium

def forBuild (t : SeverityTable) (label : String) : Severity :=
  (t.build.lookup (Text.toLowercase label)).getD .critical

def forDependency (t : SeverityTable) (label : String) : Severity :=
  (t.dependency.lookup (Text.toLowercase label)).getD .high

def reader : Reader SeverityTable :=
  record fun e =>
    let d : SeverityTable := {}
    let words := mapOf string (Labelled.reader (α := Severity))
    let levels := mapOf int (Labelled.reader (α := Severity))
    SeverityTable.mk
      <$> optional e "type_check" d.typeCheck words
      <*> optional e "lint" d.lint levels
      <*> optional e "build" d.build words
      <*> optional e "dependency" d.dependency words
      <*> optional e "tool_unavailable" d.toolUnavailable Labelled.reader
      <*> optional e "unparsed_failure" d.unparsedFailure Labelled.reader
      <*> optional e "config_unsafe" d.configUnsafe Labelled.reader
      <*> optional e "config_malformed" d.configMalformed Labelled.reader
      <*> optional e "malformed_json" d.malformedJson Labelled.reader
      <*> optional e "unbalanced_brackets" d.unbalancedBrackets Labelled.reader
      <*> optional e "unreadable_file" d.unreadableFile Labelled.reader

def toJson (t : SeverityTable) : Json :=
  let level (s : Severity) : Json := .str (Labelled.label s)
  let words (m : List (String × Severity)) : Json := .obj (m.map fun (k, s) => (k, level s))
  .obj [("type_check", words t.typeCheck),
    ("lint", .obj (t.lint.map fun (k, s) => (toString k, level s))),
    ("build", words t.build), ("dependency", words t.dependency),
    ("tool_unavailable", level t.toolUnavailable), ("unparsed_failure", level t.unparsedFailure),
    ("config_unsafe", level t.configUnsafe), ("config_malformed", level t.configMalformed),
    ("malformed_json", level t.malformedJson), ("unbalanced_brackets", level t.unbalancedBrackets),
    ("unreadable_file", level t.unreadableFile)]

end SeverityTable

end QualityGate
