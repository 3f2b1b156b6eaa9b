import QualityGate.Report.Basic
import QualityGate.Json.WholeNumber

/-! The written form of a report, and reading it back. -/

namespace QualityGate

open Schema

namespace Summary

def toJson (s : Summary) : Json := .obj [("errorCount", .int s.errors), ("warningCount", .int s.warnings)]

def reader : Reader Summary :=
  record fun e =>
    Summary.mk
      <$> aliased e "errorCount" "error_count" (some 0) int
      <*> aliased e "warningCount" "warning_count" (some 0) int

end Summary

namespace Report

def toJson (r : Report) : Json :=
  .obj [("passed", .bool r.passed), ("totalFiles", .int r.totalFiles), ("totalErrors", .int r.errorCount),
    ("totalWarnings", .int r.warningCount), ("totalSuppressions", .int r.suppressions.length),
    ("errors", .arr (r.errors.map Issue.toJson)), ("warnings", .arr (r.warnings.map Issue.toJson)),
    ("suppressions", .arr (r.suppressions.map Suppression.toJson)),
    ("businessLogicConcerns", .arr (r.concerns.map .str)),
    ("summary", .obj (r.summary.map fun (s, c) => (Labelled.label s, c.toJson))),
    ("codeQualityScore", .int r.qualityScore), ("timestamp", .str r.timestamp.text)]

def text (r : Report) : String := r.toJson.text (Json.indented 2)

/-- What a loop over the value sees. -/
def iterated? (v : Json) : Option (List Json) :=
  match v with
  | .arr items => some items
  | .str s => some (s.toList.map fun c => .str (String.singleton c))
  | .obj fields => some (fields.map fun f => .str f.1)
  | _ => none

def issueItems (v : Json) : Outcome (List Json) :=
  match iterated? v with
  | some items => .ok items
  | none => .error (.badType ("Value after * must be an iterable, not " ++ v.kindName))

def items (v : Json) : Outcome (List Json) :=
  match iterated? v with
  | some items => .ok items
  | none => .error (.badType ("'" ++ v.kindName ++ "' object is not iterable"))

def fieldOr (v : Json) (name : String) (default : Json) : Json := (v.field? name).getD default

def needed (v : Json) (name : String) : Outcome Json :=
  match v.field? name with
  | some x => .ok x
  | none => .error (.missingKey name)

def readAs {α : Type} (r : Reader α) (v : Json) : Outcome α := (r (.ofJson v)).toOutcome

def summaryEntry (f : String × Json) : Outcome (Source × Summary) :=
  match Labelled.ofLabel? f.1 with
  | none => .error (.badValue (Labelled.unknown Source (.str f.1)))
  | some source => do .ok (source, ← readAs Summary.reader f.2)

def summaryOfJson : Json → Outcome Details
  | .obj fields => fields.mapM summaryEntry
  | v => .error (.missingMember ("'" ++ v.kindName ++ "' object has no attribute 'items'"))

def timestampOfJson : Json → Outcome Timestamp
  | .str s => (Timestamp.ofText s).mapError fun f => .badValue f.message
  | _ => .error (.badType "fromisoformat: argument must be str")

def scoreReader : Reader Nat := fun v =>
  (int v).andThen fun n =>
    if n < 0 then Checked.fail .belowMinimum
    else if 100 < n then Checked.fail .aboveMaximum
    else pure n.toNat

/-- Reads a report. The issues are put in order of severity only within the two lists they stand
in, errors first. -/
def ofJson (v : Json) : Outcome Report :=
  match v with
  | .obj _ => do
    let errors ← issueItems (fieldOr v "errors" (.arr []))
    let warnings ← issueItems (fieldOr v "warnings" (.arr []))
    let issues ← (errors ++ warnings).mapM (readAs Issue.reader)
    let passed ← needed v "passed"
    let suppressions ← (← items (fieldOr v "suppressions" (.arr []))).mapM (readAs Suppression.reader)
    let score ← needed v "codeQualityScore"
    let summary ← summaryOfJson (fieldOr v "summary" (.obj []))
    let concerns ← items (fieldOr v "businessLogicConcerns" (.arr []))
    let timestamp ← timestampOfJson (← needed v "timestamp")
    let build (passed : Bool) (score : Nat) (total : Int) (concerns : List String) : Report :=
      ⟨passed, issues, suppressions, score, summary, total, concerns, timestamp⟩
    (build
      <$> (bool (.ofJson passed)).under (.name "passed")
      <*> (scoreReader (.ofJson score)).under (.name "quality_score")
      <*> (int (.ofJson (fieldOr v "totalFiles" (.int 0)))).under (.name "total_files")
      <*> ((listOf string) (.ofJson (.arr concerns))).under (.name "concerns") : Checked Report).toOutcome
  | v => .error (.missingMember ("'" ++ v.kindName ++ "' object has no attribute 'get'"))

def ofText (s : String) : Outcome Report := do
  ofJson (← (Json.read s.toList).mapError .ofJson)

end Report

end QualityGate
