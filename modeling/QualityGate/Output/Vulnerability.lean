import QualityGate.Json.WholeNumber
import QualityGate.Output.TypeCheck

/-! Package audit reports: the newer shape with one entry per vulnerable
package and the older one with one entry per advisory. -/

namespace QualityGate.Output.Vulnerability

def unparsable (detail : String) : Failure := .unparsable "dependency-audit" (.text detail)

/-- What a loop over the value sees: the items of a list, the characters of a text, the names of an
object. -/
def itemsOf (v : Json) : Outcome (List Json) :=
  match v with
  | .arr items => .ok items
  | .str s => .ok (s.toList.map fun c => .str (String.singleton c))
  | .obj fields => .ok (fields.map fun f => .str f.1)
  | v => .error (.badType ("'" ++ Json.kindName v ++ "' object is not iterable"))

def titleOf? (via : Json) : Option String := (via.present? "title").map Plain.text

def nameOf? : Json → Option String
  | .str s => some s
  | _ => none

def title (entry : Json) : Outcome String := do
  let via ← itemsOf ((entry.field? "via").getD (.arr []))
  match via.findSome? titleOf? with
  | some t => .ok t
  | none =>
    let names := via.filterMap nameOf?
    .ok (if names.isEmpty then "Unknown vulnerability" else "Vulnerable through " ++ ", ".intercalate names)

def fix (name : String) (available : Json) : String :=
  match available.present? "name" with
  | some n =>
    "Update " ++ Plain.text n ++ " to version " ++ ((available.field? "version").map Plain.text).getD "latest"
  | none =>
    if available.isPresent then "Run npm audit fix" else "No fix available; consider replacing " ++ name

def severityOf (table : SeverityTable) (entry : Json) : Severity :=
  table.forDependency (((entry.field? "severity").map Plain.text).getD "high")

def packageIssue (table : SeverityTable) (manifest name : String) (entry : Json) : Outcome Issue := do
  let t ← title entry
  .ok { file := manifest, source := .dependency, severity := severityOf table entry,
        message := "Security vulnerability in " ++ name ++ ": " ++ t,
        suggestedFix := fix name ((entry.field? "fixAvailable").getD .null), code := some name }

def advisoryIssue (table : SeverityTable) (manifest id : String) (advisory : Json) : Issue :=
  let module := ((advisory.field? "module_name").map Plain.text).getD "unknown"
  let patched := ((advisory.present? "patched_versions").map Plain.text).getD "latest"
  { file := manifest, source := .dependency, severity := severityOf table advisory,
    message := "Security vulnerability in " ++ module ++ ": " ++ ((advisory.field? "title").map Plain.text).getD "Unknown",
    suggestedFix := "Update " ++ module ++ " to version " ++ patched, code := some (module ++ "#" ++ id) }

def isEntry (f : String × Json) : Bool :=
  match f.2 with
  | .obj _ => true
  | _ => false

def byName (fields : List (String × Json)) : List (String × Json) :=
  fields.mergeSort fun a b => !(b.1 < a.1)

def errorSummary (error : Json) : String :=
  let summary := match error with
    | .obj _ => (error.field? "summary").getD .null
    | e => .str (Plain.text e)
  if summary.isPresent then Plain.text summary else "audit reported an error"

def issues (table : SeverityTable) (manifest : String) (payload : Json) : Outcome (List Issue) :=
  match payload with
  | .obj _ =>
    match payload.field? "error", payload.field? "vulnerabilities", payload.field? "advisories" with
    | some e, _, _ => .error (unparsable (errorSummary e))
    | none, some (.obj fields), _ =>
      ((byName fields).filter isEntry).mapM fun f => packageIssue table manifest f.1 f.2
    | none, _, some (.obj fields) =>
      .ok ((fields.filter isEntry).map fun f => advisoryIssue table manifest f.1 f.2)
    | none, _, _ =>
      if (payload.field? "metadata").isSome || (payload.field? "auditReportVersion").isSome then .ok []
      else .error (unparsable "no vulnerabilities or advisories section")
  | _ => .error (unparsable "expected a JSON object")

end QualityGate.Output.Vulnerability
