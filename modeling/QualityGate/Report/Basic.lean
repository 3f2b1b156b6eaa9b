import QualityGate.Finding.Issue
import QualityGate.Settings.Config
import QualityGate.Timestamp

/-! The report that merges what all checks found. -/

namespace QualityGate

structure Summary where
  errors : Int := 0
  warnings : Int := 0
  deriving DecidableEq, Repr

abbrev Details := List (Source × Summary)

/-- Stable, the gravest first. -/
def sortIssues (issues : List Issue) : List Issue :=
  issues.mergeSort fun a b => a.severity.rank ≤ b.severity.rank

def summaryOf (issues : List Issue) (source : Source) : Summary :=
  let own := issues.filter fun i => i.source = source
  ⟨own.countP Issue.isError, own.countP fun i => !i.isError⟩

/-- One entry for every source. -/
def summarize (issues : List Issue) : Details := Source.all.map fun s => (s, summaryOf issues s)

structure Report where
  passed : Bool
  issues : List Issue
  suppressions : List Suppression
  qualityScore : Nat
  summary : Details
  totalFiles : Int
  concerns : List String
  timestamp : Timestamp
  deriving DecidableEq, Repr

namespace Report

def errors (r : Report) : List Issue := r.issues.filter Issue.isError

def warnings (r : Report) : List Issue := r.issues.filter fun i => !i.isError

def errorCount (r : Report) : Nat := r.errors.length

def warningCount (r : Report) : Nat := r.warnings.length

def unsafeSuppressions (r : Report) : List Suppression := r.suppressions.filter Suppression.shouldFlag

def errorsFor (r : Report) (s : Source) : Int := ((r.summary.lookup s).map Summary.errors).getD 0

/-- A hundred minus the weights of all issues and unsafe suppressions, kept between zero and a
hundred. -/
def score (issues : List Issue) (suppressions : List Suppression) (w : ScoreWeights) : Nat :=
  let deduction := (issues.map fun i => w.weight i.source i.severity).foldr (· + ·) 0 +
    w.suppression * (suppressions.countP Suppression.shouldFlag)
  (max 0 (min 100 (100 - deduction))).toNat

def build (results : List Findings) (w : ScoreWeights) (totalFiles : Int) (timestamp : Timestamp) : Report :=
  let issues := sortIssues (results.flatMap Findings.issues)
  let suppressions := results.flatMap Findings.suppressions
  { passed := !issues.any Issue.isError
    issues
    suppressions
    qualityScore := score issues suppressions w
    summary := summarize issues
    totalFiles
    concerns := results.flatMap Findings.concerns
    timestamp }

/-- Whether a report that was made at a time of a zone is equal to another one, field for field. -/
def EqualsAt (z : Zoned) (r r' : Report) : Prop :=
  r' = { r with timestamp := r'.timestamp } ∧ z.equals r'.timestamp = true

end Report

end QualityGate
