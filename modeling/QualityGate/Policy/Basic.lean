import QualityGate.Report.Basic

/-! The state of protection and the decisions taken under it. -/

namespace QualityGate

open Schema

/-- Errors always block; warnings block only under zero tolerance. -/
inductive EnforcementLevel where
  | advisory | zeroTolerance
  deriving DecidableEq, Repr

instance : Labelled EnforcementLevel where
  members := [.advisory, .zeroTolerance]
  label
    | .advisory => "advisory"
    | .zeroTolerance => "zero-tolerance"
  title := "EnforcementLevel"

def EnforcementLevel.ofStrict (strict : Bool) : EnforcementLevel := if strict then .zeroTolerance else .advisory

inductive ProjectClass where
  | fresh | legacy | legacyWithErrors | unknown
  deriving DecidableEq, Repr

instance : Labelled ProjectClass where
  members := [.fresh, .legacy, .legacyWithErrors, .unknown]
  label
    | .fresh => "new"
    | .legacy => "legacy"
    | .legacyWithErrors => "legacy-with-errors"
    | .unknown => "unknown"
  title := "ProjectClass"

inductive Trigger where
  | save | commit | build
  deriving DecidableEq, Repr

instance : Labelled Trigger where
  members := [.save, .commit, .build]
  label
    | .save => "save"
    | .commit => "commit"
    | .build => "build"
  title := "Trigger"

structure PolicyState where
  enabled : Bool := false
  level : EnforcementLevel := .advisory
  projectClass : ProjectClass := .unknown
  deriving DecidableEq, Repr

namespace PolicyState

def reader : Reader PolicyState :=
  record fun e =>
    PolicyState.mk
      <$> optional e "enabled" false bool
      <*> optional e "enforcement_level" .advisory Labelled.reader
      <*> optional e "project_class" .unknown Labelled.reader

def toJson (s : PolicyState) : Json :=
  .obj [("enabled", .bool s.enabled), ("enforcement_level", .str (Labelled.label s.level)),
    ("project_class", .str (Labelled.label s.projectClass))]

end PolicyState

structure Decision where
  allowed : Bool
  reason : String
  trigger : Trigger
  errors : Int := 0
  warnings : Int := 0
  suppressions : Nat := 0
  details : Details := []
  level : EnforcementLevel := .advisory
  projectClass : ProjectClass := .unknown
  overrideRequested : Bool := false
  overrideHonored : Bool := false
  deriving DecidableEq, Repr

/-- The counts that are not zero, by category, in parentheses. -/
def breakdown (details : Details) (count : Summary → Int) : String :=
  let parts := Source.all.filterMap fun s =>
    match details.lookup s with
    | some c => if count c != 0 then some (s.category ++ ": " ++ toString (count c)) else none
    | none => none
  if parts.isEmpty then "" else " (" ++ ", ".intercalate parts ++ ")"

def describeCounts (errors warnings : Int) (details : Details) (suppressions : Option Int) : String :=
  toString errors ++ " error(s)" ++ breakdown details Summary.errors ++ ", " ++ toString warnings ++
    " warning(s)" ++ breakdown details Summary.warnings ++
    match suppressions with
    | some n => ", " ++ toString n ++ " unsafe suppression(s)"
    | none => ""

end QualityGate
