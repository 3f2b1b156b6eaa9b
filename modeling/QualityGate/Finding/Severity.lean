import QualityGate.Json.Writer
import QualityGate.Schema.Reader

/-! How grave a finding is and which kind of check it comes from. -/

namespace QualityGate

/-- A closed set of words, each member spelled by its label. -/
class Labelled (α : Type) where
  members : List α
  label : α → String
  title : String

namespace Labelled

variable {α : Type} [Labelled α]

def ofLabel? (s : String) : Option α := (members (α := α)).find? fun a => label a == s

def unknown (α : Type) [Labelled α] (given : Json) : String :=
  Plain.nested given ++ " is not a valid " ++ title α

def reader : Schema.Reader α := Schema.member .unknownMember ofLabel?

end Labelled

inductive Severity where
  | critical | high | medium | low
  deriving DecidableEq, Repr, Inhabited

namespace Severity

def rank : Severity → Nat
  | critical => 0
  | high => 1
  | medium => 2
  | low => 3

/-- The two gravest severities are errors, the others warnings. -/
def isError : Severity → Bool
  | critical | high => true
  | medium | low => false

instance : Labelled Severity where
  members := [critical, high, medium, low]
  label
    | critical => "Critical"
    | high => "High"
    | medium => "Medium"
    | low => "Low"
  title := "Severity"

end Severity

/-- The kind of check a finding comes from. -/
inductive Source where
  | typeCheck | lint | build | wellFormed | dependency | config
  deriving DecidableEq, Repr, Inhabited

namespace Source

def all : List Source := [typeCheck, lint, build, wellFormed, dependency, config]

instance : Labelled Source where
  members := all
  label
    | typeCheck => "TypeCheck"
    | lint => "Lint"
    | build => "Build"
    | wellFormed => "Syntax"
    | dependency => "Dependency"
    | config => "Config"
  title := "Source"

/-- The name used in running text. -/
def category : Source → String
  | typeCheck => "type-check"
  | lint => "lint"
  | build => "build"
  | wellFormed => "syntax"
  | dependency => "dependency"
  | config => "config"

end Source

end QualityGate
