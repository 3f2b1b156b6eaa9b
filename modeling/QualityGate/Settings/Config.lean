import QualityGate.Settings.SeverityTable
import QualityGate.Settings.Tools

/-! The configuration of a workspace. -/

namespace QualityGate

open Schema

/-- Directories that are never scanned, whatever the configuration says. -/
def alwaysExcluded : List String :=
  ["node_modules", "dist", "build", "coverage", "out", ".next", ".git", ".hg", ".svn"]

structure FileSelection where
  included : List String := ["**/*.ts", "**/*.tsx", "**/*.js", "**/*.jsx", "**/*.json", "**/.eslintrc*"]
  excluded : List String := []
  deriving DecidableEq, Repr

namespace FileSelection

def reader : Reader FileSelection :=
  record fun e =>
    let d : FileSelection := {}
    FileSelection.mk
      <$> optional e "include" d.included (listOf string)
      <*> optional e "exclude" d.excluded (listOf string)

def toJson (s : FileSelection) : Json :=
  .obj [("include", .arr (s.included.map .str)), ("exclude", .arr (s.excluded.map .str))]

end FileSelection

/-- What an issue costs: an error weight and a warning weight for each source. -/
structure ScoreWeights where
  perSource : List (Source × Int × Int) :=
    [(.build, 15, 3), (.typeCheck, 10, 2), (.wellFormed, 10, 2), (.dependency, 10, 2), (.config, 10, 2), (.lint, 5, 1)]
  suppression : Int := 1
  deriving DecidableEq, Repr

namespace ScoreWeights

def weight (w : ScoreWeights) (source : Source) (severity : Severity) : Int :=
  let (error, warning) := (w.perSource.lookup source).getD (10, 2)
  if severity.isError then error else warning

def reader : Reader ScoreWeights :=
  record fun e =>
    let d : ScoreWeights := {}
    ScoreWeights.mk
      <$> optional e "per_source" d.perSource (mapOf Labelled.reader (pairOf int))
      <*> optional e "suppression" d.suppression int

def toJson (w : ScoreWeights) : Json :=
  .obj [("per_source", .obj (w.perSource.map fun (s, e, n) => (Labelled.label s, .arr [.int e, .int n]))),
    ("suppression", .int w.suppression)]

end ScoreWeights

structure Config where
  strictMode : Bool := false
  tools : Tools := {}
  files : FileSelection := {}
  severity : SeverityTable := {}
  scoring : ScoreWeights := {}
  newProjectFileThreshold : Int := 10
  pollInterval : Float := 5
  gitConfigSection : String := "bastion"

namespace Config

def reader : Reader Config :=
  record fun e =>
    let d : Config := {}
    Config.mk
      <$> optional e "strict_mode" d.strictMode bool
      <*> optional e "tools" d.tools Tools.reader
      <*> optional e "files" d.files FileSelection.reader
      <*> optional e "severity" d.severity SeverityTable.reader
      <*> optional e "scoring" d.scoring ScoreWeights.reader
      <*> optional e "new_project_file_threshold" d.newProjectFileThreshold int
      <*> optional e "poll_interval" d.pollInterval float
      <*> optional e "git_config_section" d.gitConfigSection string

def toJson (c : Config) : Json :=
  .obj [("strict_mode", .bool c.strictMode), ("tools", c.tools.toJson), ("files", c.files.toJson),
    ("severity", c.severity.toJson), ("scoring", c.scoring.toJson),
    ("new_project_file_threshold", .int c.newProjectFileThreshold), ("poll_interval", .float c.pollInterval),
    ("git_config_section", .str c.gitConfigSection)]

end Config

end QualityGate
