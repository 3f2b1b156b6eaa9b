import QualityGate.Failure
import QualityGate.Output.TypeCheck

/-! Build logs: positional formats first, and free-form error lines when a
failing log holds none. -/

namespace QualityGate.Output.Build

open Text Text.Pattern

/-- `file:line:col: severity: message`, the severity in any case. -/
def compilerColon : Pattern :=
  ofList [capture "file" (ofList [one TypeCheck.isNotBlank, fewest (fun c => c != ':' && c != '\n') 0]), char ':',
    capture "line" digits, char ':', capture "col" digits, char ':', blanks 0,
    capture "severity" (orElse (wordIgnoringCase "error") (wordIgnoringCase "warning")), char ':', blanks 0,
    capture "message" (many anyChar 1), atEnd]

/-- `SEVERITY in file line:col-col`, the position optional and the message on a later line. -/
def bundlerHeader : Pattern :=
  ofList [capture "severity" (words ["ERROR", "WARNING"]), word " in ",
    capture "file" (fewest TypeCheck.isNotBlank 1),
    Pattern.optional (ofList [blanks 1, capture "line" digits, char ':', capture "col" digits,
      Pattern.optional (ofList [char '-', digits])]),
    blanks 0, atEnd]

/-- A mark, the severity in brackets and the message. -/
def marked : Pattern :=
  ofList [blanks 0, one fun c => ['✘', 'X', '×', '▲'].contains c, blanks 0, char '[',
    capture "severity" (words ["ERROR", "WARNING"]), char ']', blanks 0, capture "message" (many anyChar 1), atEnd]

def patterns : List Pattern :=
  [TypeCheck.parenPosition, TypeCheck.colonPosition, compilerColon, bundlerHeader, marked]

def errorToken : Pattern := ofList [wordEdge, words ["ERROR", "error", "Error"], wordEdge]

def zeroErrors : Pattern :=
  ofList [wordEdge, char '0', blanks 1, wordIgnoringCase "error", Pattern.optional (wordIgnoringCase "s"), wordEdge]

/-- Lines by which the package manager reports that a script failed. -/
def managerNoise : Pattern :=
  ofList [word "npm ", words ["ERR!", "error"], blanks 0,
    oneOf [word "code", word "path", word "command", word "errno", word "A complete log", ofList [blanks 0, atEnd]]]

def isFreeFormError (line : List Char) : Bool :=
  !line.isEmpty && errorToken.occursIn line && !zeroErrors.occursIn line && (managerNoise.matchPrefix? line).isNone

def nonEmpty? (s : Option (List Char)) : Option (List Char) := s.filter fun cs => !cs.isEmpty

def toIssue (table : SeverityTable) (m : Found) (next : List Char) : Outcome Issue := do
  let message := trim ((nonEmpty? (m.group? "message")).getD next)
  .ok { file := trimmed m "file"
        line := ← numberOf m "line"
        column := ← numberOf m "col"
        source := .build
        severity := table.forBuild (((nonEmpty? (m.group? "severity")).map String.ofList).getD "error")
        message := if message.isEmpty then "Build error" else String.ofList message
        suggestedFix := match m.text? "code" with
          | some code => TypeCheck.suggestFix code
          | none => "Fix build error"
        code := m.text? "code" }

/-- Each match with the first line after it that is not blank, trimmed. -/
def withNext (lines : List (List Char × Option Found)) : List (Found × List Char) :=
  (lines.foldr (fun l (s : List Char × List (Found × List Char)) =>
    let found := match l.2 with
      | some m => (m, s.1) :: s.2
      | none => s.2
    (if isBlankLine l.1 then s.1 else trim l.1, found)) ([], [])).2

def freeForm (table : SeverityTable) (lines : List (List Char)) : List Issue :=
  ((lines.map trim).filter isFreeFormError).map fun line =>
    { source := .build, severity := table.forBuild "error", message := String.ofList line,
      suggestedFix := "Fix build error" }

/-- What the winning positional format finds. -/
def positional (table : SeverityTable) (lines : List (List Char)) : Outcome (List Issue) :=
  (withNext (lines.zip (bestMatches patterns lines))).mapM fun (m, next) => toIssue table m next

def issues (table : SeverityTable) (stdout stderr : String) (exitCode : Int) : Outcome (List Issue) := do
  let lines := combinedLines stdout stderr
  let matched ← positional table lines
  requireSome "build" "errors" exitCode <|
    if !matched.isEmpty then matched
    else if exitCode != 0 then freeForm table lines
    else []

end QualityGate.Output.Build
