import QualityGate.Json.Embedded
import QualityGate.Json.WholeNumber
import QualityGate.Output.TypeCheck

/-! Linter output: per-file JSON results, then the default text format, then
any line that mentions an error or a warning. -/

namespace QualityGate.Output.Lint

open Text Text.Pattern

def errorLevel : Int := 2

def warningLevel : Int := 1

/-! JSON results. -/

def messagesOf? (entry : Json) : Option (List Json) :=
  match entry with
  | .obj _ => match entry.field? "messages" with
    | none => some []
    | some (.arr items) => some items
    | some _ => none
  | _ => none

/-- The per-file results, each with its messages, of a payload of the expected shape. -/
def results? (payload : Json) : Option (List (Json × List Json)) :=
  match payload with
  | .arr entries => entries.mapM fun e => (messagesOf? e).map fun ms => (e, ms)
  | _ => none

def isObject : Json → Bool
  | .obj _ => true
  | _ => false

def isFatal (message : Json) : Bool := (message.present? "fatal").isSome

def levelOf (message : Json) : Outcome Int :=
  if isFatal message then .ok errorLevel else message.numberField "severity"

def fixFor (message : Json) (rule : Option Json) : String :=
  if (message.present? "fix").isSome then "Auto-fix available (run the lint fixer)"
  else match rule with
    | some r => "Fix lint rule: " ++ Plain.text r
    | none => "Fix the parse error reported by the linter"

def ruleCode (rule : Json) : Outcome (Option String) :=
  ((Schema.nullable Schema.string (.ofJson rule)).under (.name "code")).toOutcome

def messageIssue (table : SeverityTable) (file : String) (message : Json) : Outcome Issue := do
  let level ← levelOf message
  let line ← message.numberField "line"
  let column ← message.numberField "column"
  let code ← ruleCode ((message.field? "ruleId").getD .null)
  .ok { file, line := line.toNat, column := column.toNat, source := .lint, severity := table.forLint level,
        message := trimString (((message.field? "message").map Plain.text).getD ""),
        suggestedFix := fixFor message (message.present? "ruleId"), code }

def jsonIssues (table : SeverityTable) (payload : Json) : Outcome (List Issue) :=
  match results? payload with
  | none => .error (.unparsable "lint" (.text "JSON does not look like per-file lint results"))
  | some results => do
    let found ← results.mapM fun (entry, messages) =>
      let file := ((entry.present? "filePath").map Plain.text).getD ""
      (messages.filter isObject).mapM (messageIssue table file)
    .ok found.flatten

/-! The default text format. -/

/-- An indented `line:col  level  message  rule`. -/
def row : Pattern :=
  ofList [blanks 1, capture "line" digits, char ':', capture "col" digits, blanks 1,
    capture "level" (words ["error", "warning"]), blanks 1, capture "message" (fewest anyChar 1),
    Pattern.optional (ofList [blanks 2, capture "rule" (many (fun c => isWordChar c || ['@', '.', '/', '-'].contains c) 1)]),
    blanks 0, atEnd]

def plural (w : String) : List Pattern := [word w, Pattern.optional (char 's')]

def summary : Pattern :=
  ofList ([capture "problems" digits, blanks 1] ++ plural "problem" ++
    [blanks 1, char '(', capture "errors" digits, blanks 1] ++ plural "error" ++
    [char ',', blanks 1, capture "warnings" digits, blanks 1] ++ plural "warning" ++ [char ')'])

def rowIssue (table : SeverityTable) (file : String) (m : Found) : Outcome Issue := do
  let rule := m.text? "rule"
  .ok { file, line := ← numberOf m "line", column := ← numberOf m "col", source := .lint
        severity := table.forLint (if m.text "level" == "error" then errorLevel else warningLevel)
        message := trimmed m "message"
        suggestedFix := match rule with
          | some r => "Fix lint rule: " ++ r
          | none => "Review lint output"
        code := rule }

/-- A line that is neither indented nor a summary names the file of the rows below it. -/
def isFileHeader (line : List Char) : Bool :=
  match line with
  | c :: _ => !isBlank c && c != '✖' && c != '⚠'
  | [] => false

/-- The rows of a text, each with the file it is about. -/
def stylishStep (state : String × List (String × Found)) (line : List Char) : String × List (String × Found) :=
  if isBlankLine line then state
  else match row.matchPrefix? line with
    | some m => (state.1, (state.1, m) :: state.2)
    | none => if isFileHeader line then (String.ofList (trim line), state.2) else state

def stylishIssues (table : SeverityTable) (text : List Char) : Outcome (List Issue) :=
  ((splitLines (stripEscapes text)).foldl stylishStep ("", [])).2.reverse.mapM fun (file, m) => rowIssue table file m

/-! Any mention of an error or a warning. -/

def mention (w : String) : Pattern := ofList [wordEdge, wordIgnoringCase w, wordEdge]

def heuristicIssue? (table : SeverityTable) (line : List Char) : Option Issue :=
  let issue (level : Int) : Issue :=
    { source := .lint, severity := table.forLint level, message := String.ofList line,
      suggestedFix := "Review lint output and fix issues" }
  if line.isEmpty || summary.occursIn line then none
  else if (mention "error").occursIn line then some (issue errorLevel)
  else if (mention "warning").occursIn line then some (issue warningLevel)
  else none

def heuristicIssues (table : SeverityTable) (text : List Char) : List Issue :=
  (splitLines (stripEscapes text)).filterMap fun line => heuristicIssue? table (trim line)

/-! The whole output. -/

def textIssues (table : SeverityTable) (stdout stderr : String) : Outcome (List Issue) := do
  let text := stdout.toList ++ '\n' :: stderr.toList
  .ok <| match ← stylishIssues table text with
    | [] => heuristicIssues table text
    | found => found

def issuesOfText (table : SeverityTable) (stdout stderr : String) (exitCode : Int) : Outcome (List Issue) := do
  requireSome "lint" "diagnostics" exitCode (← textIssues table stdout stderr)

def issues (table : SeverityTable) (stdout stderr : String) (exitCode : Int) : Outcome (List Issue) := do
  match ← (Json.payload? stdout.toList stderr.toList).mapError Failure.ofJson with
  | none => issuesOfText table stdout stderr exitCode
  | some payload =>
    match jsonIssues table payload with
    | .error (.unparsable ..) => issuesOfText table stdout stderr exitCode
    | .error e => .error e
    | .ok found =>
      if !found.isEmpty || exitCode == 0 then .ok found else issuesOfText table stdout stderr exitCode

/-! The quick count. -/

inductive CountMethod where
  | json | summary | text
  deriving DecidableEq, Repr

structure Counts where
  errors : Nat
  warnings : Nat
  method : CountMethod
  deriving DecidableEq, Repr

def isError (message : Json) : Bool :=
  isFatal message || ((message.field? "severity").getD .null).isNumber errorLevel

def isWarning (message : Json) : Bool :=
  !isError message && ((message.field? "severity").getD .null).isNumber warningLevel

def countJson (results : List (Json × List Json)) : Counts :=
  let messages := (results.flatMap (·.2)).filter isObject
  ⟨messages.countP isError, messages.countP isWarning, .json⟩

/-- A number followed by the word, alone, in the plural or with the plural in parentheses. -/
def total (w : String) : Pattern :=
  ofList [capture "count" digits, blanks 1, wordIgnoringCase w,
    Pattern.optional (orElse (ofList [char '(', wordIgnoringCase "s", char ')']) (wordIgnoringCase "s")), wordEdge]

def largestTotal (w : String) (text : List Char) : Outcome Nat := do
  .ok ((← ((total w).findAll text).mapM fun m => numberOf m "count").foldl max 0)

def mentionsTool (w : String) (mark : Char) (line : List Char) : Bool :=
  let lower := line.flatMap lowercase
  contains w.toList lower && (contains "eslint".toList lower || line.contains mark)

def countText (text : List Char) : Outcome Counts := do
  let lines := splitLines text
  let isErrorLine := mentionsTool "error" '✖'
  let isWarningLine (line : List Char) : Bool := !isErrorLine line && mentionsTool "warning" '⚠' line
  .ok ⟨max (lines.countP isErrorLine) (← largestTotal "error" text),
    max (lines.countP isWarningLine) (← largestTotal "warning" text), .text⟩

def countOutput (stdout stderr : String) : Outcome Counts := do
  let text := stripEscapes (if stdout == "" then stderr.toList else stdout.toList)
  match summary.find? text with
  | some m => .ok ⟨← numberOf m "errors", ← numberOf m "warnings", .summary⟩
  | none => countText text

def counts (stdout stderr : String) : Outcome Counts := do
  let payload ← (Json.payload? stdout.toList stderr.toList).mapError Failure.ofJson
  match payload.bind results? with
  | some results => .ok (countJson results)
  | none => countOutput stdout stderr

end QualityGate.Output.Lint
