import QualityGate.Output.Lines
import QualityGate.Finding.Issue
import QualityGate.Settings.SeverityTable

/-! Type checker output: positional diagnostics with their continuation lines,
and the quick count of errors. -/

namespace QualityGate.Output.TypeCheck

open Text Text.Pattern

def isNotBlank (c : Char) : Bool := !isBlank c

def position (separator : Char) : List Pattern :=
  [capture "line" digits, char separator, capture "col" digits]

/-- A severity word, the code and the message. -/
def diagnostic (severities : List String) : List Pattern :=
  [capture "severity" (words severities), blanks 1, capture "code" (ofList [word "TS", digits]), char ':',
    blanks 0, capture "message" (many anyChar 0), atEnd]

/-- `file(line,col): severity code: message` -/
def parenPosition : Pattern :=
  ofList (capture "file" (ofList [one isNotBlank, fewest (fun c => c != '(' && c != '\n') 0]) :: char '(' ::
    position ',' ++ [word "):", blanks 0] ++ diagnostic ["error", "warning", "message"])

/-- `file:line:col - severity code: message` -/
def colonPosition : Pattern :=
  ofList (capture "file" (ofList [one isNotBlank, fewest anyChar 0]) :: char ':' ::
    position ':' ++ [blanks 1, char '-', blanks 1] ++ diagnostic ["error", "warning", "message"])

def noPosition : Pattern := ofList (blanks 0 :: diagnostic ["error", "warning"])

def patterns : List Pattern := [parenPosition, colonPosition, noPosition]

def fixes : List (String × String) :=
  [("TS2304", "Define the variable or import it"),
    ("TS2307", "Install the missing module or add type definitions"),
    ("TS2339", "Add the missing property or method"),
    ("TS2345", "Fix the type mismatch"),
    ("TS2554", "Fix function argument types"),
    ("TS7006", "Add type annotation"),
    ("TS7017", "Add explicit type annotation")]

def suggestFix (code : String) : String := (fixes.lookup code).getD "Fix type-check error"

/-- Indented lines go on with the message before them. -/
def isContinuation (line : List Char) : Bool :=
  (match line with
    | c :: _ => c == ' ' || c == '\t'
    | [] => false) && !isBlankLine line

/-- Each match with the trimmed continuation lines between it and the next one. -/
def gather (lines : List (List Char × Option Found)) : List (Found × List (List Char)) :=
  (lines.foldr (fun l (s : List (List Char) × List (Found × List (List Char))) =>
    match l.2 with
    | some m => ([], (m, s.1) :: s.2)
    | none => (if isContinuation l.1 then trim l.1 :: s.1 else s.1, s.2)) ([], [])).2

def toIssue (table : SeverityTable) (m : Found) (continuation : List (List Char)) : Outcome Issue := do
  .ok { file := trimmed m "file"
        line := ← numberOf m "line"
        column := ← numberOf m "col"
        source := .typeCheck
        severity := table.forTypeCheck (m.text "severity")
        message := "\n".intercalate (trimmed m "message" :: continuation.map String.ofList)
        suggestedFix := suggestFix (m.text "code")
        code := m.text? "code" }

def issues (table : SeverityTable) (stdout stderr : String) : Outcome (List Issue) :=
  let lines := combinedLines stdout stderr
  (gather (lines.zip (bestMatches patterns lines))).mapM fun (m, continuation) => toIssue table m continuation

/-! The quick count. -/

def errorCode : List Pattern := [word "error TS", digits]

def parenthesized : List Pattern := [char '(', digits, char ',', digits, word "): "]

def isOneOf (cs : String) (c : Char) : Bool := cs.toList.contains c

def countPatterns : List Pattern :=
  [ofList errorCode,
    ofList (errorCode ++ [char ':']),
    ofList (parenthesized ++ errorCode),
    ofList ([char '.', Pattern.optional (one (isOneOf "cm")), one (isOneOf "jt"), char 's',
      Pattern.optional (char 'x')] ++ parenthesized ++ errorCode),
    ofList ([char ':', digits, char ':', digits, word " - "] ++ errorCode)]

def mentionsError (line : List Char) : Bool :=
  let lower := line.flatMap lowercase
  contains "error ts".toList lower || contains "error: ts".toList lower

/-- The most matches of any count pattern, or else the number of lines that mention an error. -/
def errorCount (stdout stderr : String) : Nat :=
  let text := combined stdout stderr
  let best := (countPatterns.map fun p => (p.findAll text).length).foldl max 0
  if best == 0 then (splitLines text).countP mentionsError else best

end QualityGate.Output.TypeCheck
