import QualityGate.Text.Pattern
import QualityGate.Text.Lines
import QualityGate.Finding.Issue

/-! Directives that silence diagnostics, and patterns that point at unfinished
or fragile logic. -/

namespace QualityGate.Scan

open Text Text.Pattern

def slashes : Pattern := ofList [char '/', many (· == '/') 1]

def slashStars : Pattern := ofList [char '/', many (· == '*') 1]

def commentStart : Pattern := orElse slashes slashStars

def compilerDirective : Pattern :=
  ofList [commentStart, blanks 0, word "@ts-", capture "kind" (words ["ignore", "expect-error", "nocheck"]), wordEdge]

def linterDirective : Pattern :=
  ofList [commentStart, blanks 0,
    capture "directive" (ofList [word "eslint-disable", Pattern.optional (words ["-next-line", "-line"])]),
    notAhead fun c => isWordChar c || c == '-',
    capture "rules" (many anyChar 0)]

def dropSuffixChars (p : Char → Bool) (s : List Char) : List Char := (s.reverse.dropWhile p).reverse

def beforeDashes : List Char → List Char
  | [] => []
  | '-' :: '-' :: _ => []
  | c :: r => c :: beforeDashes r

def withoutCommentEnds : List Char → List Char
  | [] => []
  | '*' :: '/' :: r => withoutCommentEnds r
  | c :: r => c :: withoutCommentEnds r

/-- The rule list of a directive without its description; none when it names no rule. -/
def ruleList? (raw : List Char) : Option String :=
  let rules := trim (dropSuffixChars (· == ',') (trim (withoutCommentEnds (beforeDashes raw))))
  if rules.isEmpty then none else some (String.ofList rules)

def compilerSuppression (file : String) (line : Nat) (kind : String) : Suppression :=
  let directive := "@ts-" ++ kind
  match kind with
  | "ignore" => ⟨file, line, .ignoreLine, directive, none, true, "@ts-ignore hides any error on the next line"⟩
  | "expect-error" =>
    ⟨file, line, .expectError, directive, none, false, "@ts-expect-error fails once the error is gone"⟩
  | _ =>
    ⟨file, line, .disableFile, directive, none, true, "@ts-nocheck disables type-checking for the whole file"⟩

def linterSuppression (file : String) (line : Nat) (m : Found) : Suppression :=
  let rule := ruleList? ((m.group? "rules").getD [])
  let blanket := rule == none || rule == some "*"
  ⟨file, line, .disableRules, m.text "directive", rule, blanket,
    if blanket then "Disables every lint rule" else "Disables " ++ rule.getD ""⟩

def lineSuppressions (file : String) (line : Nat) (s : List Char) : List Suppression :=
  ((compilerDirective.find? s).map fun m => compilerSuppression file line (m.text "kind")).toList ++
    ((linterDirective.find? s).map (linterSuppression file line)).toList

/-- The lines of a text with their numbers. -/
def numbered (text : List Char) : List (Nat × List Char) :=
  let lines := splitLines text
  (List.range' 1 lines.length).zip lines

def suppressions (file : String) (text : List Char) : List Suppression :=
  (numbered text).flatMap fun (n, line) => lineSuppressions file n line

/-! Concerns. -/

def marker : Pattern :=
  ofList [oneOf [slashes, slashStars, ofList [atStart, blanks 0, char '*']], blanks 0,
    Pattern.optional (ofList [fewest anyChar 0, one isBlank]),
    capture "marker" (words ["TODO", "FIXME", "HACK", "XXX"]), wordEdge,
    many (fun c => isBlank c || c == ':' || c == '(' || c == '-') 0, capture "text" (many anyChar 0)]

def infiniteLoop : Pattern :=
  orElse
    (ofList [wordEdge, word "while", blanks 0, char '(', blanks 0, word "true", blanks 0, char ')'])
    (ofList [wordEdge, word "for", blanks 0, char '(', blanks 0, char ';', blanks 0, char ';', blanks 0, char ')'])

def emptyCatch : Pattern :=
  ofList [wordEdge, word "catch", blanks 0,
    Pattern.optional (ofList [char '(', many (· != ')') 0, char ')']), blanks 0, char '\x7b', blanks 0, char '\x7d']

def call (name : String) : Pattern := ofList [wordEdge, word name, blanks 0, char '(']

def at_ (file : String) (line : Nat) (note : String) : String := file ++ ":" ++ toString line ++ ": " ++ note

def markerNote (m : Found) : String :=
  let note := trim (dropSuffixChars (fun c => c == '*' || c == '/') (trim ((m.group? "text").getD [])))
  m.text "marker" ++ if note.isEmpty then "" else ": " ++ String.ofList note

def lineConcerns (file : String) (line : Nat) (s : List Char) : List String :=
  ((marker.find? s).map fun m => at_ file line (markerNote m)).toList ++
    if infiniteLoop.occursIn s then [at_ file line "Infinite loop, make sure it has an exit condition"] else []

def catchConcerns (file : String) (text : List Char) : List String :=
  (emptyCatch.findAll text).map fun m => at_ file (lineOf text m.start) "Empty catch block swallows errors"

def timerConcerns (file : String) (text : List Char) : List String :=
  match (call "setInterval").find? text with
  | some m =>
    if (call "clearInterval").occursIn text then []
    else [at_ file (lineOf text m.start) "setInterval without clearInterval may leak timers"]
  | none => []

def concerns (file : String) (text : List Char) : List String :=
  ((numbered text).flatMap fun (n, line) => lineConcerns file n line) ++ catchConcerns file text ++
    timerConcerns file text

end QualityGate.Scan
