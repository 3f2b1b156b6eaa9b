import QualityGate.Text.CharClass
import QualityGate.Text.Lines

/-! The first bracket of a source text that does not balance. Brackets inside
strings, comments, regular expressions and template text do not count. -/

namespace QualityGate.Scan.Brackets

open Text

inductive Opener where
  | paren | bracket | brace
  /-- The opener of an expression inside a template. -/
  | expression
  deriving DecidableEq, Repr

def Opener.text : Opener → String
  | paren => "("
  | bracket => "["
  | brace => "\x7b"
  | expression => "$\x7b"

def opener? : Char → Option Opener
  | '(' => some .paren
  | '[' => some .bracket
  | '\x7b' => some .brace
  | _ => none

def closes? : Char → Option Opener
  | ')' => some .paren
  | ']' => some .bracket
  | '\x7d' => some .brace
  | _ => none

/-- The last token that is not blank or comment, as far as it decides what a slash means. -/
inductive Last where
  | start
  | word (w : List Char)
  | symbol (c : Char)
  | value
  deriving DecidableEq, Repr

def regexSymbols : List Char := "(,=:[!&|?\x7b\x7d;+-*%<>~^".toList

def regexWords : List String :=
  ["return", "typeof", "case", "do", "else", "in", "of", "new", "delete", "void", "throw", "yield", "await"]

/-- Whether a slash begins a regular expression rather than a division. -/
def Last.precedesRegex : Last → Bool
  | start => true
  | symbol c => regexSymbols.contains c
  | word w => regexWords.contains (String.ofList w)
  | value => false

inductive Problem where
  | unterminatedComment
  | unterminatedTemplate
  | unterminatedExpression
  | unexpected (closer : Char)
  | mismatch (closer : Char) (opener : Opener) (line : Nat)
  | unclosed (opener : Opener)
  deriving DecidableEq, Repr

def Problem.message : Problem → String
  | unterminatedComment => "Unterminated block comment"
  | unterminatedTemplate => "Unterminated template literal"
  | unterminatedExpression => "Unterminated template expression"
  | unexpected c => "Unexpected '" ++ String.singleton c ++ "' with no matching opener"
  | mismatch c o line =>
    "'" ++ String.singleton c ++ "' does not match '" ++ o.text ++ "' opened on line " ++ toString line
  | unclosed o => "Unclosed '" ++ o.text ++ "'"

structure Imbalance where
  index : Nat
  problem : Problem
  deriving DecidableEq, Repr

abbrev Stack := List (Opener × Nat)

/-! How many characters a token takes after its first one. -/

/-- A string ends at its quote, or before a line feed that is not escaped. -/
def stringRest (quote : Char) : List Char → Nat → Nat
  | [], n => n
  | '\\' :: _ :: r, n => stringRest quote r (n + 2)
  | c :: r, n => if c == quote then n + 1 else if c == '\n' then n else stringRest quote r (n + 1)

/-- Template text ends at a backtick or at the start of an expression, which the flag tells. -/
def templateRest? : List Char → Nat → Option (Nat × Bool)
  | [], _ => none
  | '\\' :: _ :: r, n => templateRest? r (n + 2)
  | '\x60' :: _, n => some (n + 1, false)
  | '$' :: '\x7b' :: _, n => some (n + 2, true)
  | _ :: r, n => templateRest? r (n + 1)

/-- A regular expression with its flags; a slash inside a class does not end it. -/
def regexRest? : List Char → Nat → Bool → Option Nat
  | [], _, _ => none
  | '\\' :: _ :: r, n, inClass => regexRest? r (n + 2) inClass
  | c :: r, n, inClass =>
    if c == '\n' then none
    else if inClass then regexRest? r (n + 1) (c != ']')
    else if c == '/' then some (n + 1 + (r.takeWhile isLetter).length)
    else regexRest? r (n + 1) (c == '[')

def blockRest? : List Char → Nat → Option Nat
  | [], _ => none
  | '*' :: '/' :: _, n => some (n + 2)
  | _ :: r, n => blockRest? r (n + 1)

def lineRest (r : List Char) : Nat := (r.takeWhile (· != '\n')).length

def startsWord (c : Char) : Bool := c.isAlpha || c == '_' || c == '$'

def continuesWord (c : Char) : Bool := isWordChar c || c == '$'

/-- What one token does: a fault, or a new stack and last token after `extra` more characters. -/
inductive Effect where
  | fault (f : Imbalance)
  | next (stack : Stack) (last : Last) (extra : Nat)
  deriving DecidableEq, Repr

def template (r : List Char) (index openedAt : Nat) (stack : Stack) : Effect :=
  match templateRest? r 0 with
  | none => .fault ⟨openedAt, .unterminatedTemplate⟩
  | some (n, true) => .next ((.expression, index + n - 1) :: stack) (.symbol '\x7b') n
  | some (n, false) => .next stack .value n

def symbol (text : List Char) (c : Char) (index : Nat) (stack : Stack) : Effect :=
  let last := if isDigit c then Last.value else .symbol c
  match opener? c, closes? c, stack with
  | some o, _, _ => .next ((o, index) :: stack) last 0
  | none, none, _ => .next stack last 0
  | none, some _, [] => .fault ⟨index, .unexpected c⟩
  | none, some o, (top, openedAt) :: below =>
    if top = o then .next below last 0
    else .fault ⟨index, .mismatch c top (lineOf text openedAt)⟩

def topIsExpression : Stack → Bool
  | (.expression, _) :: _ => true
  | _ => false

def wordOrSymbol (text : List Char) (c : Char) (r : List Char) (index : Nat) (stack : Stack) : Effect :=
  if startsWord c then
    let w := r.takeWhile continuesWord
    .next stack (.word (c :: w)) w.length
  else symbol text c index stack

def slash (text r : List Char) (index : Nat) (stack : Stack) (last : Last) : Effect :=
  match r with
  | '/' :: r' => .next stack last (lineRest r' + 1)
  | '*' :: r' => match blockRest? r' 1 with
    | some n => .next stack last n
    | none => .fault ⟨index, .unterminatedComment⟩
  | _ =>
    let regex? := if last.precedesRegex then regexRest? r 0 false else none
    match regex? with
    | some n => .next stack .value n
    | none => symbol text '/' index stack

/-- The effect of the token that begins with `c` at `index`, where `before` is the character before
it. An apostrophe after a letter or digit is prose. -/
def effect (text : List Char) (before : Option Char) (c : Char) (r : List Char) (index : Nat) (stack : Stack)
    (last : Last) : Effect :=
  if isBlank c then .next stack last 0
  else if c == '/' then slash text r index stack last
  else if c == '\'' && before.any isAlphanumeric then .next stack last 0
  else if c == '\'' || c == '"' then .next stack .value (stringRest c r 0)
  else if c == '\x60' then template r index index stack
  else if c == '\x7d' && topIsExpression stack then
    match stack with
    | (_, openedAt) :: below => template r index openedAt below
    | [] => .next stack last 0
  else wordOrSymbol text c r index stack

def unclosed? : Stack → Option Imbalance
  | [] => none
  | (.expression, at_) :: _ => some ⟨at_, .unterminatedExpression⟩
  | (o, at_) :: _ => some ⟨at_, .unclosed o⟩

def lastOf (c : Char) (r : List Char) (extra : Nat) : Char :=
  match extra with
  | 0 => c
  | n + 1 => r[n]?.getD c

def scanFrom (text : List Char) (before : Option Char) (index : Nat) (stack : Stack) (last : Last)
    (s : List Char) : Option Imbalance :=
  match s with
  | [] => unclosed? stack
  | c :: r =>
    match effect text before c r index stack last with
    | .fault f => some f
    | .next stack last extra =>
      scanFrom text (some (lastOf c r extra)) (index + 1 + extra) stack last (r.drop extra)
termination_by s.length

def firstImbalance? (text : List Char) : Option Imbalance := scanFrom text none 0 [] .start text

end QualityGate.Scan.Brackets
