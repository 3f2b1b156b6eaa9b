import QualityGate.Shell.Word

/-! The grammar of scripts. A script is read one complete command at a time, so
that what stands before a mistake is run. -/

namespace QualityGate.Shell

def keywords : List String :=
  ["!", "case", "do", "done", "elif", "else", "esac", "fi", "for", "if", "in", "then", "until", "while", "\x7b", "\x7d"]

/-- Functions may not have these names, and a failure of one ends the script. -/
def specialCommands : List String :=
  [".", ":", "break", "continue", "eval", "exec", "exit", "export", "local", "readonly", "return", "set", "shift",
    "times", "trap", "unset"]

namespace Token

def shown : Token → String
  | endOfText => "end of file"
  | newline => "newline"
  | sign s | keyword s => "\"" ++ s ++ "\""
  | word .. => "word"
  | redirect .. => "redirection"

def isSign (t : Token) (s : String) : Bool :=
  match t with
  | sign u => u == s
  | _ => false

def isKeyword (t : Token) (s : String) : Bool :=
  match t with
  | keyword u => u == s
  | _ => false

/-- Whether a list of commands ends before it. -/
def endsList : Token → Bool
  | endOfText => true
  | sign s => s == ")" || s == ";;"
  | keyword s => ["do", "done", "elif", "else", "esac", "fi", "then", "\x7d"].contains s
  | _ => false

/-- The text of a token where a pattern may stand. -/
def pattern : Token → Word
  | keyword s => s.toList.map (Piece.char · false)
  | word w _ => w
  | _ => []

end Token

namespace Reader

def pushBack : Reader Unit := modify fun r => { r with isPushed := true }

def unexpected {α : Type} (expected : String) : Reader α := do
  let shown := (← get).token.shown
  fail ("Syntax error: " ++ shown ++ " unexpected" ++ if expected == "" then "" else " (expecting " ++ expected ++ ")")

def quotedSign (s : String) : String := "\"" ++ s ++ "\""

/-- The sign of a redirection. -/
def redirectSign (c : Char) : Reader String := do
  if c == '>' then
    if (← mark '>') then return ">>"
    else if (← mark '|') then return ">|"
    else if (← mark '&') then return ">&"
    else return ">"
  else if (← mark '<') then return if (← mark '-') then "<<-" else "<<"
  else if (← mark '&') then return "<&"
  else if (← mark '>') then return "<>"
  else return "<"

def skipComment : Reader Unit := modify fun r => { r with rest := r.rest.dropWhile (· != '\n') }

/-- A token of one or two characters, the second one only after the same first one. -/
def doubled (c : Char) (canDouble : Bool) : Reader Token := do
  let isDouble ← if canDouble then mark c else pure false
  return .sign (if isDouble then String.ofList [c, c] else String.singleton c)

/-- A redirection after at most one digit, or a word. -/
def wordOrRedirect (script : Bool → Reader (Option Script)) : Reader Token := do
  let (w, quoted) ← word script .word
  let digit := w.filterMap Piece.bare?
  match ← peek with
  | some c =>
    if (c == '>' || c == '<') && (w.isEmpty || (w.length == 1 && digit.any Char.isDigit)) then
      skip
      let standard := if c == '>' then 1 else 0
      return .redirect (((digit.head?.map fun d => d.toNat - 48)).getD standard) (← redirectSign c)
    else return .word w quoted
  | none => return .word w quoted

def scan (script : Bool → Reader (Option Script)) : Nat → Reader Token
  | 0 => return .endOfText
  | fuel + 1 => do
    match ← peek with
    | none => return .endOfText
    | some c =>
      match c with
      | ' ' | '\t' =>
        skip
        scan script fuel
      | '#' =>
        skipComment
        scan script fuel
      | '\n' =>
        skip
        return .newline
      | '&' | '|' | ';' =>
        skip
        doubled c true
      | '(' | ')' =>
        skip
        doubled c false
      | _ => wordOrRedirect script

/-- The next token, as it is. -/
def rawToken (script : Bool → Reader (Option Script)) : Reader Token := do
  if !(← get).isPushed then
    let t ← scan script ((← get).rest.length + 1)
    modify fun r => { r with token := t }
  modify fun r => { r with isPushed := false }
  return (← get).token

def skipNewlines (script : Bool → Reader (Option Script)) : Nat → Token → Reader Token
  | fuel + 1, .newline => do
    hereTexts script
    skipNewlines script fuel (← rawToken script)
  | _, t => return t

/-- The next token, where line feeds may have no meaning and words may be keywords. -/
def token (script : Bool → Reader (Option Script)) (skipsNewlines namesKeywords : Bool) : Reader Token := do
  let t ← rawToken script
  let t ← if skipsNewlines then skipNewlines script ((← get).rest.length + 2) t else pure t
  let t := match t with
    | .word w false => match if namesKeywords then w.bare? else none with
      | some s => if keywords.contains s then .keyword s else t
      | none => t
    | _ => t
  modify fun r => { r with token := t }
  return t

def kindOfSign : String → RedirectKind
  | "<" => .read
  | "<>" => .readWrite
  | ">" => .write
  | ">|" => .overwrite
  | ">>" => .append
  | _ => .duplicate

/-- The redirection whose sign was read. -/
def redirectTo (script : Bool → Reader (Option Script)) (descriptor : Nat) (sign : String) : Reader Redirect := do
  if sign == "<<" || sign == "<<-" then
    let w ← target .ending
    let r ← get
    let p : Pending := ⟨r.textCount, Word.chars w.1, sign == "<<-", w.2⟩
    set { r with textCount := r.textCount + 1, pending := r.pending ++ [p] }
    return .mk descriptor (.here p.number) []
  else return .mk descriptor (kindOfSign sign) (← target .word).1
where
  target (region : Region) : Reader (Word × Bool) := do
    modify fun r => { r with rest := r.rest.dropWhile fun c => c == ' ' || c == '\t' }
    let ending := (← peek).all endsWord
    if region == .ending && !ending && (← peek) != some '#' then word script .ending
    else match ← token script false false with
      | .word w quoted => return (w, quoted)
      | _ => unexpected ""

def redirects (script : Bool → Reader (Option Script)) : Nat → List Redirect → Reader (List Redirect)
  | 0, acc => return acc.reverse
  | fuel + 1, acc => do
    match ← token script false true with
    | .redirect d s => redirects script fuel ((← redirectTo script d s) :: acc)
    | _ =>
      pushBack
      return acc.reverse

/-- The words after `in`, up to the end of the line or a semicolon. -/
def plainWords (script : Bool → Reader (Option Script)) : Nat → List Word → Reader (List Word)
  | 0, acc => return acc.reverse
  | fuel + 1, acc => do
    match ← token script false false with
    | .word w _ => plainWords script fuel (w :: acc)
    | .newline => return acc.reverse
    | .sign ";" => return acc.reverse
    | _ => unexpected ""

/-- The patterns before a closing bracket. -/
def patterns (script : Bool → Reader (Option Script)) : Nat → List Word → Reader (List Word)
  | 0, acc => return acc.reverse
  | fuel + 1, acc => do
    match ← token script false false with
    | .sign "|" =>
      let t ← token script false false
      patterns script fuel (t.pattern :: acc)
    | .sign ")" => return acc.reverse
    | _ => unexpected (quotedSign ")")

structure Simple where
  assignments : List (String × Word) := []
  words : List Word := []
  redirects : List Redirect := []

/-- A command after others; an ampersand after it leaves it in the background. -/
def joined (before : Option Script) (line : Nat) (t : Token) (next : Script) : Script :=
  let next := if t.isSign "&" then .background line next else next
  before.elim next fun b => .andThen b next

def sizeHint : Reader Nat := return (← get).rest.length + 2

mutual

/-- A list of commands inside of something else. It may be empty only if `mayBeEmpty`. -/
def commands (mayBeEmpty : Bool) (before : Option Script) : Nat → Reader (Option Script)
  | 0 => return before
  | fuel + 1 => do
    let t ← token (inner fuel) true true
    if let .endOfText := t then
      hereTexts (inner fuel)
      pushBack
      return before
    pushBack
    if mayBeEmpty && t.endsList then return before
    let next ← andOr fuel
    let t ← token (inner fuel) false false
    let all := some (joined before (← get).line t next)
    match t with
    | .newline | .endOfText =>
      pushBack
      commands true all fuel
    | .sign "&" | .sign ";" => commands true all fuel
    | _ =>
      pushBack
      return all

/-- The script in an output, up to a closing bracket if it has one. -/
def inner (fuel : Nat) (bracketed : Bool) : Reader (Option Script) :=
  match fuel with
  | 0 => return none
  | fuel + 1 => do
    let s ← commands true none fuel
    if bracketed then
      if !(← token (inner fuel) false false).isSign ")" then unexpected (quotedSign ")")
      modify fun r => { r with pending := [], texts := r.pending.map (fun p => (p.number, [])) ++ r.texts }
    return s

def andOr : Nat → Reader Script
  | 0 => unexpected ""
  | fuel + 1 => do andOrRest (← pipeline fuel) fuel

def andOrRest (a : Script) : Nat → Reader Script
  | 0 => return a
  | fuel + 1 => do
    match ← token (inner fuel) false false with
    | .sign "&&" =>
      discard (token (inner fuel) true true)
      pushBack
      andOrRest (.both a (← pipeline fuel)) fuel
    | .sign "||" =>
      discard (token (inner fuel) true true)
      pushBack
      andOrRest (.either a (← pipeline fuel)) fuel
    | _ =>
      pushBack
      return a

def pipeline : Nat → Reader Script
  | 0 => unexpected ""
  | fuel + 1 => do
    let isNegated := (← token (inner fuel) false false).isKeyword "!"
    if isNegated then discard (token (inner fuel) false true)
    pushBack
    let first ← command fuel
    let stages ← stages fuel
    let whole := if stages.isEmpty then first else .pipeline (first :: stages)
    return if isNegated then .negated whole else whole

def stages : Nat → Reader (List Script)
  | 0 => return []
  | fuel + 1 => do
    if (← token (inner fuel) false false).isSign "|" then
      discard (token (inner fuel) true true)
      pushBack
      let s ← command fuel
      return s :: (← stages fuel)
    else
      pushBack
      return []

def expect (t : String) : Nat → Reader Unit
  | 0 => unexpected ""
  | fuel + 1 => do
    let u ← token (inner fuel) false false
    if !u.isKeyword t && !u.isSign t then unexpected (quotedSign t)

/-- A list that must not be empty. -/
def body : Nat → Reader Script
  | 0 => unexpected ""
  | fuel + 1 => do
    match ← commands false none fuel with
    | some s => return s
    | none => return .simple 0 [] [] []

def command : Nat → Reader Script
  | 0 => unexpected ""
  | fuel + 1 => do
    let line := (← get).line
    let compound (s : Script) : Reader Script := do
      let rs ← redirects (inner fuel) (← sizeHint) []
      match s with
      | .subshell line b _ => return .subshell line b rs
      | _ => return if rs.isEmpty then s else .redirected line s rs
    match ← token (inner fuel) false false with
    | .keyword "if" => compound (← conditional fuel)
    | .keyword "while" => compound (← repetition false fuel)
    | .keyword "until" => compound (← repetition true fuel)
    | .keyword "for" => compound (← iteration line fuel)
    | .keyword "case" => compound (← selection line fuel)
    | .sign "(" =>
      let b ← body fuel
      expect ")" fuel
      compound (.subshell line b [])
    | .keyword "\x7b" =>
      let b ← body fuel
      expect "\x7d" fuel
      compound b
    | .word .. | .redirect .. =>
      pushBack
      simple {} true (← get).line fuel
    | _ => unexpected ""

def conditional : Nat → Reader Script
  | 0 => unexpected ""
  | fuel + 1 => do
    let condition ← body fuel
    expect "then" fuel
    let yes ← body fuel
    match ← token (inner fuel) false false with
    | .keyword "elif" => return .choice condition yes (some (← conditional fuel))
    | .keyword "else" =>
      let no ← body fuel
      expect "fi" fuel
      return .choice condition yes (some no)
    | _ =>
      pushBack
      expect "fi" fuel
      return .choice condition yes none

def repetition (untilTrue : Bool) : Nat → Reader Script
  | 0 => unexpected ""
  | fuel + 1 => do
    let condition ← body fuel
    expect "do" fuel
    let b ← body fuel
    expect "done" fuel
    return .loop untilTrue condition b

def iteration (line : Nat) : Nat → Reader Script
  | 0 => unexpected ""
  | fuel + 1 => do
    let name ← match ← token (inner fuel) false false with
      | .word w false => pure (w.bare?.filter isName)
      | _ => pure none
    let some name := name | fail "Syntax error: Bad for loop variable"
    let words ← match ← token (inner fuel) true true with
      | .keyword "in" => plainWords (inner fuel) (← sizeHint) []
      | t =>
        if !t.isSign ";" then pushBack
        pure [[.parameter "@" .plain false [] true]]
    discard (token (inner fuel) true true)
    pushBack
    expect "do" fuel
    let b ← body fuel
    expect "done" fuel
    return .each line name words b

def selection (line : Nat) : Nat → Reader Script
  | 0 => unexpected ""
  | fuel + 1 => do
    let subject ← match ← token (inner fuel) false false with
      | .word w _ => pure w
      | _ => unexpected "word"
    discard (token (inner fuel) true true)
    pushBack
    expect "in" fuel
    return .cases line subject (← branches fuel)

def branches : Nat → Reader (List (List Word × Option Script))
  | 0 => unexpected ""
  | fuel + 1 => do
    let t ← token (inner fuel) true true
    if t.isKeyword "esac" then return []
    let t ← if t.isSign "(" then token (inner fuel) false false else pure t
    let ps ← patterns (inner fuel) (← sizeHint) [t.pattern]
    let b ← commands true none fuel
    let t ← token (inner fuel) true true
    if t.isKeyword "esac" then return [(ps, b)]
    else if t.isSign ";;" then return (ps, b) :: (← branches fuel)
    else unexpected (quotedSign ";;")

/-- A simple command or the definition of a function. -/
def simple (s : Simple) (mayAssign : Bool) (line : Nat) : Nat → Reader Script
  | 0 => unexpected ""
  | fuel + 1 => do
    let finished : Reader Script := do
      pushBack
      return .simple line s.assignments s.words s.redirects
    match ← token (inner fuel) false false with
    | .word w _ =>
      match if mayAssign then Word.assignment? w else none with
      | some a => simple { s with assignments := s.assignments ++ [a] } true line fuel
      | none => simple { s with words := s.words ++ [w] } false line fuel
    | .redirect d r => simple { s with redirects := s.redirects ++ [← redirectTo (inner fuel) d r] } mayAssign line fuel
    | .sign "(" =>
      if s.words.length == 1 && s.assignments.isEmpty && s.redirects.isEmpty then
        expect ")" fuel
        match ((s.words.head?.getD []).bare?).filter fun n => isName n && !specialCommands.contains n with
        | some name =>
          discard (token (inner fuel) true true)
          pushBack
          return .define name (← command fuel)
        | none => fail "Syntax error: Bad function name"
      else finished
    | _ => finished

end

/-- Enough steps to read a text of this length. -/
def bound (length : Nat) : Nat := 16 * (length + 4)

/-- What the next line of a script holds. -/
inductive Line where
  | finished
  | nothing
  /-- No other command follows the last one of a text. -/
  | script (s : Script) (isLast : Bool)

/-- The commands of a line, and of those after it that they go on to. -/
def lineFrom (fuel : Nat) (before : Option Script) : Nat → Reader Line
  | 0 => return .finished
  | count + 1 => do
    let t ← token (inner fuel) false true
    let ended (isLast : Bool) : Reader Line := do
      hereTexts (inner fuel)
      return before.elim .nothing (Line.script · isLast)
    match t with
    | .newline => ended false
    | .endOfText =>
      if before.isNone then return .finished
      pushBack
      ended true
    | _ =>
      pushBack
      let next ← andOr fuel
      let t ← token (inner fuel) false false
      let all := some (joined before (← get).line t next)
      match t with
      | .newline | .endOfText =>
        pushBack
        lineFrom fuel all count
      | .sign "&" | .sign ";" => lineFrom fuel all count
      | _ => unexpected ""

def line : Reader Line := do
  let n := (← get).rest.length
  modify fun r => { r with isPushed := false }
  lineFrom (bound n) none (n + 2)

end Reader

end QualityGate.Shell
