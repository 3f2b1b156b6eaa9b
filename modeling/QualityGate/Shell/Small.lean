import QualityGate.Shell.Condition
import QualityGate.Shell.Filter
import QualityGate.Shell.Wildcard
import QualityGate.Text.Pattern

/-! Small programs, and the table of all programs. -/

namespace QualityGate.Shell

open Program Options

namespace Expression

inductive Fault where
  | unexpected (word : String)
  | missingAfter (word : String)
  | notClosed (word : String)
  | notWhole
  | divisionByZero

abbrev Reader := StateT (List String) (Except Fault)

/-- Whether a value counts as false: nothing, or a zero however it is spelled. -/
def isNull (s : String) : Bool :=
  s == "" || ((Numeral.signed s.toList).2.all (· == '0') && s != "-" && s != "+" && s.toList.head? != some '+')

def ofBool (b : Bool) : String := if b then "1" else "0"

def whole (s : String) : Except Fault Int :=
  let (negative, ds) := match s.toList with
    | '-' :: r => (true, r)
    | r => (false, r)
  if Numeral.areDigits ds then .ok (Numeral.withSign negative (Numeral.valueIn 10 ds)) else .error .notWhole

/-- A pattern in which a bracket after a backslash captures. -/
def pattern : Nat → List Char → Text.Pattern → Text.Pattern × List Char
  | 0, cs, p => (p, cs)
  | _, [], p => (p, [])
  | fuel + 1, '\\' :: '(' :: r, p =>
    let (inner, rest) := pattern fuel r .empty
    pattern fuel rest (.seq p (.capture "1" inner))
  | _, '\\' :: ')' :: r, p => (p, r)
  | fuel + 1, c :: r, p =>
    let (fits, rest) : (Char → Bool) × List Char := match c, r with
      | '\\', d :: r => ((· == d), r)
      | '.', _ => (fun _ => true, r)
      | '[', _ =>
        let negated := r.head? == some '^'
        let ms := (if negated then r.drop 1 else r).map fun c => (c, false)
        match Wildcard.items? (ms.length + 1) [] ms with
        | some (items, rest) => (fun c => items.any (·.holds c) != negated, rest.map Prod.fst)
        | none => ((· == '['), r)
      | _, _ => ((· == c), r)
    match rest with
    | '*' :: rest => pattern fuel rest (.seq p (.many fits 0))
    | _ => pattern fuel rest (.seq p (.one fits))

/-- What a pattern captures at the head of a text, or how much it matches there. -/
def matched (text form : String) : String :=
  let (p, _) := pattern (form.length + 1) (if form.toList.head? == some '^' then form.toList.drop 1 else form.toList) .empty
  let captures := Text.contains ['\\', '('] form.toList
  match p.run some (Text.Cursor.start text.toList) with
  | some e => if captures then ((e.captures.lookup "1").map String.ofList).getD "" else toString e.pos
  | none => if captures then "" else "0"

def compareText (operator a b : String) : Bool :=
  let o := match whole a, whole b with
    | .ok x, .ok y => compare x y
    | _, _ => compare a b
  match operator with
  | "<" => o == .lt
  | "<=" => o != .gt
  | "=" | "==" => o == .eq
  | "!=" => o != .eq
  | ">=" => o != .lt
  | _ => o == .gt

/-- Operators by how tightly they bind, the loosest first. -/
def levels : List (List String) :=
  [["|"], ["&"], ["<", "<=", "=", "==", "!=", ">=", ">"], ["+", "-"], ["*", "/", "%"], [":"]]

def combine (operator a b : String) : Except Fault String := do
  match operator with
  | "|" => .ok (if !isNull a then a else if !isNull b then b else "0")
  | "&" => .ok (if isNull a || isNull b then "0" else a)
  | ":" => .ok (matched a b)
  | "+" | "-" | "*" | "/" | "%" =>
    let x ← whole a
    let y ← whole b
    match operator with
    | "+" => .ok (toString (x + y))
    | "-" => .ok (toString (x - y))
    | "*" => .ok (toString (x * y))
    | _ =>
      if y == 0 then .error .divisionByZero
      else .ok (toString (if operator == "/" then x.tdiv y else x.tmod y))
  | _ => .ok (ofBool (compareText operator a b))

mutual

/-- An expression of operators of one level and those that bind more tightly. -/
def level (before : String) : Nat → Nat → Reader String
  | 0, _ => throw (.missingAfter before)
  | fuel + 1, n => do
    match levels[n]? with
    | none => operand before fuel
    | some operators => levelRest operators (← level before fuel (n + 1)) fuel n

def levelRest (operators : List String) (a : String) : Nat → Nat → Reader String
  | 0, _ => return a
  | fuel + 1, n => do
    match ← get with
    | o :: rest =>
      if operators.contains o then
        set rest
        let b ← level o fuel (n + 1)
        levelRest operators (← (combine o a b : Except Fault String)) fuel n
      else return a
    | [] => return a

def operand (before : String) : Nat → Reader String
  | 0 => throw (.missingAfter before)
  | fuel + 1 => do
    match ← get with
    | [] => throw (.missingAfter before)
    | w :: rest =>
      set rest
      match w with
      | "(" =>
        let a ← level "(" fuel 0
        match ← get with
        | ")" :: rest =>
          set rest
          return a
        | _ => throw (.notClosed a)
      | ")" => throw (.unexpected ")")
      | "length" => return toString (← operand "length" fuel).length
      | "match" =>
        let a ← operand "match" fuel
        return matched a (← operand a fuel)
      | "index" =>
        let a ← operand "index" fuel
        let b ← operand a fuel
        return toString (((a.toList.findIdx? fun c => b.toList.contains c).map (· + 1)).getD 0)
      | "substr" =>
        let a ← operand "substr" fuel
        let first ← operand a fuel
        let length ← operand first fuel
        match natural? first, natural? length with
        | some i, some n => return if i == 0 then "" else String.ofList ((a.toList.drop (i - 1)).take n)
        | _, _ => return ""
      | "+" => match rest with
        | quoted :: rest =>
          set rest
          return quoted
        | [] => throw (.missingAfter "+")
      | _ => return w

end

def eval (words : List String) : Except Fault String := do
  let (v, rest) ← (level "" (16 * (words.length + 2)) 0).run words
  match rest with
  | [] => .ok v
  | w :: _ => .error (.unexpected w)

end Expression

namespace Small

def expr : Program Unit := do
  let words := (← read).arguments
  let words := if words.head? == some "--" then words.drop 1 else words
  if words.isEmpty then refuse 2 "missing operand"
  else match Expression.eval words with
    | .ok v =>
      printLine v
      setCode (if Expression.isNull v then 1 else 0)
    | .error f =>
      match f with
      | .unexpected w => complain ("syntax error: unexpected argument " ++ (← quoted w))
      | .missingAfter w => complain ("syntax error: missing argument after " ++ (← quoted w))
      | .notClosed w => complain ("syntax error: expecting ')' after " ++ (← quoted w))
      | .notWhole => complain "non-integer argument"
      | .divisionByZero => complain "division by zero"
      setCode 2

/-- Flags in front of what is written: no line feed, escapes or none. -/
def echoFlags : Bool → Bool → List String → Bool × Bool × List String
  | newline, escapes, w :: rest =>
    match w.toList with
    | '-' :: cs =>
      if !cs.isEmpty && cs.all "neE".toList.contains then
        let escapes := cs.foldl (fun e c => if c == 'e' then true else if c == 'E' then false else e) escapes
        echoFlags (newline && !cs.contains 'n') escapes rest
      else (newline, escapes, w :: rest)
    | _ => (newline, escapes, w :: rest)
  | newline, escapes, [] => (newline, escapes, [])

def echo : Program Unit := do
  let (newline, escapes, words) := echoFlags true false (← read).arguments
  let text := " ".intercalate words
  let (b, stops) := if escapes then Escapes.all ⟨true, true, true, false⟩ text else (bytesOf text, false)
  write (if newline && !stops then b ++ [10] else b)

def printf : Program Unit := do
  let arguments := (← read).arguments
  let arguments := if arguments.head? == some "--" then arguments.drop 1 else arguments
  let (before, after) : String × String := match ((← quoted "\x00").toList.splitOnP (· == '\x00')).map String.ofList with
    | [a, b] => (a, b)
    | _ => ("", "")
  let d : Dialect :=
    ⟨⟨false, true, true, true⟩, ⟨true, true, true, true⟩, fun s => before ++ s ++ after ++ ": expected a numeric value",
      fun s => before ++ s ++ after ++ ": value not completely converted"⟩
  match arguments with
  | [] => refuse 1 "missing operand"
  | form :: arguments =>
    let p := d.print form arguments
    p.faults.reverse.forM complain
    write p.out.reverse.flatten
    match p.fatal with
    | some f =>
      complain (if f == "missing format character" then "%: invalid conversion specification" else
        String.ofList (f.toList.takeWhile (· != ':')) ++ ": invalid conversion specification")
    | none =>
      if !p.isStopped && !p.arguments.isEmpty then
        warn ((← read).name ++ ": warning: ignoring excess arguments, starting with " ++
          (← quoted (p.arguments.head?.getD "")) ++ "\n")

def sleep : Program Unit := do
  let arguments := (← read).arguments
  match arguments with
  | [] => refuse 1 "missing operand"
  | ["infinity"] | ["inf"] => endless
  | _ =>
    match arguments.find? fun a => a.length > 1 && a.toList.head? == some '-' && a != "--" with
    | some a => refuse 1 ("invalid option -- '" ++ String.ofList ((a.toList.drop 1).take 1) ++ "'")
    | none =>
      let wrong := arguments.filter fun a => (milliseconds? a).isNone
      if wrong.isEmpty then
        modify fun e => { e with pause := (arguments.filterMap milliseconds?).foldl (· + ·) 0 }
      else
        let name := (← read).name
        wrong.forM fun a => do complain ("invalid time interval " ++ (← quoted a))
        warn ("Try '" ++ name ++ " --help' for more information.\n")

def yes : Program Unit := do
  let arguments := (← read).arguments
  let line := bytesOf ((if arguments.isEmpty then "y" else " ".intercalate arguments) ++ "\n")
  write (List.replicate (endlessLength / line.length + 1) line).flatten
  endless

def environmentText (vars : List (String × String)) : String :=
  String.join (vars.map fun (k, v) => k ++ "=" ++ v ++ "\n")

def printenv : Program Unit := do
  let s ← read
  if s.arguments.isEmpty then print (environmentText s.environment)
  else s.arguments.forM fun name => do
    match s.environment.lookup name with
    | some v => printLine v
    | none => setCode 1

/-- Copies blocks of a file. How long that took is not told. -/
def dd : Program Unit := do
  let s ← read
  let option? (name : String) : Option String :=
    s.arguments.findSome? fun a =>
      if (name ++ "=").toList.isPrefixOf a.toList then some (String.ofList (a.toList.drop (name.length + 1))) else none
  let known := ["if", "of", "bs", "ibs", "obs", "count", "skip", "seek", "status", "conv", "iflag", "oflag"]
  match s.arguments.find? fun a => !known.any fun k => (k ++ "=").toList.isPrefixOf a.toList with
  | some a => refuse 1 ("unrecognized operand " ++ named a)
  | none =>
    let numbers := ["bs", "ibs", "obs", "count", "skip", "seek"].filterMap option?
    match numbers.find? fun n => (size? n).isNone with
    | some n => complain ("invalid number: " ++ named n)
    | none =>
      let block := (((option? "bs").orElse fun _ => option? "ibs").bind size?).getD 512
      let skipped := (((option? "skip").bind size?).getD 0) * block
      let limit := ((option? "count").bind size?).map (· * block)
      let file := (option? "if").getD "-"
      match ← source file with
      | .error e => complain ("failed to open " ++ named file ++ ": " ++ e.text)
      | .ok found =>
        let out := match limit with
          | some n => if found.isEndless then found.first n else (found.bytes.drop skipped).take n
          | none => found.bytes.drop skipped
        if found.isEndless && limit.isNone then endless
        match option? "of" with
        | none => write out
        | some f => match (← surroundings).write f out with
          | .ok w => change w
          | .error e => complain ("failed to open " ++ named f ++ ": " ++ e.text)
        if option? "status" != some "none" then
          let records := toString (out.length / block) ++ "+" ++ (if out.length % block == 0 then "0" else "1") ++ " records "
          warn (records ++ "in\n" ++ records ++ "out\n" ++ toString out.length ++ " bytes copied, 0.0001 s, 0.0 kB/s\n")

def test (isBracketed : Bool) : Program Unit := do
  let words := (← read).arguments
  let s ← surroundings
  if isBracketed && words.getLast? != some "]" then
    complain ("missing " ++ (← quoted "]"))
    setCode 2
  else
    let words := if isBracketed then words.dropLast else words
    match Condition.eval s words with
    | .ok b => setCode (if b then 0 else 1)
    | .error f =>
      match f, words with
      | .unexpected .., [a, b] =>
        if a.toList.head? == some '-' && a.length == 2 then complain ((← quoted a) ++ ": unary operator expected")
        else complain ("missing argument after " ++ (← quoted b))
      | .unexpected .., [_, b, _] => complain ((← quoted b) ++ ": binary operator expected")
      | .illegalNumber n, _ => complain ("invalid integer " ++ (← quoted n))
      | .unexpected _ w, _ => complain ("extra argument " ++ (← quoted w))
      | .noArgument w, _ => complain ("missing argument after " ++ (← quoted w))
      | f, _ => complain f.message
      setCode 2

def uname : Program Unit := withOptions 1 ⟨"asnrvmpio", "", [], false, none⟩ fun o => do
  if o.given.isEmpty || o.has 's' then printLine "Linux" else printLine "x86_64"

/-- Everything is done by one user. -/
def id : Program Unit := withOptions 1 ⟨"agGnruz", "", [], false, none⟩ fun o => do
  let shown := if o.has 'n' then "root" else "0"
  printLine (if o.has 'u' || o.has 'g' || o.has 'G' then shown else "uid=0(root) gid=0(root) groups=0(root)")

def tty : Program Unit := withOptions 2 ⟨"s", "", [("silent", 's'), ("quiet", 's')], false, none⟩ fun o => do
  if !o.has 's' then printLine "not a tty"
  setCode 1

end Small

/-- The programs that can be run, by their names. A program may ask whether its input is a file. -/
def programs (inputIsFile : Bool) : List (String × Program Unit) :=
  [("cat", Filter.cat), ("tac", Filter.tac), ("head", Filter.head), ("tail", Filter.tail),
    ("wc", Filter.wc inputIsFile), ("nl", Filter.nl), ("sort", Filter.sort), ("uniq", Filter.uniq), ("cut", Filter.cut),
    ("paste", Filter.paste), ("fold", Filter.fold), ("tr", Filter.tr), ("base64", Filter.base64), ("od", Filter.od),
    ("factor", Filter.factor), ("seq", Filter.seq),
    ("ls", Filing.ls), ("basename", Filing.basename), ("dirname", Filing.dirname), ("mkdir", Filing.mkdir),
    ("rmdir", Filing.rmdir), ("touch", Filing.touch), ("rm", Filing.rm), ("unlink", Filing.unlink), ("cp", Filing.cp),
    ("mv", Filing.mv), ("ln", Filing.ln), ("readlink", Filing.readlink), ("realpath", Filing.realpath),
    ("chmod", Filing.chmod), ("stat", Filing.stat), ("tee", Filing.tee), ("truncate", Filing.truncate),
    ("expr", Small.expr), ("echo", Small.echo), ("printf", Small.printf), ("sleep", Small.sleep), ("yes", Small.yes),
    ("printenv", Small.printenv), ("dd", Small.dd), ("test", Small.test false), ("[", Small.test true),
    ("uname", Small.uname), ("true", pure ()), ("false", setCode 1), ("sync", pure ()),
    ("whoami", printLine "root"), ("groups", printLine "root"), ("arch", printLine "x86_64"), ("id", Small.id),
    ("tty", Small.tty), ("logname", complain "no login name"),
    ("pwd", do printLine (spelled (← read).directory.text))]

end QualityGate.Shell
