import QualityGate.Shell.Arithmetic
import QualityGate.Shell.Filing

/-! Conditions on texts, numbers and files, from a list of words. -/

namespace QualityGate.Shell.Condition

inductive Fault where
  | missingBracket
  /-- A word that does not belong to what ends before it. -/
  | unexpected (last word : String)
  | noArgument (operator : String)
  | notClosed
  | illegalNumber (text : String)

def Fault.message : Fault → String
  | .missingBracket => "missing ]"
  | .unexpected last _ => (if last == "" then "" else last ++ ": ") ++ "unexpected operator"
  | .noArgument operator => operator ++ ": argument expected"
  | .notClosed => "closing paren expected"
  | .illegalNumber text => "Illegal number: " ++ text

inductive Kind where
  | unary | binary | bracket | connective
  deriving DecidableEq

def unaryOperators : List String :=
  ["-r", "-w", "-x", "-e", "-f", "-d", "-c", "-b", "-p", "-u", "-g", "-k", "-s", "-t", "-z", "-n", "-h", "-O", "-G",
    "-L", "-S"]

def binaryOperators : List String :=
  ["=", "!=", "<", ">", "-eq", "-ne", "-ge", "-gt", "-le", "-lt", "-nt", "-ot", "-ef"]

def kind? (s : String) : Option Kind :=
  if unaryOperators.contains s then some .unary
  else if binaryOperators.contains s then some .binary
  else if s == "(" || s == ")" then some .bracket
  else if s == "!" || s == "-a" || s == "-o" then some .connective
  else none

/-- What the next word is taken for. -/
inductive Role where
  | finished
  | operand
  | operator (s : String)
  deriving DecidableEq

def Role.isKind (r : Role) (k : Kind) : Bool :=
  match r with
  | operator s => kind? s == some k
  | _ => false

def role : List String → Role
  | [] => .finished
  | w :: rest =>
    match kind? w with
    | none => .operand
    | some .unary =>
      match rest with
      | [] => .operand
      | [_] => .operator w
      | next :: _ => if kind? next == some .binary then .operand else .operator w
    | some _ => if w == "(" && rest.isEmpty then .operand else .operator w

/-- A decimal number between blanks. -/
def number (s : String) : Except Fault Int :=
  let (negative, cs) := Numeral.signed (s.toList.dropWhile Char.isWhitespace)
  let ds := cs.takeWhile Char.isDigit
  let n := Numeral.withSign negative (Numeral.valueIn 10 ds)
  if ds.isEmpty || !(cs.drop ds.length).all Char.isWhitespace || Arithmetic.wrap n != n then .error (.illegalNumber s)
  else .ok n

/-- What is known about a file. -/
def holds (s : Surroundings) (operator file : String) : Bool :=
  let entry := Filing.entry s file
  match s.find file with
  | .error _ => match operator, entry with
    | "-h", .ok (.link _) | "-L", .ok (.link _) => true
    | _, _ => false
  | .ok node =>
    match operator, node with
    | "-e", _ | "-r", _ | "-w", _ | "-O", _ | "-G", _ => true
    | "-f", .file .. | "-f", .program _ => true
    | "-d", .directory => true
    | "-c", .null | "-c", .zeros => true
    | "-s", .file data _ => !data.isEmpty
    | "-s", .program _ | "-s", .directory => true
    | "-x", .file _ executable => executable
    | "-x", .program _ | "-x", .directory => true
    | "-h", _ | "-L", _ => match entry with
      | .ok (.link _) => true
      | _ => false
    | _, _ => false

def unary (s : Surroundings) (operator word : String) : Except Fault Bool :=
  match operator with
  | "-z" => .ok (word == "")
  | "-n" => .ok (word != "")
  | "-t" => do
    let _ ← number word
    .ok false
  | _ => .ok (holds s operator word)

def samePlace (s : Surroundings) (a b : String) : Bool :=
  match s.workspace.locate (s.place a), s.workspace.locate (s.place b) with
  | .ok ⟨a, some _⟩, .ok ⟨b, some _⟩ => a == b
  | _, _ => false

def binary (s : Surroundings) (a operator b : String) : Except Fault Bool := do
  match operator with
  | "=" => .ok (a == b)
  | "!=" => .ok (a != b)
  | "<" => .ok (decide (a < b))
  | ">" => .ok (decide (b < a))
  | "-nt" | "-ot" => .ok false
  | "-ef" => .ok (samePlace s a b)
  | _ =>
    let x ← number a
    let y ← number b
    match operator with
    | "-eq" => .ok (x == y)
    | "-ne" => .ok (x != y)
    | "-lt" => .ok (decide (x < y))
    | "-le" => .ok (decide (x ≤ y))
    | "-gt" => .ok (decide (y < x))
    | _ => .ok (decide (y ≤ x))

abbrev Reader := StateT (List String) (Except Fault)

def next : Reader Unit := modify (·.drop 1)

mutual

/-- An alternative. What is left begins with the last word of it. -/
def either (s : Surroundings) (first : Role) : Nat → Reader Bool
  | 0 => return false
  | fuel + 1 => do
    let a ← both s first fuel
    if role ((← get).drop 1) == .operator "-o" then
      modify (·.drop 2)
      return (← either s (role (← get)) fuel) || a
    else return a

def both (s : Surroundings) (first : Role) : Nat → Reader Bool
  | 0 => return false
  | fuel + 1 => do
    let a ← negation s first fuel
    if role ((← get).drop 1) == .operator "-a" then
      modify (·.drop 2)
      return (← both s (role (← get)) fuel) && a
    else return a

def negation (s : Surroundings) (first : Role) : Nat → Reader Bool
  | 0 => return false
  | fuel + 1 => do
    if first == .operator "!" then
      let rest := (← get).drop 1
      if !rest.isEmpty then next
      return !(← negation s (role rest) fuel)
    else primary s first fuel

def primary (s : Surroundings) (first : Role) : Nat → Reader Bool
  | 0 => return false
  | fuel + 1 => do
    match first, (← get) with
    | .finished, _ | _, [] => return false
    | .operator "(", _ :: rest =>
      next
      if role rest == .operator ")" then return false
      let a ← either s (role rest) fuel
      next
      if role (← get) == .operator ")" then return a else throw .notClosed
    | _, w :: rest =>
      if first.isKind .unary then
        next
        match rest with
        | [] => throw (.noArgument w)
        | word :: _ => (unary s w word : Except Fault Bool)
      else match rest with
        | o :: after =>
          if (role rest).isKind .binary then
            modify (·.drop 2)
            match after with
            | [] => throw (.noArgument o)
            | b :: _ => (binary s w o b : Except Fault Bool)
          else return w != ""
        | [] => return w != ""

end

/-- The value of all words, or what is wrong with them. -/
def whole (s : Surroundings) (first : Role) (words : List String) : Except Fault Bool := do
  let (b, rest) ← (either s first (4 * words.length + 4)).run words
  match rest with
  | last :: extra :: _ => .error (.unexpected last extra)
  | _ => .ok b

def isComparison : List String → Bool
  | [_, o, _] => kind? o == some .binary
  | _ => false

/-- Three or four words are looked at as a whole first. -/
def eval (s : Surroundings) (words : List String) : Except Fault Bool :=
  match words with
  | [] => .ok false
  | w :: rest =>
    if isComparison words then whole s .operand words
    else if rest.length == 2 || rest.length == 3 then
      if w == "(" && rest.getLast? == some ")" then whole s (role rest.dropLast) rest.dropLast
      else if w == "!" then (eval s rest).map not
      else whole s (role words) words
    else whole s (role words) words

/-- The condition between brackets. -/
def evalBracketed (s : Surroundings) (words : List String) : Except Fault Bool :=
  if words.getLast? == some "]" then eval s words.dropLast else .error .missingBracket

end QualityGate.Shell.Condition
