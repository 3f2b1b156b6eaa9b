import QualityGate.Decimal.Numeral
import QualityGate.Shell.Script

/-! Arithmetic in scripts: whole numbers of 64 bits, and names that stand for
the numbers in their parameters. Truth is one, its opposite zero. -/

namespace QualityGate.Shell.Arithmetic

inductive Token where
  | number (n : Int)
  | name (s : String)
  | sign (s : String)
  | unknown
  deriving DecidableEq, Repr

/-- The longer of two signs that begin alike comes first. -/
def signs : List String :=
  ["<<=", ">>=", "||", "&&", "==", "!=", "<=", ">=", "<<", ">>", "+=", "-=", "*=", "/=", "%=", "&=", "^=", "|=",
    "<", ">", "+", "-", "*", "/", "%", "!", "~", "(", ")", "?", ":", "=", "&", "|", "^"]

/-- Numbers keep their lowest 64 bits. -/
def wrap (n : Int) : Int := Int.bmod n 0x10000000000000000

def largest : Int := 0x7fffffffffffffff

/-- The digits of a number at the head of a text, their base, and how many characters they take. A
leading zero means eight, with an x after it sixteen. -/
def digits (cs : List Char) : List Char × Nat × Nat :=
  let whole (skipped base : Nat) (p : Char → Bool) : List Char × Nat × Nat :=
    let ds := (cs.drop skipped).takeWhile p
    (ds, base, skipped + ds.length)
  match cs with
  | '0' :: x :: d :: _ =>
    if (x == 'x' || x == 'X') && (Text.hexValue? d).isSome then whole 2 16 fun c => (Text.hexValue? c).isSome
    else whole 0 8 fun c => '0' ≤ c && c ≤ '7'
  | '0' :: _ => whole 0 8 fun c => '0' ≤ c && c ≤ '7'
  | _ => whole 0 10 Char.isDigit

/-- A number at the head of a text, with a sign or not, after blanks: the number, whether it had to be
cut to size, and what follows it. Without digits there is none. -/
def number? (cs : List Char) : Option (Int × Bool × List Char) :=
  let cs := cs.dropWhile fun c => c == ' ' || ('\t' ≤ c && c ≤ '\r')
  let negative := cs.head? == some '-'
  let unsigned := if negative || cs.head? == some '+' then cs.drop 1 else cs
  let (ds, base, length) := digits unsigned
  if ds.isEmpty then none
  else
    let n : Int := Numeral.valueIn base ds
    let n := if negative then -n else n
    let fitted := max (-largest - 1) (min largest n)
    some (fitted, fitted != n, unsigned.drop length)

/-- The number that a parameter holds: nothing is zero, blanks around it do not count. -/
def value? (s : String) : Option Int :=
  match number? s.toList with
  | none => if s.toList.all Char.isWhitespace then some 0 else none
  | some (n, isCut, rest) => if !isCut && rest.all Char.isWhitespace then some n else none

def tokensFrom : Nat → List Char → List Token
  | 0, _ => []
  | _, [] => []
  | fuel + 1, c :: r =>
    if c == ' ' || c == '\t' || c == '\n' then tokensFrom fuel r
    else if c.isDigit then
      match number? (c :: r) with
      | some (n, _, rest) => .number n :: tokensFrom fuel rest
      | none => [.unknown]
    else if isNameStart c then
      let name := (c :: r).takeWhile isNameChar
      .name (String.ofList name) :: tokensFrom fuel ((c :: r).drop name.length)
    else
      match signs.find? fun o => o.toList.isPrefixOf (c :: r) with
      | some o => .sign o :: tokensFrom fuel ((c :: r).drop o.length)
      | none => [.unknown]

inductive Fault where
  | missing (what : String)
  | divisionByZero
  | illegal (number : String)

def Fault.message (expression : String) : Fault → String
  | .missing what => "arithmetic expression: expecting " ++ what ++ ": \"" ++ expression ++ "\""
  | .divisionByZero => "arithmetic expression: division by zero: \"" ++ expression ++ "\""
  | .illegal number => "Illegal number: " ++ number

/-- The tokens that are left, and the numbers that were assigned, the last one first. -/
structure Progress where
  tokens : List Token
  assigned : List (String × Int) := []

abbrev Calculation := StateT Progress (Except Fault)

/-- How tightly an operator on two numbers binds. -/
def strength? : String → Option Nat
  | "|" => some 1
  | "^" => some 2
  | "&" => some 3
  | "==" | "!=" => some 4
  | "<" | "<=" | ">" | ">=" => some 5
  | "<<" | ">>" => some 6
  | "+" | "-" => some 7
  | "*" | "/" | "%" => some 8
  | _ => none

def ofBool (b : Bool) : Int := if b then 1 else 0

def bits (f : BitVec 64 → BitVec 64 → BitVec 64) (a b : Int) : Int :=
  (f (BitVec.ofInt 64 a) (BitVec.ofInt 64 b)).toInt

/-- Quotients are cut off toward zero. A shift counts only the lowest six bits of its distance. -/
def combine (operator : String) (a b : Int) : Except Fault Int :=
  match operator with
  | "|" => .ok (bits (· ||| ·) a b)
  | "^" => .ok (bits (· ^^^ ·) a b)
  | "&" => .ok (bits (· &&& ·) a b)
  | "==" => .ok (ofBool (a == b))
  | "!=" => .ok (ofBool (a != b))
  | "<" => .ok (ofBool (a < b))
  | "<=" => .ok (ofBool (a ≤ b))
  | ">" => .ok (ofBool (b < a))
  | ">=" => .ok (ofBool (b ≤ a))
  | "<<" => .ok (wrap (a * Nat.pow 2 (b % 64).toNat))
  | ">>" => .ok (a.fdiv (Nat.pow 2 (b % 64).toNat))
  | "+" => .ok (wrap (a + b))
  | "-" => .ok (wrap (a - b))
  | "*" => .ok (wrap (a * b))
  | "/" => if b == 0 then .error .divisionByZero else .ok (wrap (a.tdiv b))
  | "%" => if b == 0 then .error .divisionByZero else .ok (a.tmod b)
  | _ => .ok b

def assignments : List String := ["=", "+=", "-=", "*=", "/=", "%=", "<<=", ">>=", "&=", "^=", "|="]

def mark (s : String) : Calculation Bool := do
  match (← get).tokens with
  | .sign t :: rest =>
    if s == t then
      modify fun p => { p with tokens := rest }
      return true
    else return false
  | _ => return false

def read (value : String → String) (name : String) : Calculation Int := do
  match (← get).assigned.lookup name with
  | some n => return n
  | none => match value? (value name) with
    | some n => return n
    | none => throw (.illegal (value name))

mutual

/-- An expression that may be an assignment. Where `idle` its value is not wanted, and nothing in it is
read or assigned. -/
def expression (value : String → String) (idle : Bool) : Nat → Calculation Int
  | 0 => throw (.missing "primary")
  | fuel + 1 => do
    match (← get).tokens with
    | .name x :: .sign o :: rest =>
      if assignments.contains o then
        modify fun p => { p with tokens := rest }
        let n ← expression value idle fuel
        if idle then return n
        let n ← if o == "=" then pure n else do
          let old ← read value x
          (combine (String.ofList o.toList.dropLast) old n : Except Fault Int)
        modify fun p => { p with assigned := (x, n) :: p.assigned }
        return n
      else conditional value idle fuel
    | _ => conditional value idle fuel

def conditional (value : String → String) (idle : Bool) : Nat → Calculation Int
  | 0 => throw (.missing "primary")
  | fuel + 1 => do
    let a ← either value idle fuel
    if !(← mark "?") then return a
    let b ← expression value (idle || a == 0) fuel
    if !(← mark ":") then throw (.missing "':'")
    let c ← conditional value (idle || a != 0) fuel
    return if a == 0 then c else b

def either (value : String → String) (idle : Bool) : Nat → Calculation Int
  | 0 => throw (.missing "primary")
  | fuel + 1 => do
    let a ← both value idle fuel
    if !(← mark "||") then return a
    let b ← either value (idle || a != 0) fuel
    return ofBool (a != 0 || b != 0)

def both (value : String → String) (idle : Bool) : Nat → Calculation Int
  | 0 => throw (.missing "primary")
  | fuel + 1 => do
    let a ← joined value idle 0 fuel
    if !(← mark "&&") then return a
    let b ← both value (idle || a == 0) fuel
    return ofBool (a != 0 && b != 0)

/-- An expression of operators that bind more tightly than `least`. -/
def joined (value : String → String) (idle : Bool) (least : Nat) : Nat → Calculation Int
  | 0 => throw (.missing "primary")
  | fuel + 1 => do continued value idle least (← operand value idle fuel) fuel

def continued (value : String → String) (idle : Bool) (least : Nat) (a : Int) : Nat → Calculation Int
  | 0 => return a
  | fuel + 1 => do
    match (← get).tokens with
    | .sign o :: rest =>
      match strength? o with
      | none => return a
      | some s =>
        if s ≤ least then return a
        modify fun p => { p with tokens := rest }
        let b ← joined value idle s fuel
        let n ← if idle then pure b else (combine o a b : Except Fault Int)
        continued value idle least n fuel
    | _ => return a

def operand (value : String → String) (idle : Bool) : Nat → Calculation Int
  | 0 => throw (.missing "primary")
  | fuel + 1 => do
    let rest := (← get).tokens.drop 1
    let first := (← get).tokens.head?
    modify fun p => { p with tokens := rest }
    match first with
    | some (.number n) => return n
    | some (.name x) => if idle then return 0 else read value x
    | some (.sign "(") =>
      let n ← expression value idle fuel
      if !(← mark ")") then throw (.missing "')'")
      return n
    | some (.sign "+") => operand value idle fuel
    | some (.sign "-") => return wrap (-(← operand value idle fuel))
    | some (.sign "!") => return ofBool ((← operand value idle fuel) == 0)
    | some (.sign "~") => return -(← operand value idle fuel) - 1
    | _ => throw (.missing "primary")

end

/-- The value of an expression, given the texts of names, and what was assigned in it. -/
def eval (value : String → String) (cs : List Char) : Except Fault (Int × List (String × Int)) := do
  let tokens := tokensFrom (cs.length + 1) cs
  let (n, p) ← (expression value false (10 * (tokens.length + 2))).run ⟨tokens, []⟩
  if p.tokens.isEmpty then .ok (n, p.assigned) else .error (.missing "EOF")

end QualityGate.Shell.Arithmetic
