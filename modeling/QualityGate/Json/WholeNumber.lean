import QualityGate.Failure

/-! Whole numbers from loosely typed JSON. -/

namespace QualityGate.Json

def kindName : Json → String
  | null => "NoneType"
  | bool _ => "bool"
  | int _ => "int"
  | float _ => "float"
  | str _ => "str"
  | arr _ => "list"
  | obj _ => "dict"

/-- Floats lose their fraction, truth values count as zero and one, and texts are read as signed
decimal numbers. -/
def wholeNumber : Json → Outcome Int
  | bool b => .ok (if b then 1 else 0)
  | int n => .ok n
  | float x => match Decimal.exactValue? x with
    | some v => .ok v.truncate
    | none =>
      if x.isNaN then .error (.badValue "cannot convert float NaN to integer")
      else .error (.overflow "cannot convert float infinity to integer")
  | str s => Failure.wholeNumber 10 s.toList
  | v => .error (.badType
      ("int() argument must be a string, a bytes-like object or a real number, not '" ++ kindName v ++ "'"))

/-- Zero for a field that is absent or empty. -/
def numberField (v : Json) (name : String) : Outcome Int :=
  match v.present? name with
  | some n => wholeNumber n
  | none => .ok 0

/-- Whether a value counts as the number `n`; truth values do. -/
def isNumber (v : Json) (n : Int) : Bool :=
  match v with
  | int m => m == n
  | bool b => (if b then 1 else 0) == n
  | float x => Decimal.integer? x == some n
  | _ => false

end QualityGate.Json
