/-! The exact value of a binary64 number, and the number nearest to a decimal. -/

namespace QualityGate.Decimal

def twoTo (n : Nat) : Nat := Nat.pow 2 n

def tenTo (n : Nat) : Nat := Nat.pow 10 n

/-- The value `± mantissa · 2 ^ exponent`. -/
structure Exact where
  negative : Bool
  mantissa : Nat
  exponent : Int

/-- The exact value of a finite number. -/
def exactValue? (x : Float) : Option Exact :=
  let bits : Nat := x.toBits.toNat
  let biased : Nat := bits / twoTo 52 % 2048
  let fraction : Nat := bits % twoTo 52
  let negative := bits / twoTo 63 == 1
  if biased == 2047 then none
  else if biased == 0 then some ⟨negative, fraction, -1074⟩
  else some ⟨negative, twoTo 52 + fraction, (biased : Int) - 1075⟩

def Exact.truncate (v : Exact) : Int :=
  let magnitude : Nat :=
    if 0 ≤ v.exponent then v.mantissa * twoTo v.exponent.toNat
    else v.mantissa / twoTo (-v.exponent).toNat
  if v.negative then -magnitude else magnitude

def Exact.isIntegral (v : Exact) : Bool :=
  0 ≤ v.exponent || v.mantissa % twoTo (-v.exponent).toNat == 0

/-- The integer a finite number stands for, if it has no fraction. -/
def integer? (x : Float) : Option Int :=
  (exactValue? x).bind fun v => if v.isIntegral then some v.truncate else none

/-- The number nearest to `± digits · 10 ^ exponent`. Beyond the range of the format the result is
an infinity or a zero. -/
def nearest (negative : Bool) (digits : Nat) (exponent : Int) : Float :=
  let magnitude : Float :=
    if digits == 0 then 0
    else
      let top := exponent + (Nat.toDigits 10 digits).length
      if top > 400 then 1 / 0
      else if top < -400 then 0
      else if 0 ≤ exponent then Float.ofScientific digits false exponent.toNat
      else Float.ofScientific digits true (-exponent).toNat
  if negative then -magnitude else magnitude

def infinity : Float := 1 / 0

def notANumber : Float := 0 / 0

def ofInteger (n : Int) : Float := nearest (n < 0) n.natAbs 0

end QualityGate.Decimal
