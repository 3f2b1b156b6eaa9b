import QualityGate.Decimal.Exact

/-! Decimal texts of binary64 numbers: the fewest digits that read back, and a
fixed number of significant digits. -/

namespace QualityGate.Decimal

/-- The digits `d₁d₂…` of `0.d₁d₂… · 10 ^ point`. -/
structure Digits where
  digits : List Char
  point : Int

/-- A positive number `value / unit` between the ends of the interval of reals that round to it. -/
structure Rounding where
  low : Nat
  value : Nat
  high : Nat
  unit : Nat
  closed : Bool

def Exact.rounding (v : Exact) : Rounding :=
  let m := v.mantissa
  let narrow := m == twoTo 52 && v.exponent > -1074
  let up := twoTo (v.exponent - 2).toNat
  let down := twoTo (2 - v.exponent).toNat
  { low := (4 * m - (if narrow then 1 else 2)) * up
    value := 4 * m * up
    high := (4 * m + 2) * up
    unit := down
    closed := m % 2 == 0 }

/-- The least `k` with `value < 10 ^ k`. -/
def Rounding.magnitude (r : Rounding) : Int :=
  let estimate := (((r.value.log2 : Int) - r.unit.log2) * 30103).fdiv 100000 - 1
  let below (k : Int) : Bool := r.value * tenTo (-k).toNat < tenTo k.toNat * r.unit
  match (List.range 4).find? fun (i : Nat) => below (estimate + i) with
  | some i => estimate + i
  | none => estimate + 4

/-- The point of the grid `10 ^ g` that lies in the interval, the one nearer to the value first. -/
def Rounding.onGrid? (r : Rounding) (g : Int) : Option Nat :=
  let step := r.unit * tenTo g.toNat
  let scale := tenTo (-g).toNat
  let q := r.value * scale / step
  let inside (p : Nat) : Bool :=
    if r.closed then r.low * scale ≤ p * step && p * step ≤ r.high * scale
    else r.low * scale < p * step && p * step < r.high * scale
  let below := r.value * scale - q * step
  let above := (q + 1) * step - r.value * scale
  let nearer := if below < above || (below == above && q % 2 == 0) then q else q + 1
  let farther := if nearer == q then q + 1 else q
  if inside nearer then some nearer else if inside farther then some farther else none

def dropTrailingZeros (ds : List Char) : List Char := (ds.reverse.dropWhile (· == '0')).reverse

def Digits.ofGrid (q : Nat) (g : Int) : Digits :=
  let ds := Nat.toDigits 10 q
  ⟨dropTrailingZeros ds, g + ds.length⟩

def shortest (v : Exact) : Digits :=
  let r := v.rounding
  let k := r.magnitude
  let found := (List.range 17).findSome? fun (n : Nat) =>
    let g := k - (n + 1 : Int)
    (r.onGrid? g).map fun q => Digits.ofGrid q g
  found.getD ⟨['0'], 1⟩

/-- `count` significant digits, a half going to the even neighbour. -/
def significant (count : Nat) (v : Exact) : Digits :=
  let r := v.rounding
  let g := r.magnitude - count
  let step := r.unit * tenTo g.toNat
  let scaled := r.value * tenTo (-g).toNat
  let q := scaled / step
  let rest := scaled % step
  let q := if 2 * rest > step || (2 * rest == step && q % 2 == 1) then q + 1 else q
  Digits.ofGrid q g

/-- Where positional notation ends and what a whole number looks like. -/
structure Layout where
  largestPoint : Int
  wholeSuffix : String

def twoDigits (n : Nat) : String := if n < 10 then "0" ++ toString n else toString n

def Layout.write (l : Layout) (d : Digits) : String :=
  let n : Int := d.digits.length
  let zeros (k : Int) : List Char := List.replicate k.toNat '0'
  if -4 < d.point && d.point ≤ l.largestPoint then
    if d.point ≤ 0 then String.ofList (['0', '.'] ++ zeros (-d.point) ++ d.digits)
    else if n ≤ d.point then String.ofList (d.digits ++ zeros (d.point - n)) ++ l.wholeSuffix
    else String.ofList (d.digits.take d.point.toNat ++ ['.'] ++ d.digits.drop d.point.toNat)
  else
    let e := d.point - 1
    let lead := match d.digits with
      | [] => []
      | [c] => [c]
      | c :: r => c :: '.' :: r
    String.ofList lead ++ (if e < 0 then "e-" else "e+") ++ twoDigits e.natAbs

/-- Positional below `10 ^ 16`, with `.0` on a whole number. -/
def plainLayout : Layout := ⟨16, ".0"⟩

/-- Six digits, positional below `10 ^ 6`, a whole number without a point. -/
def generalLayout : Layout := ⟨6, ""⟩

def special (x : Float) : String :=
  if x.isNaN then "nan" else if x < 0 then "-inf" else "inf"

def write (l : Layout) (digits : Exact → Digits) (x : Float) : String :=
  match exactValue? x with
  | none => special x
  | some v =>
    let sign := if v.negative then "-" else ""
    if v.mantissa == 0 then sign ++ "0" ++ l.wholeSuffix else sign ++ l.write (digits v)

/-- The shortest decimal that reads back as the number. -/
def text (x : Float) : String := write plainLayout shortest x

def generalText (x : Float) : String := write generalLayout (significant 6) x

end QualityGate.Decimal
