/-! Bytes written in base 64. -/

namespace QualityGate.Text.Base64

/-- The six bits of a character of the alphabet. -/
def value? (c : Char) : Option Nat :=
  if 'A' ≤ c && c ≤ 'Z' then some (c.toNat - 65)
  else if 'a' ≤ c && c ≤ 'z' then some (c.toNat - 71)
  else if '0' ≤ c && c ≤ '9' then some (c.toNat + 4)
  else if c == '+' then some 62
  else if c == '/' then some 63
  else none

/-- How many characters of the current group of four have been read, and the bits they leave over. -/
structure Group where
  count : Nat := 0
  bits : Nat := 0
  padding : Nat := 0

def decodeFrom (g : Group) (acc : List UInt8) : List Char → Option (List UInt8)
  | [] => if g.count == 0 then some acc.reverse else none
  | c :: r =>
    if c == '=' then
      if g.count < 2 then decodeFrom g acc r
      else if g.count + g.padding + 1 ≥ 4 then some acc.reverse
      else decodeFrom { g with padding := g.padding + 1 } acc r
    else match value? c, g.count with
      | none, _ => decodeFrom g acc r
      | some v, 0 => decodeFrom ⟨1, v, 0⟩ acc r
      | some v, 1 => decodeFrom ⟨2, v % 16, 0⟩ (UInt8.ofNat (g.bits * 4 + v / 16) :: acc) r
      | some v, 2 => decodeFrom ⟨3, v % 4, 0⟩ (UInt8.ofNat (g.bits * 16 + v / 4) :: acc) r
      | some v, _ => decodeFrom {} (UInt8.ofNat (g.bits * 64 + v) :: acc) r

/-- Characters outside the alphabet are skipped. There is no result when the last group of four is
left without its padding. -/
def decode? (cs : List Char) : Option (List UInt8) := decodeFrom {} [] cs

end QualityGate.Text.Base64
