import QualityGate.Text.Lines

/-! Text from bytes. A fault names the bytes that are no character, from the
first of them to the last that could still have begun one. -/

namespace QualityGate

/-- The bytes from `start` to `stop`, the first of which is `byte`, are no character. -/
structure EncodingFault where
  start : Nat
  stop : Nat
  byte : Nat
  reason : String
  deriving DecidableEq, Repr

namespace Text.Utf8

/-- What stands at the head of some bytes. -/
inductive Head where
  | char (c : Char) (length : Nat)
  | faulty (length : Nat) (reason : String)

def isContinuation (b : UInt8) : Bool := 0x80 ≤ b && b < 0xc0

/-- Some first bytes admit fewer second bytes, so that no character has two spellings and none is a
surrogate or too large. -/
def secondFits (first second : UInt8) : Bool :=
  if first == 0xe0 then 0xa0 ≤ second && second < 0xc0
  else if first == 0xed then 0x80 ≤ second && second < 0xa0
  else if first == 0xf0 then 0x90 ≤ second && second < 0xc0
  else if first == 0xf4 then 0x80 ≤ second && second < 0x90
  else isContinuation second

/-- The bytes that go on the character begun by `first`, at most `n` of them. -/
def continuation (first : UInt8) (n : Nat) : List UInt8 → List UInt8
  | [] => []
  | b :: r => if secondFits first b then b :: (r.take (n - 1)).takeWhile isContinuation else []

def continuationLength (first : UInt8) : Nat := if first < 0xe0 then 1 else if first < 0xf0 then 2 else 3

def leadingBits (first : UInt8) : Nat :=
  if first < 0xe0 then first.toNat - 0xc0 else if first < 0xf0 then first.toNat - 0xe0 else first.toNat - 0xf0

def head (first : UInt8) (r : List UInt8) : Head :=
  if first < 0x80 then .char (Char.ofNat first.toNat) 1
  else if first < 0xc2 || 0xf4 < first then .faulty 1 "invalid start byte"
  else
    let n := continuationLength first
    let found := continuation first n r
    if found.length == n then
      .char (Char.ofNat (found.foldl (fun v b => v * 64 + (b.toNat - 0x80)) (leadingBits first))) (n + 1)
    else if (r.drop found.length).isEmpty then .faulty (found.length + 1) "unexpected end of data"
    else .faulty (found.length + 1) "invalid continuation byte"

def decodeFrom (index : Nat) (bytes : List UInt8) (acc : List Char) : Except EncodingFault (List Char) :=
  match bytes with
  | [] => .ok acc.reverse
  | b :: r =>
    match head b r with
    | .char c n => decodeFrom (index + n) (r.drop (n - 1)) (c :: acc)
    | .faulty n reason => .error ⟨index, index + n, b.toNat, reason⟩
termination_by bytes.length

def decode (bytes : List UInt8) : Except EncodingFault (List Char) := decodeFrom 0 bytes []

/-- Decodes bytes piece by piece. A character that is cut off at the end of a piece is carried over to
the next one, and positions are counted from the first byte carried over. -/
def decodePieces (size : Nat) (bytes : List UInt8) : Except EncodingFault (List Char) :=
  go bytes.length [] bytes []
where
  go (fuel : Nat) (carried bytes : List UInt8) (acc : List (List Char)) : Except EncodingFault (List Char) :=
    match fuel, bytes with
    | _, [] => do .ok (((← decode carried) :: acc).reverse.flatten)
    | 0, _ => .ok acc.reverse.flatten
    | fuel + 1, bytes =>
      let piece := carried ++ bytes.take size
      match decode piece with
      | .ok cs => go fuel [] (bytes.drop size) (cs :: acc)
      | .error f =>
        if f.reason != "unexpected end of data" then .error f
        else do
          let cs ← decode (piece.take f.start)
          go fuel (piece.drop f.start) (bytes.drop size) (cs :: acc)

def byteOrderMark : List UInt8 := [0xef, 0xbb, 0xbf]

/-- Drops a leading byte order mark, or what is left of one when nothing follows it. Positions are
counted after the mark. -/
def decodeMarked (bytes : List UInt8) : Except EncodingFault (List Char) :=
  if bytes.isPrefixOf byteOrderMark then .ok []
  else if byteOrderMark.isPrefixOf bytes then decode (bytes.drop 3)
  else decode bytes

/-- The replacement character stands for whatever is no character. -/
def decodeReplacing (bytes : List UInt8) : List Char := (go bytes []).reverse
where
  go (bytes : List UInt8) (acc : List Char) : List Char :=
    match bytes with
    | [] => acc
    | b :: r =>
      match head b r with
      | .char c n => go (r.drop (n - 1)) (c :: acc)
      | .faulty n _ => go (r.drop (n - 1)) ('\ufffd' :: acc)
  termination_by bytes.length

end Text.Utf8

end QualityGate
