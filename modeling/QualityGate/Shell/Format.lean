import QualityGate.Decimal.Shortest
import QualityGate.Shell.Arithmetic
import QualityGate.Shell.System

/-! Formatted output: escapes, and conversions of arguments to text. -/

namespace QualityGate.Shell

/-! Escapes. -/

def simpleEscapes : List (Char × UInt8) :=
  [('a', 7), ('b', 8), ('e', 27), ('f', 12), ('n', 10), ('r', 13), ('t', 9), ('v', 11), ('\\', 92)]

def octalDigits (count : Nat) (cs : List Char) : List Char := (cs.take count).takeWhile fun c => '0' ≤ c && c ≤ '7'

/-- Where escapes stand, and whose they are. -/
structure Escapes where
  /-- An octal number may begin with a zero that does not count. -/
  leadingZero : Bool
  /-- The letter c ends the output. -/
  canStop : Bool
  /-- Hexadecimal numbers are read. -/
  hexadecimal : Bool
  quotes : Bool

inductive Escaped where
  /-- The bytes for an escape, and how many characters it takes after the backslash. -/
  | bytes (b : Bytes) (length : Nat)
  | stop

def Escapes.read (e : Escapes) (cs : List Char) : Escaped :=
  match cs with
  | [] => .bytes [92] 0
  | c :: r =>
    let zero := e.leadingZero && c == '0'
    let digits := octalDigits 3 (if zero then r else cs)
    let hex := if e.hexadecimal && c == 'x' then (r.take 2).takeWhile fun d => (Text.hexValue? d).isSome else []
    if zero || !digits.isEmpty then
      .bytes [UInt8.ofNat (Numeral.valueIn 8 digits)] (digits.length + if zero then 1 else 0)
    else if !hex.isEmpty then .bytes [UInt8.ofNat (Numeral.valueIn 16 hex)] (hex.length + 1)
    else if c == 'c' && e.canStop then .stop
    else if c == '"' && e.quotes then .bytes [34] 1
    else match simpleEscapes.lookup c with
      | some b => .bytes [b] 1
      | none => .bytes [92] 0

/-- The bytes of a text with escapes, the last first, and whether one of them ends the output. -/
def Escapes.unescape (e : Escapes) : Nat → Bytes → List Char → Bytes × Bool
  | 0, acc, _ => (acc, false)
  | _, acc, [] => (acc, false)
  | fuel + 1, acc, '\\' :: r =>
    match e.read r with
    | .bytes b n => unescape e fuel (b.reverse ++ acc) (r.drop n)
    | .stop => (acc, true)
  | fuel + 1, acc, c :: r => unescape e fuel (UInt8.ofNat c.toNat :: acc) r

def Escapes.all (e : Escapes) (s : String) : Bytes × Bool :=
  let (b, stops) := e.unescape (s.length + 1) [] s.toList
  (b.reverse, stops)

/-! Numbers with a fraction. -/

/-- A decimal number at the head of a text, and what follows it. -/
def float? (cs : List Char) : Option (Float × List Char) :=
  let cs := cs.dropWhile fun c => c == ' ' || ('\t' ≤ c && c ≤ '\r')
  let (negative, r) := Numeral.signed cs
  let whole := r.takeWhile Char.isDigit
  let afterWhole := r.drop whole.length
  let fraction := if afterWhole.head? == some '.' then (afterWhole.drop 1).takeWhile Char.isDigit else []
  let rest := if afterWhole.head? == some '.' then afterWhole.drop (fraction.length + 1) else afterWhole
  if whole.isEmpty && fraction.isEmpty then
    [("infinity", Decimal.infinity), ("inf", Decimal.infinity), ("nan", Decimal.notANumber)].findSome? fun (name, x) =>
      if name.toList.isPrefixOf (r.map Char.toLower) then some (if negative then -x else x, r.drop name.length) else none
  else
    let (negativeExponent, e) := Numeral.signed (rest.drop 1)
    let digits := e.takeWhile Char.isDigit
    let marked := (rest.head? == some 'e' || rest.head? == some 'E') && !digits.isEmpty
    let exponent := if marked then Numeral.withSign negativeExponent (Numeral.valueIn 10 digits) else 0
    some (Decimal.nearest negative (Numeral.valueIn 10 (whole ++ fraction)) (exponent - fraction.length),
      if marked then e.drop digits.length else rest)

/-- A magnitude in units of `10 ^ -places`, a half going to the even neighbour. -/
def scaled (places : Int) (v : Decimal.Exact) : Nat :=
  let top := v.mantissa * Decimal.twoTo v.exponent.toNat * Decimal.tenTo places.toNat
  let bottom := Decimal.twoTo (-v.exponent).toNat * Decimal.tenTo (-places).toNat
  let q := top / bottom
  let rest := 2 * (top % bottom)
  if rest > bottom || (rest == bottom && q % 2 == 1) then q + 1 else q

def zeros (n : Nat) : String := "".pushn '0' n

/-- Digits with a point before the last `places` of them. -/
def pointed (places n : Nat) : String :=
  let ds := (Nat.toDigits 10 n)
  let ds := List.replicate (places + 1 - ds.length) '0' ++ ds
  let whole := ds.take (ds.length - places)
  String.ofList (if places == 0 then whole else whole ++ '.' :: ds.drop (ds.length - places))

/-- One digit before the point, and the power of ten it stands at. -/
def scientific (places : Nat) (v : Decimal.Exact) : Nat × Int :=
  if v.mantissa == 0 then (0, 0)
  else
    let magnitude := v.rounding.magnitude - 1
    let n := scaled (places - magnitude) v
    if n < Decimal.tenTo (places + 1) then (n, magnitude) else (n / 10, magnitude + 1)

def withExponent (mantissa : String) (e : Int) : String :=
  mantissa ++ (if e < 0 then "e-" else "e+") ++ Decimal.twoDigits e.natAbs

def withoutZeros (s : String) : String :=
  if s.contains '.' then
    let ds := (s.toList.reverse.dropWhile (· == '0'))
    String.ofList (if ds.head? == some '.' then ds.drop 1 else ds).reverse
  else s

/-- The text of a magnitude by the letter of its conversion. -/
def floatText (letter : Char) (places : Nat) (keepsZeros : Bool) (v : Decimal.Exact) : String :=
  let trim (s : String) : String := if keepsZeros then s else withoutZeros s
  match letter with
  | 'f' => pointed places (scaled places v)
  | 'e' =>
    let (n, e) := scientific places v
    withExponent (pointed places n) e
  | _ =>
    let significant := max places 1
    let (n, e) := scientific (significant - 1) v
    if -4 ≤ e && e < significant then
      let places := ((significant : Int) - 1 - e).toNat
      trim (pointed places (scaled places v))
    else withExponent (trim (pointed (significant - 1) n)) e

/-! Conversions. -/

structure Conversion where
  flags : List Char := []
  width : Nat := 0
  precision : Option Nat := none
  letter : Char

/-- A text after its sign, filled up to the width of a conversion. -/
def Conversion.fill (c : Conversion) (zeroFill : Bool) (sign text : String) : String :=
  let missing := c.width - (sign.length + text.length)
  if c.flags.contains '-' then sign ++ text ++ "".pushn ' ' missing
  else if zeroFill then sign ++ zeros missing ++ text
  else "".pushn ' ' missing ++ sign ++ text

def Conversion.signOf (c : Conversion) (negative : Bool) : String :=
  if negative then "-" else if c.flags.contains '+' then "+" else if c.flags.contains ' ' then " " else ""

def Conversion.whole (c : Conversion) (n : Int) : String :=
  let zeroFill := c.flags.contains '0' && c.precision.isNone
  let digits (base : Nat) (n : Nat) : String :=
    let ds := String.ofList (if n == 0 && c.precision == some 0 then [] else Nat.toDigits base n)
    zeros (c.precision.getD 0 - ds.length) ++ ds
  let unsigned := (n % 0x10000000000000000).toNat
  let marked := c.flags.contains '#'
  match c.letter with
  | 'd' | 'i' => c.fill zeroFill (c.signOf (n < 0)) (digits 10 n.natAbs)
  | 'o' =>
    let ds := digits 8 unsigned
    c.fill zeroFill "" (if marked && ds.toList.head? != some '0' then "0" ++ ds else ds)
  | 'x' => c.fill zeroFill (if marked && unsigned != 0 then "0x" else "") (digits 16 unsigned)
  | 'X' => c.fill zeroFill (if marked && unsigned != 0 then "0X" else "") (digits 16 unsigned).toUpper
  | _ => c.fill zeroFill "" (digits 10 unsigned)

def Conversion.float (c : Conversion) (x : Float) : String :=
  let text := match Decimal.exactValue? x with
    | none =>
      let c := { c with flags := c.flags.filter (· != '0') }
      c.fill false (c.signOf (x < 0)) (if x.isNaN then "nan" else "inf")
    | some v =>
      c.fill (c.flags.contains '0') (c.signOf v.negative)
        (floatText c.letter.toLower (c.precision.getD 6) (c.flags.contains '#') v)
  if c.letter.isUpper then text.toUpper else text

def Conversion.text (c : Conversion) (s : String) : String :=
  c.fill false "" (match c.precision with
    | some n => String.ofList (s.toList.take n)
    | none => s)

/-! Formats. -/

/-- What has been written, the last piece first, and what was wrong. -/
structure Printed where
  out : List Bytes := []
  faults : List String := []
  isStopped : Bool := false
  /-- Nothing more is written after it. -/
  fatal : Option String := none
  arguments : List String := []

/-- How formats are read, and what is said about arguments that do not fit. -/
structure Dialect where
  inFormat : Escapes
  inArguments : Escapes
  noNumber : String → String
  notAllNumber : String → String

namespace Dialect

def tooLarge (s : String) : String := s ++ ": Numerical result out of range"

def checked {α : Type} (d : Dialect) (s : String) (default : α) (found : Option (α × Bool × List Char)) (p : Printed) :
    α × Printed :=
  match found with
  | none => (default, if s == "" then p else { p with faults := d.noNumber s :: p.faults })
  | some (a, isCut, rest) =>
    (a, if !rest.isEmpty then { p with faults := d.notAllNumber s :: p.faults }
      else if isCut then { p with faults := tooLarge s :: p.faults } else p)

/-- A quote before a character asks for its number. -/
def quotedByte? (s : String) : Option Nat :=
  match s.toList with
  | q :: r => if q == '\'' || q == '"' then some ((r.head?.map Char.toNat).getD 0) else none
  | [] => none

def next (p : Printed) : String × Printed := (p.arguments.head?.getD "", { p with arguments := p.arguments.drop 1 })

def wholeArgument (d : Dialect) (p : Printed) : Int × Printed :=
  let (s, p) := next p
  match quotedByte? s with
  | some n => (n, p)
  | none => d.checked s 0 (Arithmetic.number? s.toList) p

def floatArgument (d : Dialect) (p : Printed) : Float × Printed :=
  let (s, p) := next p
  match quotedByte? s with
  | some n => (Float.ofNat n, p)
  | none => d.checked s 0 ((float? s.toList).map fun (x, rest) => (x, false, rest)) p

def emit (p : Printed) (s : String) : Printed := { p with out := bytesOf s :: p.out }

/-- One conversion of the next argument. -/
def convert (d : Dialect) (c : Conversion) (p : Printed) : Printed :=
  if "diouxX".toList.contains c.letter then
    let (n, p) := d.wholeArgument p
    emit p (c.whole n)
  else if "eEfFgG".toList.contains c.letter then
    let (x, p) := d.floatArgument p
    emit p (c.float x)
  else
    let (s, p) := next p
    match c.letter with
    | 's' => emit p (c.text s)
    | 'c' => emit p ({ c with precision := none }.text (if s == "" then "\x00" else String.ofList (s.toList.take 1)))
    | _ =>
      let (b, stops) := d.inArguments.all s
      { emit p (c.text (textOf b)) with isStopped := stops }

/-- A width or precision: digits, or a star for an argument. -/
def size (d : Dialect) (cs : List Char) (p : Printed) : Option Int × List Char × Printed :=
  match cs with
  | '*' :: r =>
    let (n, p) := d.wholeArgument p
    (some n, r, p)
  | _ =>
    let ds := cs.takeWhile Char.isDigit
    (if ds.isEmpty then none else some (Numeral.valueIn 10 ds), cs.drop ds.length, p)

/-- One pass over a format. -/
def once (d : Dialect) : Nat → List Char → Printed → Printed
  | 0, _, p => p
  | _, [], p => p
  | fuel + 1, '\\' :: r, p =>
    match d.inFormat.read r with
    | .bytes b n => once d fuel (r.drop n) { p with out := b :: p.out }
    | .stop => { p with isStopped := true }
  | fuel + 1, '%' :: '%' :: r, p => once d fuel r (emit p "%")
  | fuel + 1, '%' :: r, p =>
    let flags := r.takeWhile "#-+ 0".toList.contains
    let (width, afterWidth, p) := d.size (r.drop flags.length) p
    let (precision, rest, p) := match afterWidth with
      | '.' :: r =>
        let (n, rest, p) := d.size r p
        (some (n.getD 0), rest, p)
      | _ => (none, afterWidth, p)
    match rest with
    | [] => { p with fatal := some "missing format character" }
    | letter :: rest =>
      if "diouxXeEfFgGscb".toList.contains letter then
        let flags := if width.any (· < 0) then '-' :: flags else flags
        let precision := (precision.filter (0 ≤ ·)).map Int.toNat
        let p := d.convert ⟨flags, (width.getD 0).natAbs, precision, letter⟩ p
        if p.isStopped then p else once d fuel rest p
      else
        let spelling := String.ofList ('%' :: r.take (r.length - rest.length))
        { p with fatal := some (spelling ++ ": invalid directive") }
  | fuel + 1, c :: r, p => once d fuel r (emit p (String.singleton c))

/-- A format is used again as long as it takes arguments and some are left. -/
def format (d : Dialect) (form : List Char) : Nat → Printed → Printed
  | 0, p => p
  | fuel + 1, p =>
    let q := d.once (form.length + 1) form p
    if q.isStopped || q.fatal.isSome || q.arguments.isEmpty || q.arguments.length == p.arguments.length then q
    else format d form fuel q

def print (d : Dialect) (form : String) (arguments : List String) : Printed :=
  d.format form.toList (arguments.length + 1) { arguments }

end Dialect

end QualityGate.Shell
