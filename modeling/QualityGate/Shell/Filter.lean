import QualityGate.Shell.Format
import QualityGate.Shell.Program
import QualityGate.Text.Base64

/-! Programs that turn texts into texts. -/

namespace QualityGate.Shell.Filter

open Program Options

def reason (f : String) (e : FileFault) : String := f ++ ": " ++ e.text

/-! Whole files. -/

/-- A byte in a visible form. -/
def visible (b : UInt8) : Bytes :=
  let low (c : UInt8) : Bytes := if c < 32 then [94, c + 64] else if c == 127 then [94, 63] else [c]
  if b < 128 then low b else [77, 45] ++ low (b - 128)

structure Numbering where
  number : Nat := 0
  wasBlank : Bool := false
  out : List Bytes := []

def numbered (n : Nat) : Bytes := bytesOf ("".pushn ' ' (6 - (toString n).length) ++ toString n ++ "\t")

def displayed (o : Options) (b : Bytes) : Bytes :=
  let showsEnds := o.has 'A' || o.has 'e' || o.has 'E'
  let showsTabs := o.has 'A' || o.has 't' || o.has 'T'
  let showsOthers := o.has 'A' || o.has 'e' || o.has 't' || o.has 'v'
  let shown (c : UInt8) : Bytes :=
    if c == 9 then (if showsTabs then [94, 73] else [9]) else if showsOthers then visible c else [c]
  let step (s : Numbering) (l : Bytes) : Numbering :=
    let isBlank := l == [10]
    if o.has 's' && isBlank && s.wasBlank then s
    else
      let counts := if o.has 'b' then !isBlank else o.has 'n'
      let ended := l.getLast? == some 10
      let text := (content l).flatMap shown ++ (if ended then (if showsEnds then [36, 10] else [10]) else [])
      { number := if counts then s.number + 1 else s.number
        wasBlank := isBlank
        out := (if counts then numbered (s.number + 1) ++ text else text) :: s.out }
  ((lines b).foldl step {}).out.reverse.flatten

def cat : Program Unit := withOptions 1 ⟨"AbeEnstTuv", "", [("number", 'n'), ("show-all", 'A'), ("number-nonblank", 'b')], false, none⟩
  fun o => do
    if o.given.any fun g => g.1 != 'u' then
      let ss ← sources o.operands reason
      write (displayed o (← wholeOf ss))
    else
      (if o.operands.isEmpty then ["-"] else o.operands).forM fun f => do
        match ← source f with
        | .ok s =>
          write s.bytes
          if s.isEndless then endless
        | .error e => complain (reason f e)

def tac : Program Unit := withOptions 1 {} fun o => do
  let ss ← sources o.operands fun f e =>
    if e == .isDirectory then f ++ ": read error: Is a directory"
    else "failed to open " ++ named f ++ " for reading: " ++ e.text
  ss.forM fun s => do write (lines (← wholeOf [s])).reverse.flatten

/-! Beginnings and ends. -/

/-- How much is wanted: so many bytes or lines, from the other end if `isRest`. -/
structure Amount where
  inBytes : Bool := false
  count : Nat := 10
  isRest : Bool := false

/-- The last amount among the options, or the text that is none. -/
def amount (sign : Char) (o : Options) : Except (Bool × String) Amount :=
  match o.given.reverse.find? fun g => g.1 == 'c' || g.1 == 'n' with
  | none => .ok {}
  | some (letter, text) =>
    let isRest := text.toList.head? == some sign
    let digits := if isRest || text.toList.head? == some '-' || text.toList.head? == some '+' then text.toList.drop 1
      else text.toList
    match size? (String.ofList digits) with
    | some n => .ok ⟨letter == 'c', n, isRest⟩
    | none => .error (letter == 'c', text)

def amountGrammar : Grammar :=
  ⟨"qvfz", "cn", [("bytes", 'c'), ("lines", 'n'), ("quiet", 'q'), ("silent", 'q'), ("verbose", 'v')], false, some 'n'⟩

/-- Writes a part of each of some files, under headers if there are several. -/
def excerpt (sign : Char) (take : Amount → Source → Bytes × Bool) : Program Unit :=
  withOptions 1 amountGrammar fun o => do
    match amount sign o with
    | .error (inBytes, text) =>
      complain ("invalid number of " ++ (if inBytes then "bytes" else "lines") ++ ": " ++ (← quoted text))
    | .ok a =>
      let files := if o.operands.isEmpty then ["-"] else o.operands
      let hasHeaders := !o.has 'q' && (o.has 'v' || 1 < files.length)
      discard <| files.foldlM (fun (isFirst : Bool) f => do
        match ← source f with
        | .ok s =>
          if hasHeaders then
            print ((if isFirst then "" else "\n") ++ "==> " ++ (if f == "-" then "standard input" else f) ++ " <==\n")
          let (b, goesOn) := take a s
          write b
          if goesOn then endless
          return false
        | .error .isDirectory =>
          complain ("error reading " ++ named f ++ ": Is a directory")
          return isFirst
        | .error e =>
          complain ("cannot open " ++ named f ++ " for reading: " ++ e.text)
          return isFirst) true

/-- The first lines or bytes, or all but the last ones. -/
def head : Program Unit := excerpt '-' fun a s =>
  if a.inBytes then
    if a.isRest then (s.bytes.take (s.bytes.length - a.count), s.isEndless) else (s.first a.count, false)
  else
    let ls := lines s.bytes
    let kept := ls.take (if a.isRest then ls.length - a.count else a.count)
    (kept.flatten, s.isEndless && (a.isRest || ls.length ≤ a.count))

/-- The last lines or bytes, or those from one on. -/
def tail : Program Unit := excerpt '+' fun a s =>
  if s.isEndless then ([], true)
  else
    let start (n : Nat) : Nat := if a.isRest then a.count - 1 else n - a.count
    if a.inBytes then (s.bytes.drop (start s.bytes.length), false)
    else
      let ls := lines s.bytes
      ((ls.drop (start ls.length)).flatten, false)

/-! Counts. -/

/-- Words are what stands between blanks. -/
def wordCount (b : Bytes) : Nat :=
  let isBlank (c : UInt8) : Bool := c == 32 || (9 ≤ c && c ≤ 13)
  (b.foldl (fun (n, inWord) c => if isBlank c then (n, false) else if inWord then (n, true) else (n + 1, true))
    ((0 : Nat), false)).1

/-- Characters begin with a byte that goes on no other one. -/
def charCount (b : Bytes) : Nat := b.countP fun c => !(0x80 ≤ c && c < 0xc0)

structure Counts where
  lines : Nat
  words : Nat
  chars : Nat
  bytes : Nat
  longest : Nat

def Counts.of (b : Bytes) : Counts :=
  ⟨b.count 10, wordCount b, charCount b, b.length, (Shell.lines b).foldl (fun n l => max n (charCount (content l))) 0⟩

def Counts.add (a b : Counts) : Counts :=
  ⟨a.lines + b.lines, a.words + b.words, a.chars + b.chars, a.bytes + b.bytes, max a.longest b.longest⟩

def wc (inputIsFile : Bool) : Program Unit :=
  withOptions 1 ⟨"lwcmL", "", [("lines", 'l'), ("words", 'w'), ("bytes", 'c'), ("chars", 'm'), ("max-line-length", 'L')],
    false, none⟩ fun o => do
    let shows (c : Char) : Bool := o.has c || (o.given.isEmpty && "lwc".contains c)
    let chosen (n : Counts) : List Nat :=
      [('l', n.lines), ('w', n.words), ('m', n.chars), ('c', n.bytes), ('L', n.longest)].filterMap fun (c, n) =>
        if shows c then some n else none
    let files := if o.operands.isEmpty then ["-"] else o.operands
    let place ← surroundings
    let found ← files.mapM fun f => do
      match ← source f with
      | .ok s =>
        if s.isEndless then endless
        return (f, some (Counts.of s.bytes))
      | .error e =>
        complain (reason f e)
        return (f, if e == .isDirectory then some (Counts.of []) else none)
    let isRegular (f : String) : Bool :=
      if f == "-" then inputIsFile else match place.find f with
        | .ok (.file ..) | .error _ => true
        | _ => false
    let total := (found.filterMap Prod.snd).foldl Counts.add (Counts.of [])
    let single := files.length == 1 && (chosen total).length == 1
    let least := if files.all isRegular then 1 else 7
    let width := if single then 1 else max least (toString total.bytes).length
    let row (n : Counts) (name : String) : Program Unit :=
      let column (n : Nat) : String := "".pushn ' ' (width - (toString n).length) ++ toString n
      printLine (" ".intercalate ((chosen n).map column) ++ (if name == "" then "" else " " ++ name))
    found.forM fun (f, n?) => do
      match n? with
      | some n => row n (if o.operands.isEmpty then "" else f)
      | none => return
    if 1 < files.length then row total "total"

def nl : Program Unit := withOptions 1 ⟨"", "bwsv", [("body-numbering", 'b')], false, none⟩ fun o => do
  let b ← wholeOf (← sources o.operands reason)
  let all := o.value? 'b' == some "a"
  let width := ((o.value? 'w').bind natural?).getD 6
  let gap := (o.value? 's').getD "\t"
  discard <| (textLines b).foldlM (fun (n : Nat) l => do
    if all || l != "" then
      printLine ("".pushn ' ' (width - (toString n).length) ++ toString n ++ gap ++ l)
      return n + 1
    else
      printLine ("".pushn ' ' (width + gap.length))
      return n) (((o.value? 'v').bind natural?).getD 1)

/-! Lines. -/

/-- A number at the head of a text, for comparison. -/
def leadingNumber (s : String) : Float :=
  let cs := s.toList.dropWhile fun c => c == ' ' || c == '\t'
  ((float? (cs.takeWhile fun c => c == '-' || c == '.' || c.isDigit)).map Prod.fst).getD 0

/-- A key of comparison: from one field to another, or to the end of the line, with letters of its own. -/
structure SortKey where
  first : Nat := 1
  last : Option Nat := none
  flags : List Char := []

def sortKey? (s : String) : Option SortKey :=
  let ds := s.toList.takeWhile Char.isDigit
  let afterFirst := s.toList.drop ds.length
  let position := if afterFirst.head? == some '.' then (afterFirst.drop 1).dropWhile Char.isDigit else afterFirst
  let flags := position.takeWhile Char.isAlpha
  let rest := position.drop flags.length
  (natural? (String.ofList ds)).bind fun first =>
    match rest with
    | [] => some ⟨first, none, flags⟩
    | ',' :: r =>
      let ds := r.takeWhile Char.isDigit
      (natural? (String.ofList ds)).map fun last =>
        ⟨first, if last == 0 then none else some last, flags ++ (r.drop ds.length).filter Char.isAlpha⟩
    | _ => none

/-- The fields of a line. Without a separator a field begins with the blanks before it. -/
def sortFields (separator : Option Char) (s : String) : List String :=
  match separator with
  | some c => (Text.splitAtChar c s.toList).map String.ofList
  | none =>
    let isBlank (c : Char) : Bool := c == ' ' || c == '\t'
    let (current, done) := s.toList.foldl (fun ((current, done) : List Char × List (List Char)) c =>
      if isBlank c && current.any fun d => !isBlank d then ([c], current.reverse :: done) else (c :: current, done))
      ([], [])
    ((current.reverse :: done).reverse).map String.ofList

def SortKey.of (k : SortKey) (separator : Option Char) (s : String) : String :=
  let fs := (sortFields separator s).drop (k.first - 1)
  let fs := match k.last with
    | some n => fs.take (n + 1 - k.first)
    | none => fs
  (separator.elim "" String.singleton).intercalate fs

def compareBy (flags : List Char) (a b : String) : Ordering :=
  let fold (s : String) : String := if flags.contains 'f' then s.toUpper else s
  let trim (s : String) : String :=
    if flags.contains 'b' then String.ofList (s.toList.dropWhile fun c => c == ' ' || c == '\t') else s
  let o := if flags.contains 'n' || flags.contains 'g' then
      let x := leadingNumber a
      let y := leadingNumber b
      if x < y then .lt else if y < x then .gt else .eq
    else compare (fold (trim a)) (fold (trim b))
  if flags.contains 'r' then o.swap else o

def sort : Program Unit :=
  withOptions 2 ⟨"bcCfgnrsuz", "kot", [("reverse", 'r'), ("numeric-sort", 'n'), ("unique", 'u'), ("key", 'k'),
    ("field-separator", 't'), ("output", 'o'), ("ignore-case", 'f'), ("check", 'c'), ("stable", 's')], false, none⟩
    fun o => do
    let global := (o.given.filter fun g => "bfgnr".contains g.1).map Prod.fst
    let separator := (o.value? 't').bind fun s => s.toList.head?
    let keys := (o.given.filter fun g => g.1 == 'k').filterMap fun g => sortKey? g.2
    let keyed (a b : String) : Ordering :=
      if keys.isEmpty then compareBy global a b
      else (keys.map fun k => compareBy (if k.flags.isEmpty then global else k.flags) (k.of separator a) (k.of separator b)).foldl
        Ordering.then .eq
    let full (a b : String) : Ordering :=
      (keyed a b).then (if o.has 's' || o.has 'u' then .eq else
        let c := compare a b
        if global.contains 'r' then c.swap else c)
    let ss ← sources o.operands fun f e =>
      if e == .isDirectory then "read failed: " ++ f ++ ": Is a directory" else "cannot read: " ++ f ++ ": " ++ e.text
    if ss.length < o.operands.length then setCode 2
    else
      let parts ← ss.mapM fun s => return (s.1, textLines (← wholeOf [s]))
      let ls := (parts.map Prod.snd).flatten
      if o.has 'c' || o.has 'C' then
        let pairs := ls.zip (ls.drop 1)
        let wrong (p : String × String) : Bool := full p.1 p.2 == .gt || (o.has 'u' && full p.1 p.2 == .eq)
        match pairs.findIdx? wrong, pairs.find? wrong with
        | some i, some (_, l) =>
          let file := (o.operands.head?).getD "-"
          if o.has 'c' then complain (file ++ ":" ++ toString (i + 2) ++ ": disorder: " ++ l) else setCode 1
        | _, _ => return
      else
        let sorted := ls.mergeSort fun a b => full a b != .gt
        let kept := if o.has 'u' then
            (sorted.foldl (fun (acc : List String) l => if acc.head?.any fun p => keyed p l == .eq then acc else l :: acc) []).reverse
          else sorted
        let text := String.join (kept.map (· ++ "\n"))
        match o.value? 'o' with
        | none => print text
        | some f => match (← surroundings).write f (bytesOf text) with
          | .ok w => change w
          | .error e =>
            complain ("open failed: " ++ f ++ ": " ++ e.text)
            setCode 2

def uniq : Program Unit :=
  withOptions 1 ⟨"cdiu", "fsw", [("count", 'c'), ("repeated", 'd'), ("unique", 'u'), ("ignore-case", 'i')], false, none⟩
    fun o => do
    let key (s : String) : String :=
      let s := match (o.value? 's').bind natural? with
        | some n => String.ofList (s.toList.drop n)
        | none => s
      let s := match (o.value? 'w').bind natural? with
        | some n => String.ofList (s.toList.take n)
        | none => s
      if o.has 'i' then s.toLower else s
    let ls := textLines (← wholeOf (← sources (o.operands.take 1) reason))
    let groups := (ls.foldl (fun (acc : List (String × Nat)) l =>
      match acc with
      | (p, n) :: rest => if key p == key l then (p, n + 1) :: rest else (l, 1) :: acc
      | [] => [(l, 1)]) []).reverse
    groups.forM fun (l, n) => do
      if (!o.has 'd' || 1 < n) && (!o.has 'u' || n == 1) then
        let count := "".pushn ' ' (7 - (toString n).length) ++ toString n ++ " "
        printLine ((if o.has 'c' then count else "") ++ l)

/-! Columns. -/

/-- Ranges of positions, counted from one. -/
def ranges (inFields : Bool) (s : String) : Except String (List (Nat × Option Nat)) :=
  (Text.splitAtChar ',' s.toList).mapM fun part => do
    let bound (cs : List Char) : Except String (Option Nat) :=
      if cs.isEmpty then .ok none
      else match natural? (String.ofList cs) with
        | some 0 => .error (if inFields then "fields are numbered from 1" else "byte/character positions are numbered from 1")
        | some n => .ok (some n)
        | none => .error ((if inFields then "invalid field value " else "invalid byte/character position ")
            ++ "\x00" ++ String.ofList cs ++ "\x00")
    let before := part.takeWhile (· != '-')
    let first ← bound before
    if before.length == part.length then
      match first with
      | some n => .ok (n, some n)
      | none => .error (if inFields then "fields are numbered from 1" else "byte/character positions are numbered from 1")
    else
      let last ← bound (part.drop (before.length + 1))
      match first, last with
      | none, none => .error "invalid range with no endpoint: -"
      | some a, some b => if b < a then .error "invalid decreasing range" else .ok (a, some b)
      | a, b => .ok (a.getD 1, b)

def inRanges (rs : List (Nat × Option Nat)) (n : Nat) : Bool := rs.any fun (a, b) => a ≤ n && b.all (n ≤ ·)

def cut : Program Unit :=
  withOptions 1 ⟨"snz", "bcdf", [("bytes", 'b'), ("characters", 'c'), ("delimiter", 'd'), ("fields", 'f'),
    ("only-delimited", 's'), ("complement", 'C'), ("output-delimiter", 'o')], false, none⟩ fun o => do
    match o.given.find? fun g => "bcf".contains g.1 with
    | none => refuse 1 "you must specify a list of bytes, characters, or fields"
    | some (kind, list) =>
      let delimiter := (o.value? 'd').getD "\t"
      if 1 < delimiter.length then refuse 1 "the delimiter must be a single character"
      else match ranges (kind == 'f') list with
        | .error detail =>
          let parts := (Text.splitAtChar '\x00' detail.toList).map String.ofList
          match parts with
          | [before, text, _] => refuse 1 (before ++ (← quoted text))
          | _ => refuse 1 detail
        | .ok rs =>
          let keep {α : Type} (xs : List α) : List α :=
            (xs.zipIdx 1).filterMap fun (x, i) => if inRanges rs i then some x else none
          let ss ← sources o.operands reason
          (textLines (← wholeOf ss)).forM fun l => do
            if kind == 'f' then
              let separator := (delimiter.toList.head?).getD '\x00'
              if l.contains separator then
                printLine ((String.singleton separator).intercalate (keep ((Text.splitAtChar separator l.toList).map String.ofList)))
              else if !o.has 's' then printLine l
            else printLine (String.ofList (keep l.toList))

/-- Joins the lines of files side by side, or those of each file in one. -/
def paste : Program Unit := withOptions 1 ⟨"sz", "d", [("delimiters", 'd'), ("serial", 's')], false, none⟩ fun o => do
  let separators := ((o.value? 'd').getD "\t").toList
  let separators := if separators.isEmpty then [""] else separators.map String.singleton
  let join (ws : List String) : String :=
    String.join ((ws.zipIdx).map fun (w, i) => if i == 0 then w else (separators[(i - 1) % separators.length]?.getD "") ++ w)
  let ss ← sources o.operands reason
  let columns ← ss.mapM fun s => return textLines (← wholeOf [s])
  if o.has 's' then columns.forM fun c => printLine (join c)
  else
    let height := columns.foldl (fun n c => max n c.length) 0
    (List.range height).forM fun i => printLine (join (columns.map fun column => column[i]?.getD ""))

def foldedLine (width : Nat) : Nat → List Char → List String
  | 0, _ => []
  | fuel + 1, cs => if cs.length ≤ width then [String.ofList cs]
    else String.ofList (cs.take width) :: foldedLine width fuel (cs.drop width)

def fold : Program Unit := withOptions 1 ⟨"bs", "w", [("width", 'w')], false, some 'w'⟩ fun o => do
  let width := max 1 (((o.value? 'w').bind natural?).getD 80)
  let b ← wholeOf (← sources o.operands reason)
  (lines b).forM fun l => do
    print ("\n".intercalate (foldedLine width (l.length + 1) (textOf (content l)).toList))
    if l.getLast? == some 10 then print "\n"

/-! Characters. -/

/-- The bytes of a set with escapes; an escaped byte is marked. -/
def setMarks : Nat → List Char → List (UInt8 × Bool)
  | 0, _ => []
  | _, [] => []
  | fuel + 1, '\\' :: r =>
    let escapes : Escapes := ⟨false, false, false, false⟩
    match escapes.read r with
    | .bytes b n => match b with
      | [92] => match r with
        | c :: r => (UInt8.ofNat c.toNat, true) :: setMarks fuel r
        | [] => [(92, true)]
      | _ => b.map (·, true) ++ setMarks fuel (r.drop n)
    | .stop => []
  | fuel + 1, c :: r => (UInt8.ofNat c.toNat, false) :: setMarks fuel r

def allBytes : Bytes := (List.range 256).map UInt8.ofNat

def classBytes (name : String) : Option Bytes :=
  let isBlank (b : UInt8) : Bool := b == 32 || b == 9
  let isDigit (b : UInt8) : Bool := 48 ≤ b && b ≤ 57
  let isLower (b : UInt8) : Bool := 97 ≤ b && b ≤ 122
  let isUpper (b : UInt8) : Bool := 65 ≤ b && b ≤ 90
  let isGraph (b : UInt8) : Bool := 33 ≤ b && b ≤ 126
  let isAlnum (b : UInt8) : Bool := isDigit b || isLower b || isUpper b
  let p? : Option (UInt8 → Bool) := match name with
    | "alnum" => some isAlnum
    | "alpha" => some fun b => isLower b || isUpper b
    | "blank" => some isBlank
    | "cntrl" => some fun b => b < 32 || b == 127
    | "digit" => some isDigit
    | "graph" => some isGraph
    | "lower" => some isLower
    | "print" => some fun b => b == 32 || isGraph b
    | "punct" => some fun b => isGraph b && !isAlnum b
    | "space" => some fun b => b == 32 || (9 ≤ b && b ≤ 13)
    | "upper" => some isUpper
    | "xdigit" => some fun b => isDigit b || (97 ≤ b && b ≤ 102) || (65 ≤ b && b ≤ 70)
    | _ => none
  p?.map fun p => allBytes.filter p

def setBytes : Nat → List (UInt8 × Bool) → Except String Bytes
  | 0, _ => .ok []
  | _, [] => .ok []
  | fuel + 1, ms => do
    match ms with
    | (91, false) :: (58, false) :: r =>
      let name := r.takeWhile fun m => m.1 != 58
      match classBytes (textOf (name.map Prod.fst)), r.drop name.length with
      | some bs, (58, false) :: (93, false) :: rest => return bs ++ (← setBytes fuel rest)
      | none, (58, false) :: (93, false) :: _ => .error ("invalid character class \x00" ++ textOf (name.map Prod.fst) ++ "\x00")
      | _, _ => return 91 :: (← setBytes fuel (ms.drop 1))
    | (a, _) :: (45, false) :: (z, _) :: rest =>
      if z < a then .error ("range-endpoints of '" ++ textOf [a, 45, z] ++ "' are in reverse collating sequence order")
      else return (List.range (z.toNat + 1 - a.toNat)).map (fun i => UInt8.ofNat (a.toNat + i)) ++ (← setBytes fuel rest)
    | (b, _) :: rest => return b :: (← setBytes fuel rest)
    | [] => return []

def setOf (s : String) : Except String Bytes := setBytes (s.length + 1) (setMarks (s.length + 1) s.toList)

/-- Only one of several equal bytes of a set is kept where they follow each other. -/
def squeezed (set : Bytes) (b : Bytes) : Bytes :=
  (b.foldl (fun (acc : Bytes) c => if acc.head? == some c && set.contains c then acc else c :: acc) []).reverse

def tr : Program Unit :=
  withOptions 1 ⟨"cCdst", "", [("complement", 'c'), ("delete", 'd'), ("squeeze-repeats", 's'), ("truncate-set1", 't')], true, none⟩
    fun o => do
    let deletes := o.has 'd'
    let squeezes := o.has 's'
    let most := if deletes && !squeezes then 1 else 2
    let least := if deletes == squeezes then 2 else 1
    match o.operands with
    | [] => refuse 1 "missing operand"
    | first :: others =>
      if others.length + 1 < least then
        let why := if deletes then "Two strings must be given when both deleting and squeezing repeats."
          else "Two strings must be given when translating."
        refuse 1 ("missing operand after " ++ (← quoted first) ++ "\n" ++ why)
      else if most < others.length + 1 then
        let extra ← quoted (others[most - 1]?.getD "")
        refuse 1 ("extra operand " ++ extra ++
          if most == 1 && others.length == 1 then "\nOnly one string may be given when deleting without squeezing repeats." else "")
      else match setOf first, setOf (others.head?.getD "") with
        | .error detail, _ | _, .error detail =>
          match (Text.splitAtChar '\x00' detail.toList).map String.ofList with
          | [before, text, _] => complain (before ++ (← quoted text))
          | _ => complain detail
        | .ok a, .ok b =>
          let a := if o.has 'c' || o.has 'C' then allBytes.filter fun c => !a.contains c else a
          let s ← input
          if s.isEndless then endless
          let text := s.bytes
          if deletes then
            let kept := text.filter fun c => !a.contains c
            write (if squeezes then squeezed b kept else kept)
          else if others.isEmpty then write (squeezed a text)
          else if b.isEmpty then complain "when not truncating set1, string2 must be non-empty"
          else
            let filled := if o.has 't' then b else b ++ List.replicate (a.length - b.length) (b.getLast?.getD 0)
            let table := (a.zip filled).reverse
            let mapped := text.map fun c => (table.lookup c).getD c
            write (if squeezes then squeezed b mapped else mapped)

/-! Encodings. -/

def digits64 : List Char := "ABCDEFGHIJKLMNOPQRSTUVWXYZabcdefghijklmnopqrstuvwxyz0123456789+/".toList

def encoded64 : Bytes → List Char
  | [] => []
  | [a] =>
    let n := a.toNat * 16
    [digit (n / 64), digit (n % 64), '=', '=']
  | [a, b] =>
    let n := (a.toNat * 256 + b.toNat) * 4
    [digit (n / 4096), digit (n / 64 % 64), digit (n % 64), '=']
  | a :: b :: c :: r =>
    let n := (a.toNat * 256 + b.toNat) * 256 + c.toNat
    digit (n / 262144) :: digit (n / 4096 % 64) :: digit (n / 64 % 64) :: digit (n % 64) :: encoded64 r
where
  digit (n : Nat) : Char := digits64[n]?.getD 'A'

/-- The bytes of groups of four, and whether all of them were complete. -/
def decoded64 : List Char → Bytes × Bool
  | [] => ([], true)
  | a :: b :: c :: d :: r =>
    match Text.Base64.value? a, Text.Base64.value? b with
    | some x, some y =>
      if c == '=' && d == '=' then ([byte ((x * 64 + y) / 16)], r.isEmpty)
      else match Text.Base64.value? c with
        | none => ([byte ((x * 64 + y) / 16)], false)
        | some z =>
          let n := (x * 64 + y) * 64 + z
          if d == '=' then ([byte (n / 1024), byte (n / 4)], r.isEmpty)
          else match Text.Base64.value? d with
            | none => ([byte (n / 1024), byte (n / 4)], false)
            | some w =>
              let (more, whole) := decoded64 r
              let n := n * 64 + w
              (byte (n / 65536) :: byte (n / 256) :: byte n :: more, whole)
    | _, _ => ([], false)
  | a :: b :: r =>
    match Text.Base64.value? a, Text.Base64.value? b, r.head?.bind Text.Base64.value? with
    | some x, some y, none => ([byte ((x * 64 + y) / 16)], false)
    | some x, some y, some z => ([byte ((x * 64 + y) / 16), byte (((x * 64 + y) * 64 + z) / 4)], false)
    | _, _, _ => ([], false)
  | _ => ([], false)
where
  byte (n : Nat) : UInt8 := UInt8.ofNat (n % 256)

def base64 : Program Unit :=
  withOptions 1 ⟨"di", "w", [("decode", 'd'), ("ignore-garbage", 'i'), ("wrap", 'w')], false, none⟩ fun o => do
    let b ← wholeOf (← sources (o.operands.take 1) reason)
    if o.has 'd' then
      let cs := (textOf b).toList.filter fun c => c != '\n'
      let cs := if o.has 'i' then cs.filter fun c => c == '=' || (Text.Base64.value? c).isSome else cs
      let (out, whole) := decoded64 cs
      write out
      if !whole then complain "invalid input"
    else
      let cs := encoded64 b
      let width := ((o.value? 'w').bind natural?).getD 76
      if cs.isEmpty then return
      else if width == 0 then print (String.ofList cs)
      else (foldedLine width (cs.length + 1) cs).forM printLine

/-- A byte as a character in a column of four. -/
def charColumn (b : UInt8) : String :=
  let special := [(0, "\\0"), (7, "\\a"), (8, "\\b"), (9, "\\t"), (10, "\\n"), (11, "\\v"), (12, "\\f"), (13, "\\r")]
  let octal := String.ofList (Nat.toDigits 8 b.toNat)
  let shown := match special.lookup b.toNat with
    | some s => s
    | none => if 32 ≤ b && b < 127 then textOf [b] else "".pushn '0' (3 - octal.length) ++ octal
  "".pushn ' ' (4 - shown.length) ++ shown

def baseText (base width n : Nat) : String :=
  let ds := String.ofList (Nat.toDigits base n)
  "".pushn '0' (width - ds.length) ++ ds

/-- Rows of sixteen bytes after their offsets. -/
def od : Program Unit :=
  withOptions 1 ⟨"bcdoxv", "AtNj", [("address-radix", 'A'), ("format", 't')], false, none⟩ fun o => do
    let b ← wholeOf (← sources o.operands reason)
    let b := b.drop (((o.value? 'j').bind size?).getD 0)
    let b := match (o.value? 'N').bind size? with
      | some n => b.take n
      | none => b
    let form := if o.has 'c' then "c" else if o.has 'b' then "o1" else if o.has 'x' then "x2" else
      (o.value? 't').getD "o2"
    let columns (row : Bytes) : String :=
      match form with
      | "c" => String.join (row.map charColumn)
      | "x1" => String.join (row.map fun b => " " ++ baseText 16 2 b.toNat)
      | "o1" => String.join (row.map fun b => " " ++ baseText 8 3 b.toNat)
      | "u1" => String.join (row.map fun b => "".pushn ' ' (4 - (toString b.toNat).length) ++ toString b.toNat)
      | _ =>
        let pairs := (List.range ((row.length + 1) / 2)).map fun i =>
          (row[2 * i]?.getD 0).toNat + 256 * (row[2 * i + 1]?.getD 0).toNat
        String.join (pairs.map fun n => " " ++ if form == "x2" || form == "x" then baseText 16 4 n else baseText 8 6 n)
    let address (n : Nat) : String := match o.value? 'A' with
      | some "n" => ""
      | some "x" => baseText 16 6 n
      | some "d" => baseText 10 7 n
      | _ => baseText 8 7 n
    (List.range ((b.length + 15) / 16)).forM fun i => do
      printLine (address (16 * i) ++ columns ((b.drop (16 * i)).take 16))
    if o.value? 'A' != some "n" then printLine (address b.length)

/-! Numbers. -/

/-- The factors of a number, the smallest first. -/
def factors : Nat → Nat → Nat → List Nat
  | 0, _, n => [n]
  | fuel + 1, d, n =>
    if n < d * d then (if n ≤ 1 then [] else [n])
    else if n % d == 0 then d :: factors fuel d (n / d)
    else factors fuel (d + 1) n

def factor : Program Unit := do
  let s ← read
  let words ← if s.arguments.isEmpty then do
      let b ← wholeOf [("-", ← input)]
      pure (((textOf b).toList.splitOnP fun c => c == ' ' || c == '\n' || c == '\t').filterMap fun w =>
        if w.isEmpty then none else some (String.ofList w))
    else pure s.arguments
  words.forM fun w => do
    match natural? w with
    | some n => printLine (" ".intercalate ((toString n ++ ":") :: (factors (n + 2) 2 n).map toString))
    | none => complain ((← quoted w) ++ " is not a valid positive integer")

/-- The digits after the point of a decimal text. -/
def placesOf (s : String) : Nat :=
  match (s.toList.dropWhile (· != '.')) with
  | _ :: r => (r.takeWhile Char.isDigit).length
  | [] => 0

def scaledNumber? (places : Nat) (s : String) : Option Int :=
  let cs := s.toList
  let (negative, cs) := Numeral.signed cs
  let whole := cs.takeWhile (· != '.')
  let fraction := (cs.dropWhile (· != '.')).drop 1
  if (whole ++ fraction).isEmpty || !(whole ++ fraction).all Char.isDigit then none
  else
    let ds := whole ++ fraction ++ List.replicate (places - fraction.length) '0'
    some (Numeral.withSign negative (Numeral.valueIn 10 ds))

def seqOptions (o : Options) : List String → Options
  | [] => o
  | "-w" :: r => seqOptions (o.add 'w' "") r
  | "-s" :: v :: r => seqOptions (o.add 's' v) r
  | "-f" :: v :: r => seqOptions (o.add 'f' v) r
  | "--" :: r => { o with operands := r }
  | a :: r =>
    match a.toList with
    | '-' :: 's' :: v => seqOptions (o.add 's' (String.ofList v)) r
    | _ => { o with operands := a :: r }

def seq : Program Unit := do
  let o := seqOptions {} (← read).arguments
  let ws := o.operands
  if ws.isEmpty then refuse 1 "missing operand"
  else if 3 < ws.length then refuse 1 ("extra operand " ++ (← quoted (ws[3]?.getD "")))
  else
    let range := match ws with
      | [last] => ["1", "1", last]
      | [first, last] => [first, "1", last]
      | _ => ws
    let places := max (placesOf (range[0]?.getD "")) (placesOf (range[1]?.getD ""))
    let precise := range.foldl (fun n w => max n (placesOf w)) 0
    match range.find? fun w => (scaledNumber? precise w).isNone with
    | some w => refuse 1 ("invalid floating point argument: " ++ (← quoted w))
    | none =>
      match range.filterMap (scaledNumber? precise) with
      | [first, step, last] =>
        if step == 0 then refuse 1 ("invalid Zero increment value: " ++ (← quoted (range[1]?.getD "")))
        else
          let count := ((last - first).fdiv step + 1).toNat
          let shown (n : Int) : String :=
            let n := n / (Nat.pow 10 (precise - places) : Int)
            (if n < 0 then "-" else "") ++ pointed places n.natAbs
          let values := (List.range count).map fun (i : Nat) => first + step * i
          let texts := match o.value? 'f' with
            | some form =>
              let escapes : Escapes := ⟨false, false, false, false⟩
              let d : Dialect := ⟨escapes, escapes, id, id⟩
              values.map fun n => textOf ((d.print form [shown n]).out.reverse.flatten)
            | none =>
              let ts := values.map shown
              if o.has 'w' then
                let width := [shown first, shown (first + step * (count - 1 : Nat))].foldl (fun n t => max n t.length) 0
                ts.map fun t => if t.toList.head? == some '-' then "-" ++ zeros (width - t.length) ++ String.ofList (t.toList.drop 1)
                  else zeros (width - t.length) ++ t
              else ts
          if !texts.isEmpty then print (((o.value? 's').getD "\n").intercalate texts ++ "\n")
      | _ => return

end QualityGate.Shell.Filter
