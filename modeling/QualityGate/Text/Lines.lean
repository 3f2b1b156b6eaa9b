import QualityGate.Text.CharClass

/-! Lines of a text: newline unification, splitting, trimming and search for
fixed words. -/

namespace QualityGate.Text

/-- Every carriage return, with a line feed after it or alone, becomes one line feed. -/
def unifyNewlines (s : List Char) : List Char := (go s []).reverse
where
  go : List Char → List Char → List Char
    | [], acc => acc
    | '\r' :: '\n' :: r, acc => go r ('\n' :: acc)
    | '\r' :: r, acc => go r ('\n' :: acc)
    | c :: r, acc => go r (c :: acc)

def consToLines (c : Char) (lines : List (List Char)) : List (List Char) :=
  if isLineBreak c then [] :: lines
  else match lines with
    | [] => [[c]]
    | l :: ls => (c :: l) :: ls

/-- The lines of a text without their ends; a final line end opens no further line. -/
def splitLines (s : List Char) : List (List Char) :=
  (unifyNewlines s).foldr consToLines []

def dropBlanks (s : List Char) : List Char := s.dropWhile isBlank

def trimRight (s : List Char) : List Char := (dropBlanks s.reverse).reverse

def trim (s : List Char) : List Char := trimRight (dropBlanks s)

/-- Trims what may stand around a number. -/
def trimSpaces (s : List Char) : List Char := ((s.dropWhile isSpace).reverse.dropWhile isSpace).reverse

def isBlankLine (s : List Char) : Bool := s.all isBlank

def trimString (s : String) : String := String.ofList (trim s.toList)

/-- Whether `word` stands somewhere in the text. -/
def contains (word : List Char) : List Char → Bool
  | [] => word.isEmpty
  | c :: r => word.isPrefixOf (c :: r) || contains word r

/-- Splits at every occurrence of one character, which is dropped. -/
def splitAtChar (sep : Char) (s : List Char) : List (List Char) :=
  s.foldr (fun c parts =>
    if c == sep then [] :: parts
    else match parts with
      | [] => [[c]]
      | p :: ps => (c :: p) :: ps) [[]]

/-! Lines and columns of the characters of a text, both counted from one. Only
line feeds end lines here. -/

def lineOf (s : List Char) (index : Nat) : Nat := (s.take index).count '\n' + 1

def columnOf (s : List Char) (index : Nat) : Nat :=
  ((s.take index).reverse.takeWhile (· != '\n')).length + 1

end QualityGate.Text
