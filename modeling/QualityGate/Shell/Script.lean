/-! Shell scripts and the words in them. A word is a sequence of pieces, some of
which are filled in when it is used. Texts hold one byte in each character. -/

namespace QualityGate.Shell

/-- What is done with the value of a parameter. -/
inductive Use where
  | plain
  | length
  | orDefault
  | orAssign
  | orFail
  | ifSet
  /-- Without what matches a pattern, at its end or at its beginning. -/
  | without (atEnd longest : Bool)
  /-- Braces with something else in them. -/
  | unknown
  deriving DecidableEq, Repr

inductive RedirectKind where
  | read
  | readWrite
  | write
  /-- Also where a file may not be overwritten. -/
  | overwrite
  | append
  /-- To where another descriptor goes. -/
  | duplicate
  /-- The text of the here-document with a number. -/
  | here (number : Nat)
  deriving DecidableEq, Repr

mutual

inductive Piece where
  /-- A quoted character only stands for itself. -/
  | char (c : Char) (quoted : Bool)
  /-- A quotation mark. A field that has one is kept even if it is empty. -/
  | mark
  /-- With `nullCounts` an empty value is like none. -/
  | parameter (name : String) (use : Use) (nullCounts : Bool) (word : List Piece) (quoted : Bool)
  | output (script : Option Script) (quoted : Bool)
  | arithmetic (expression : List Piece) (quoted : Bool)

inductive Redirect where
  | mk (descriptor : Nat) (kind : RedirectKind) (target : List Piece)

/-- Lines are counted from one. -/
inductive Script where
  | simple (line : Nat) (assignments : List (String × List Piece)) (words : List (List Piece))
      (redirects : List Redirect)
  | redirected (line : Nat) (body : Script) (redirects : List Redirect)
  | subshell (line : Nat) (body : Script) (redirects : List Redirect)
  | background (line : Nat) (body : Script)
  | pipeline (stages : List Script)
  | andThen (a b : Script)
  | both (a b : Script)
  | either (a b : Script)
  | negated (a : Script)
  | choice (condition yes : Script) (no : Option Script)
  | loop (untilTrue : Bool) (condition body : Script)
  | each (line : Nat) (name : String) (words : List (List Piece)) (body : Script)
  | cases (line : Nat) (subject : List Piece) (branches : List (List (List Piece) × Option Script))
  | define (name : String) (body : Script)

end

abbrev Word := List Piece

namespace Redirect

def descriptor : Redirect → Nat
  | mk d _ _ => d

def kind : Redirect → RedirectKind
  | mk _ k _ => k

def target : Redirect → Word
  | mk _ _ w => w

end Redirect

def Piece.char? : Piece → Option Char
  | char c _ => some c
  | _ => none

def Piece.bare? : Piece → Option Char
  | char c false => some c
  | _ => none

/-- The text of a word of characters that are not quoted. -/
def Word.bare? (w : Word) : Option String := (w.mapM Piece.bare?).map String.ofList

/-- The characters of a word, quoted or not. -/
def Word.chars (w : Word) : List Char := w.filterMap Piece.char?

def isNameStart (c : Char) : Bool := c.isAlpha || c == '_'

def isNameChar (c : Char) : Bool := c.isAlphanum || c == '_'

def isName (s : String) : Bool := s.toList.head?.any isNameStart && s.toList.all isNameChar

/-- A name and an equals sign at the head of a word make it an assignment. -/
def Word.assignment? (w : Word) : Option (String × Word) :=
  let name := (w.takeWhile fun p => p.bare?.any isNameChar).filterMap Piece.bare?
  match w.drop name.length with
  | .char '=' false :: rest => if name.head?.any isNameStart then some (String.ofList name, rest) else none
  | _ => none

end QualityGate.Shell
