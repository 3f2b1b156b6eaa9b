import QualityGate.Text.Lines
import QualityGate.Failure
import QualityGate.Text.Pattern

/-! Terminal escape sequences and the lines of combined output. -/

namespace QualityGate.Output

def isParameter (c : Char) : Bool := ('0' ≤ c && c ≤ '9') || c == ';' || c == '?'

/-- What follows the parameters and the letter that end a sequence. -/
def afterSequence? (s : List Char) : Option (List Char) :=
  match s.dropWhile isParameter with
  | c :: r => if c.isAlpha then some r else none
  | [] => none

theorem afterSequence?_length {s r : List Char} (h : afterSequence? s = some r) : r.length < s.length := by
  unfold afterSequence? at h
  split at h
  next c t ht =>
    have hle := (List.dropWhile_sublist isParameter (l := s)).length_le
    rw [ht] at hle
    split at h
    · cases h
      simp at hle
      omega
    · cases h
  next => cases h

/-- The text without its complete escape sequences. -/
def stripEscapes (s : List Char) : List Char := (go s []).reverse
where
  go (s acc : List Char) : List Char :=
    match s with
    | [] => acc
    | '\x1b' :: '[' :: r =>
      match h : afterSequence? r with
      | some rest =>
        have := afterSequence?_length h
        go rest acc
      | none => go ('[' :: r) ('\x1b' :: acc)
    | c :: r => go r (c :: acc)
  termination_by s.length
  decreasing_by all_goals simp_all; try omega

def combined (stdout stderr : String) : List Char := stripEscapes (stdout.toList ++ '\n' :: stderr.toList)

def combinedLines (stdout stderr : String) : List (List Char) := Text.splitLines (combined stdout stderr)

/-! Choosing among line patterns: the one that matches the most lines wins, and
the earlier one on a tie. -/

open Text

/-- What a pattern finds on each line. -/
abbrev LineMatches := List (Option Found)

def matchLines (p : Pattern) (lines : List (List Char)) : LineMatches := lines.map p.matchPrefix?

def matchCount (ms : LineMatches) : Nat := ms.countP Option.isSome

def bestMatches (patterns : List Pattern) (lines : List (List Char)) : LineMatches :=
  patterns.foldl (fun best p =>
    let ms := matchLines p lines
    if matchCount best < matchCount ms then ms else best) (lines.map fun _ => none)

/-- The number that a group of digits spells; a group that is absent counts as zero. -/
def numberOf (m : Found) (name : String) : Outcome Nat :=
  match m.group? name with
  | none => .ok 0
  | some digits => Int.toNat <$> Failure.wholeNumber 10 digits

/-- A failing run of which nothing can be extracted cannot be parsed. -/
def requireSome {α : Type} (tool what : String) (exitCode : Int) (found : List α) : Outcome (List α) :=
  if found.isEmpty && exitCode != 0 then
    .error (.unparsable tool (.text ("exit code " ++ toString exitCode ++ " but no " ++ what ++ " could be parsed")))
  else .ok found

def trimmed (m : Found) (name : String) : String := String.ofList (trim ((m.group? name).getD []))

end QualityGate.Output
