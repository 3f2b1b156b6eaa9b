import Mathlib
import QualityGate.Hook.Script

/-! How a shell divides a script into tokens, by the quoting rules of POSIX. The scripts that are read here have no
here-documents, and within a substitution brackets come in pairs. What is quoted as a word is read back as that word,
wherever a word may begin. -/

namespace QualityGate.Text.ShellWords

/-- A character of a word stands for itself, or it has a meaning to the shell. All of a substitution has. -/
inductive Piece where
  | literal (c : Char)
  | special (c : Char)
  deriving DecidableEq

inductive Token where
  | word (pieces : List Piece)
  /-- Digits right before a redirection. -/
  | number (pieces : List Piece)
  | operator (chars : List Char)
  | newline
  /-- The text ends within quotes or a substitution. -/
  | unfinished
  deriving DecidableEq

/-- What a character stands in. -/
inductive Enclosure where
  | single
  | double
  | substitution (closer : Char)
  deriving DecidableEq

def Enclosure.isSubstitution : Enclosure → Bool
  | substitution _ => true
  | single | double => false

/-- The enclosures around the next character, the innermost first, and the backslash or dollar sign before it. -/
structure Spot where
  enclosures : List Enclosure := []
  after : Option Char := none
  deriving DecidableEq

def isOperatorChar (c : Char) : Bool := c == '&' || c == '|' || c == ';' || c == '<' || c == '>' || c == '(' || c == ')'

def isSeparator (c : Char) : Bool := c == ' ' || c == '\t' || c == '\n' || isOperatorChar c

/-- Characters that a backslash quotes within double quotes. -/
def isEscapable (c : Char) : Bool := c == '$' || c == '\x60' || c == '"' || c == '\\'

def isWildcard (c : Char) : Bool := c == '*' || c == '?' || c == '[' || c == '~'

/-- A character that stands for itself wherever it stands. -/
def isOrdinary (c : Char) : Bool :=
  !(isSeparator c || isEscapable c || isWildcard c || c == '\'' || c == '#')

namespace Spot

def isEscaped (s : Spot) : Bool := s.after == some '\\'

def opensSubstitution (s : Spot) (c : Char) : Bool := s.after == some '$' && (c == '(' || c == '\x7b')

def closerOf (c : Char) : Char := if c == '(' then ')' else if c == '\x7b' then '\x7d' else c

/-- A character ends the word that it follows. -/
def isEnd (s : Spot) (c : Char) : Bool :=
  s.enclosures.isEmpty && !s.isEscaped && isSeparator c && !s.opensSubstitution c

/-- The spot behind a character. -/
def move (s : Spot) (c : Char) : Spot :=
  if s.isEscaped then ⟨s.enclosures, none⟩
  else match s.enclosures with
  | .single :: outer => if c == '\'' then ⟨outer, none⟩ else ⟨s.enclosures, none⟩
  | enclosures =>
    if c == '\\' || c == '$' then ⟨enclosures, some c⟩
    else if s.opensSubstitution c then ⟨.substitution (closerOf c) :: enclosures, none⟩
    else if c == '"' then
      if enclosures.head? == some .double then ⟨enclosures.tail, none⟩ else ⟨.double :: enclosures, none⟩
    else if enclosures.head? == some (.substitution c) then ⟨enclosures.tail, none⟩
    else if c == '\x60' then ⟨.substitution c :: enclosures, none⟩
    else if enclosures.head? == some .double then ⟨enclosures, none⟩
    else if c == '\'' then ⟨.single :: enclosures, none⟩
    else if c == '(' && !enclosures.isEmpty then ⟨.substitution ')' :: enclosures, none⟩
    else ⟨enclosures, none⟩

/-- What is kept of a character. Quotes are not, nor is a line end that a backslash hides; a backslash is kept within
double quotes if it has nothing to quote. -/
def keep (s : Spot) (c : Char) : List Piece :=
  if s.enclosures.any Enclosure.isSubstitution then [.special c]
  else if s.isEscaped then
    if c == '\n' then []
    else if s.enclosures.head? == some .double && !isEscapable c then [.literal '\\', .literal c]
    else [.literal c]
  else if s.enclosures.head? == some .single then if c == '\'' then [] else [.literal c]
  else if c == '\\' || c == '"' then []
  else if c == '$' || c == '\x60' || s.opensSubstitution c then [.special c]
  else if s.enclosures.head? == some .double then [.literal c]
  else if c == '\'' then []
  else if isWildcard c then [.special c]
  else [.literal c]

/-- A character, or the backslash before it, quotes something. -/
def quotes (s : Spot) (c : Char) : Bool := c == '\'' || c == '"' || (s.isEscaped && c != '\n')

end Spot

/-! One character after the other. -/

/-- What has been read of a token. A word is bare as long as nothing in it is quoted. -/
inductive Mode where
  | comment
  | operator (chars : List Char)
  | word (pieces : List Piece) (bare : Bool) (spot : Spot)
  deriving DecidableEq

/-- Nothing has been read of the next token. -/
def ground : Mode := .word [] true {}

def wordTokens (pieces : List Piece) (bare : Bool) : List Token := if bare && pieces.isEmpty then [] else [.word pieces]

def isDigits (pieces : List Piece) : Bool :=
  !pieces.isEmpty && pieces.all fun p => match p with
    | .literal c => c.isDigit
    | .special _ => false

def operators : List String := ["&&", "||", ";;", "<<", ">>", "<&", ">&", "<>", "<<-", ">|"]

def stepWord (pieces : List Piece) (bare : Bool) (spot : Spot) (c : Char) : List Token × Mode :=
  if spot.isEnd c then
    if c == '\n' then (wordTokens pieces bare ++ [.newline], ground)
    else if isOperatorChar c then
      (if bare && isDigits pieces && (c == '<' || c == '>') then [.number pieces] else wordTokens pieces bare, .operator [c])
    else (wordTokens pieces bare, ground)
  else if c == '#' && bare && pieces.isEmpty && spot == {} then ([], .comment)
  else ([], .word (pieces ++ spot.keep c) (bare && !spot.quotes c) (spot.move c))

def step (m : Mode) (c : Char) : List Token × Mode :=
  match m with
  | .comment => if c == '\n' then ([.newline], ground) else ([], .comment)
  | .operator chars =>
    if operators.any (·.toList == chars ++ [c]) then ([], .operator (chars ++ [c]))
    else (.operator chars :: (stepWord [] true {} c).1, (stepWord [] true {} c).2)
  | .word pieces bare spot => stepWord pieces bare spot c

def run (m : Mode) : List Char → List Token × Mode
  | [] => ([], m)
  | c :: cs => ((step m c).1 ++ (run (step m c).2 cs).1, (run (step m c).2 cs).2)

/-- What is left at the end of the text. -/
def finish : Mode → List Token
  | .comment => []
  | .operator chars => [.operator chars]
  | .word pieces bare spot =>
    if spot.enclosures.isEmpty && !spot.isEscaped then wordTokens pieces bare else [.unfinished]

/-- The tokens of a script. -/
def lex (cs : List Char) : List Token := (run ground cs).1 ++ finish (run ground cs).2

section run

variable {m : Mode} {pieces : List Piece} {bare : Bool} {spot : Spot} {cs rest : List Char} {ts us : List Token}

theorem run_append (m : Mode) (as bs : List Char) :
    run m (as ++ bs) = ((run m as).1 ++ (run (run m as).2 bs).1, (run (run m as).2 bs).2) := by
  induction as generalizing m with
  | nil => rfl
  | cons a as ih => simp [run, ih]

/-- A text of whole tokens. -/
def Lexes (cs : List Char) (ts : List Token) : Prop := run ground cs = (ts, ground)

theorem lexes_self (h : (run ground cs).2 = ground) : Lexes cs (run ground cs).1 := Prod.ext rfl h

theorem Lexes.append (h : Lexes cs ts) (h' : Lexes rest us) : Lexes (cs ++ rest) (ts ++ us) := by
  rw [Lexes, run_append, h, h']

theorem Lexes.lex_append (h : Lexes cs ts) (rest : List Char) : lex (cs ++ rest) = ts ++ lex rest := by
  rw [lex, run_append, h, lex, List.append_assoc]

theorem Lexes.lex_eq (h : Lexes cs ts) : lex cs = ts := by
  rw [lex, h]
  exact List.append_nil ts

end run

/-! Words that are quoted. -/

/-- The characters of a text as such. -/
def literals (cs : List Char) : List Piece := cs.map .literal

def wordOf (w : String) : Token := .word (literals w.toList)

section quote

variable {pieces : List Piece} {bare : Bool} {c : Char} {cs rest : List Char}

theorem run_word_cons {spot : Spot} (hend : spot.isEnd c = false) (hcomment : c ≠ '#' ∨ bare = false) :
    run (.word pieces bare spot) (c :: cs) =
      run (.word (pieces ++ spot.keep c) (bare && !spot.quotes c) (spot.move c)) cs := by
  have hstep : step (.word pieces bare spot) c =
      ([], .word (pieces ++ spot.keep c) (bare && !spot.quotes c) (spot.move c)) := by
    rw [step, stepWord, if_neg (by simp [hend]), if_neg]
    rcases hcomment with h | h <;> simp [h]
  rw [run, hstep]
  rfl

theorem run_quoted_cons {spot : Spot} (hend : spot.isEnd c = false) :
    run (.word pieces false spot) (c :: cs) = run (.word (pieces ++ spot.keep c) false (spot.move c)) cs :=
  run_word_cons hend (.inr rfl)

theorem run_open : run (.word pieces bare {}) ('\'' :: cs) = run (.word pieces false ⟨[.single], none⟩) cs := by
  rw [run_word_cons (by rfl) (.inl (by decide))]
  simp [Spot.keep, Spot.move, Spot.quotes, Spot.isEscaped, Spot.opensSubstitution]

theorem run_close : run (.word pieces false ⟨[.single], none⟩) ('\'' :: cs) = run (.word pieces false {}) cs := by
  rw [run_quoted_cons (by rfl)]
  simp [Spot.keep, Spot.move, Spot.isEscaped, Enclosure.isSubstitution]

/-- Within single quotes every character but the closing one is read as it stands. -/
theorem run_single (h : '\'' ∉ cs) (rest : List Char) :
    run (.word pieces false ⟨[.single], none⟩) (cs ++ rest) =
      run (.word (pieces ++ literals cs) false ⟨[.single], none⟩) rest := by
  induction cs generalizing pieces with
  | nil => simp [literals]
  | cons c cs ih =>
    obtain ⟨hc, hcs⟩ : '\'' ≠ c ∧ '\'' ∉ cs := by simpa using h
    have hkeep : Spot.keep ⟨[.single], none⟩ c = [.literal c] := by simp [Spot.keep, Enclosure.isSubstitution, Spot.isEscaped, hc.symm]
    have hmove : Spot.move ⟨[.single], none⟩ c = ⟨[.single], none⟩ := by simp [Spot.move, Spot.isEscaped, hc.symm]
    rw [List.cons_append, run_quoted_cons (by simp [Spot.isEnd]), hkeep, hmove, ih hcs]
    simp [literals]

theorem literals_append (as bs : List Char) : literals (as ++ bs) = literals as ++ literals bs := List.map_append

theorem run_escape (c : Char) (rest : List Char) :
    run (.word pieces false ⟨[.single], none⟩) (escape c ++ rest) =
      run (.word (pieces ++ literals [c]) false ⟨[.single], none⟩) rest := by
  by_cases hc : c = '\''
  · -- The quotes are closed, and within double quotes a single one stands for itself.
    subst hc
    have hescape : escape '\'' = ['\'', '"', '\'', '"', '\''] := rfl
    rw [hescape]
    simp only [List.cons_append, List.nil_append]
    iterate 5 rw [run_quoted_cons (by rfl)]
    simp [Spot.keep, Spot.move, Spot.isEscaped, Spot.opensSubstitution, Enclosure.isSubstitution, literals]
  · have hescape : escape c = [c] := by simp [escape, hc]
    rw [hescape]
    exact run_single (by simpa using Ne.symm hc) rest

theorem run_escapes (cs rest : List Char) :
    run (.word pieces false ⟨[.single], none⟩) (cs.flatMap escape ++ rest) =
      run (.word (pieces ++ literals cs) false ⟨[.single], none⟩) rest := by
  induction cs generalizing pieces with
  | nil => simp [literals]
  | cons c cs ih =>
    rw [List.flatMap_cons, List.append_assoc, run_escape, ih, List.append_assoc, ← literals_append]
    rfl

theorem isOrdinary_of_isPlain (h : isPlain c = true) : isOrdinary c = true := by
  rw [isOrdinary, Bool.not_eq_true', Bool.eq_false_iff]
  intro hmeta
  simp only [isSeparator, isOperatorChar, isEscapable, isWildcard, Bool.or_eq_true, beq_iff_eq] at hmeta
  have hplain : isPlain c = false := by
    rcases hmeta with (((hmeta | hmeta) | hmeta) | rfl) | rfl
    · rcases hmeta with ((rfl | rfl) | rfl) | (((((rfl | rfl) | rfl) | rfl) | rfl) | rfl) | rfl <;> rfl
    · rcases hmeta with ((rfl | rfl) | rfl) | rfl <;> rfl
    · rcases hmeta with ((rfl | rfl) | rfl) | rfl <;> rfl
    · rfl
    · rfl
  cases h.symm.trans hplain

theorem run_ordinary (h : isOrdinary c = true) :
    run (.word pieces bare {}) (c :: cs) = run (.word (pieces ++ [.literal c]) bare {}) cs := by
  simp only [isOrdinary, Bool.not_eq_true', Bool.or_eq_false_iff, beq_eq_false_iff_ne] at h
  obtain ⟨⟨⟨⟨hseparator, hescapable⟩, hwildcard⟩, hquote⟩, hsharp⟩ := h
  simp only [isEscapable, Bool.or_eq_false_iff, beq_eq_false_iff_ne] at hescapable
  obtain ⟨⟨⟨hdollar, hback⟩, hdouble⟩, hbackslash⟩ := hescapable
  have hbracket : c ≠ '(' := by
    rintro rfl
    cases hseparator
  have hkeep : Spot.keep {} c = [.literal c] := by
    simp [Spot.keep, Spot.isEscaped, Spot.opensSubstitution, *]
  have hmove : Spot.move {} c = {} := by
    simp [Spot.move, Spot.isEscaped, Spot.opensSubstitution, *]
  have hquotes : Spot.quotes {} c = false := by simp [Spot.quotes, Spot.isEscaped, *]
  rw [run_word_cons (by simp [Spot.isEnd, hseparator]) (.inl hsharp), hkeep, hmove, hquotes, Bool.not_false, Bool.and_true]

/-- What needs no quoting is read as it stands. -/
theorem run_plain (h : ∀ c ∈ cs, isPlain c = true) (rest : List Char) :
    run (.word pieces bare {}) (cs ++ rest) = run (.word (pieces ++ literals cs) bare {}) rest := by
  induction cs generalizing pieces with
  | nil => simp [literals]
  | cons c cs ih =>
    obtain ⟨hc, hcs⟩ := List.forall_mem_cons.mp h
    rw [List.cons_append, run_ordinary (isOrdinary_of_isPlain hc), ih hcs]
    simp [literals]

/-- A word that is quoted is read as a part of the word that has begun. -/
theorem run_quote (pieces : List Piece) (bare : Bool) (w : String) (rest : List Char) :
    ∃ b, run (.word pieces bare {}) ((quote w).toList ++ rest) = run (.word (pieces ++ literals w.toList) b {}) rest ∧
      (b = true → w.toList ≠ []) := by
  unfold quote
  dsimp only
  split
  case isTrue hempty =>
    have hw : w.toList = [] := List.isEmpty_iff.mp hempty
    refine ⟨false, ?_, nofun⟩
    have hquotes : "''".toList = ['\'', '\''] := rfl
    rw [hquotes, hw, List.cons_append, List.cons_append, run_open, run_close]
    simp [literals]
  case isFalse hempty =>
    have hw : w.toList ≠ [] := fun h => hempty (List.isEmpty_iff.mpr h)
    split
    case isTrue hplain => exact ⟨bare, run_plain (List.all_eq_true.mp hplain) rest, fun _ => hw⟩
    case isFalse =>
      refine ⟨false, ?_, nofun⟩
      rw [String.toList_ofList, List.cons_append, List.cons_append, run_open, List.append_assoc, run_escapes,
        List.cons_append, run_close, List.nil_append]

theorem wordTokens_of_ne {pieces : List Piece} {bare : Bool} (h : bare = true → pieces ≠ []) :
    wordTokens pieces bare = [.word pieces] := by
  cases bare with
  | false => rfl
  | true => simp [wordTokens, h rfl]

/-- A word ends at a blank. -/
theorem run_space (pieces : List Piece) (bare : Bool) (cs : List Char) :
    run (.word pieces bare {}) (' ' :: cs) = (wordTokens pieces bare ++ (run ground cs).1, (run ground cs).2) := rfl

theorem run_newline (pieces : List Piece) (bare : Bool) (cs : List Char) :
    run (.word pieces bare {}) ('\n' :: cs) =
      (wordTokens pieces bare ++ [.newline] ++ (run ground cs).1, (run ground cs).2) := rfl

theorem lexes_quote (w : String) : Lexes ((quote w).toList ++ [' ']) [wordOf w] := by
  obtain ⟨b, hrun, hb⟩ := run_quote [] true w [' ']
  have hword : wordTokens ([] ++ literals w.toList) b = [wordOf w] :=
    wordTokens_of_ne fun h => by simpa [literals] using hb h
  rw [Lexes, ground, hrun, run_space, hword]
  rfl

theorem toList_join (ws : List String) : (join ws).toList = [' '].intercalate (ws.map fun w => (quote w).toList) := by
  rw [join, String.toList_intercalate, List.map_map]
  rfl

/-- Words that are joined are the words that are read. -/
theorem lexes_join (ws : List String) : Lexes ((join ws).toList ++ [' ']) (ws.map wordOf) := by
  rw [toList_join]
  induction ws with
  | nil => rfl
  | cons w ws ih =>
    cases ws with
    | nil => simpa [List.intercalate_singleton] using lexes_quote w
    | cons v ws =>
      rw [List.map_cons, List.map_cons, List.intercalate_cons_cons, List.append_assoc]
      exact (lexes_quote w).append ih

end quote

theorem lexes_single {cs : List Char} (h : '\'' ∉ cs) : Lexes ('\'' :: (cs ++ ['\'', ' '])) [.word (literals cs)] := by
  rw [Lexes, ground, run_open, run_single h, run_close, run_space]
  rfl

/-! Words that are put between single quotes as they are. -/

def Piece.char : Piece → Char
  | literal c | special c => c

/-- Characters that no quoting takes out of a word. -/
def isKept (c : Char) : Bool := !(c == '\'' || c == '"' || c == '\\' || c == '\n')

def keptCount (pieces : List Piece) : Nat := pieces.countP fun p => isKept p.char

/-- The backslash that may still have to be kept. -/
def Spot.owes (s : Spot) : Nat := if s.isEscaped && !s.enclosures.any Enclosure.isSubstitution then 1 else 0

theorem keptCount_append (ps qs : List Piece) : keptCount (ps ++ qs) = keptCount ps + keptCount qs := List.countP_append

theorem keptCount_literals (cs : List Char) : keptCount (literals cs) = cs.countP isKept := by
  rw [keptCount, literals, List.countP_map]
  rfl

theorem keptCount_keep (s : Spot) (c : Char) : keptCount (s.keep c) = if isKept c then 1 else 0 := by
  unfold Spot.keep
  split_ifs <;> simp_all [keptCount, Piece.char, isKept]

/-- A backslash waits for the next character, unless it is itself quoted. -/
theorem Spot.isEscaped_move {s : Spot} {c : Char} (h : (s.move c).isEscaped = true) :
    c = '\\' ∧ s.isEscaped = false ∧ (s.move c).enclosures = s.enclosures ∧ s.enclosures.head? ≠ some .single := by
  unfold Spot.move at h ⊢
  split at h
  · simp [isEscaped] at h
  · rename_i hescaped
    rw [if_neg hescaped]
    split at h
    · split at h <;> simp [isEscaped] at h
    · rename_i hsingle
      split_ifs at h ⊢ <;> simp_all [isEscaped]
      intro hhead
      obtain ⟨outer, houter⟩ := List.head?_eq_some_iff.mp hhead
      exact hsingle outer houter

theorem length_keep_le (s : Spot) (c : Char) : (s.keep c).length ≤ 1 + s.owes := by
  unfold Spot.keep Spot.owes
  split_ifs <;> simp_all

theorem length_keep (s : Spot) (c : Char) : (s.keep c).length + (s.move c).owes ≤ 1 + s.owes := by
  cases hmove : (s.move c).isEscaped with
  | false =>
    have howes : (s.move c).owes = 0 := by simp [Spot.owes, hmove]
    have hkeep := length_keep_le s c
    omega
  | true =>
    obtain ⟨rfl, hescaped, henclosures, hsingle⟩ := Spot.isEscaped_move hmove
    by_cases hsub : s.enclosures.any Enclosure.isSubstitution = true
    · have howes : (s.move '\\').owes = 0 := by simp [Spot.owes, henclosures, hsub]
      have hkeep := length_keep_le s '\\'
      omega
    · have hkeep : s.keep '\\' = [] := by simp_all [Spot.keep]
      have howes : (s.move '\\').owes ≤ 1 := by
        unfold Spot.owes
        split <;> omega
      rw [hkeep]
      simp
      omega

/-- A word in which something is quoted goes on to the end of a text with all characters that are kept, or it ends before
that. -/
theorem run_word_quoted (pieces : List Piece) (spot : Spot) (cs : List Char) :
    (∃ more spot', run (.word pieces false spot) cs = ([], .word (pieces ++ more) false spot') ∧
      keptCount more = cs.countP isKept ∧ more.length + spot'.owes ≤ cs.length + spot.owes) ∨
    ∃ more ts m, run (.word pieces false spot) cs = (.word (pieces ++ more) :: ts, m) ∧
      more.length < cs.length + spot.owes := by
  induction cs generalizing pieces spot with
  | nil => exact .inl ⟨[], spot, by simp [run], rfl, by simp⟩
  | cons c cs ih =>
    cases hend : spot.isEnd c with
    | true =>
      obtain ⟨ts, m, hstep⟩ : ∃ ts m, step (.word pieces false spot) c = (.word pieces :: ts, m) := by
        rw [step, stepWord, if_pos hend]
        split_ifs <;> simp_all [wordTokens]
      refine .inr ⟨[], ts ++ (run m cs).1, (run m cs).2, ?_, by simp⟩
      rw [run, hstep, List.append_nil]
      rfl
    | false =>
      have hkeep := length_keep spot c
      have hkept := keptCount_keep spot c
      rw [run_quoted_cons hend]
      rcases ih (pieces ++ spot.keep c) (spot.move c) with ⟨more, spot', hrun, hcount, hlength⟩ | ⟨more, ts, m, hrun, hlength⟩
      · refine .inl ⟨spot.keep c ++ more, spot', by rw [hrun, List.append_assoc], ?_, ?_⟩
        · rw [keptCount_append, hkept, hcount, List.countP_cons, Nat.add_comm]
        · rw [List.length_append, List.length_cons]
          omega
      · refine .inr ⟨spot.keep c ++ more, ts, m, by rw [hrun, List.append_assoc], ?_⟩
        rw [List.length_append, List.length_cons]
        omega

/-- A text with a single quote in it that is put between single quotes is not read as that word. -/
theorem lex_unquoted_ne {cs : List Char} (hquote : '\'' ∈ cs) (hlast : ∃ c ∈ cs.getLast?, isKept c = true)
    (rest : List Char) (ts : List Token) : lex ('\'' :: (cs ++ rest)) ≠ .word (literals cs) :: ts := by
  obtain ⟨before, after, rfl, hbefore⟩ : ∃ before after, cs = before ++ '\'' :: after ∧ '\'' ∉ before :=
    List.eq_append_cons_of_mem hquote
  -- The quotes end here, so that a character is lost; those that are kept all the same leave none for the rest.
  have hlost (more more' : List Piece) (hcount : keptCount more = after.countP isKept)
      (hlength : more.length ≤ after.length) : more ++ more' ≠ literals ('\'' :: after) := by
    intro h
    have hcounts : keptCount more + keptCount more' = after.countP isKept := by
      rw [← keptCount_append, h, keptCount_literals, List.countP_cons_of_neg (by decide)]
    have hnone : keptCount more' = 0 := by omega
    have hne : more' ≠ [] := by
      rintro rfl
      have hlengths := congrArg List.length h
      simp [literals] at hlengths
      omega
    obtain ⟨c, hc, hkept⟩ := hlast
    have hmem : Piece.literal c ∈ more' := by
      refine List.mem_of_getLast? ?_
      rw [← List.getLast?_append_of_ne_nil more hne, h, literals, List.getLast?_map]
      rw [List.getLast?_append_of_ne_nil _ (List.cons_ne_nil _ _)] at hc
      exact congrArg (Option.map Piece.literal) hc
    exact List.countP_eq_zero.mp hnone _ hmem hkept
  have hrun : run ground ('\'' :: (before ++ '\'' :: after ++ rest)) =
      run (.word (literals before) false {}) (after ++ rest) := by
    rw [ground, run_open, List.append_assoc, run_single hbefore, List.cons_append, run_close, List.nil_append]
  have hwhole (more : List Piece) (h : literals before ++ more = literals (before ++ '\'' :: after)) :
      more = literals ('\'' :: after) := by
    rw [literals_append] at h
    exact List.append_cancel_left h
  intro h
  rw [lex, hrun, run_append] at h
  rcases run_word_quoted (literals before) {} after with ⟨more, spot, hafter, hcount, hlength⟩ | ⟨more, us, m, hafter, hlength⟩
  · have hmore : more.length ≤ after.length := by
      simp [Spot.owes, Spot.isEscaped] at hlength
      omega
    rw [hafter] at h
    rcases run_word_quoted (literals before ++ more) spot rest with ⟨more', spot', hrest, -⟩ | ⟨more', us, m, hrest, -⟩
    · rw [hrest, finish] at h
      split at h
      · simp only [wordTokens, List.nil_append, Bool.false_and, Bool.false_eq_true, if_false, List.cons.injEq,
          Token.word.injEq, List.append_assoc] at h
        exact hlost more more' hcount hmore (hwhole _ h.1)
      · simp at h
    · rw [hrest] at h
      simp only [List.nil_append, List.cons_append, List.cons.injEq, Token.word.injEq, List.append_assoc] at h
      exact hlost more more' hcount hmore (hwhole _ h.1)
  · rw [hafter] at h
    simp only [List.cons_append, List.cons.injEq, Token.word.injEq] at h
    have hlengths := congrArg List.length (hwhole more h.1)
    simp [literals, Spot.owes, Spot.isEscaped] at hlengths hlength
    omega

end QualityGate.Text.ShellWords
