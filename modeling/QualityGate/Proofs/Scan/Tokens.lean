import Mathlib
import QualityGate.Proofs.Scan.Nesting
import QualityGate.Proofs.Text.Lines

/-! The tokens of a source text. Each token is skipped as a whole wherever it may stand. -/

namespace QualityGate.Scan.Brackets

open Text

/-! What stands inside of a token. -/

/-- Text between quotes: nothing that ends it, unless a backslash stands before it. -/
inductive Quotable (quote : Char) : List Char → Prop where
  | nil : Quotable quote []
  | escape {s : List Char} (c : Char) (h : Quotable quote s) : Quotable quote ('\\' :: c :: s)
  | plain {c : Char} {s : List Char} (hc : c ∉ ['\\', '\n', quote]) (h : Quotable quote s) : Quotable quote (c :: s)

/-- Template text: no backtick, and no brace after a dollar sign, unless a backslash stands before it. -/
inductive TemplateText : List Char → Prop where
  | nil : TemplateText []
  | escape {s : List Char} (c : Char) (h : TemplateText s) : TemplateText ('\\' :: c :: s)
  | plain {c : Char} {s : List Char} (hc : c ∉ ['\\', '\x60']) (hbrace : c = '$' → s.head? ≠ some '\x7b')
    (h : TemplateText s) : TemplateText (c :: s)

/-- A regular expression, and whether it is inside of a class, where a slash does not end it. -/
inductive RegexText : Bool → List Char → Prop where
  | nil : RegexText false []
  | escape {inClass : Bool} {s : List Char} (c : Char) (h : RegexText inClass s) : RegexText inClass ('\\' :: c :: s)
  | plain {c : Char} {s : List Char} (hc : c ∉ ['\\', '\n', '/', '[']) (h : RegexText false s) : RegexText false (c :: s)
  | opening {s : List Char} (h : RegexText true s) : RegexText false ('[' :: s)
  | inside {c : Char} {s : List Char} (hc : c ∉ ['\\', '\n', ']']) (h : RegexText true s) : RegexText true (c :: s)
  | closing {s : List Char} (h : RegexText false s) : RegexText true (']' :: s)

section skip

variable {s rest flags : List Char} {quote : Char} {n : Nat} {inClass : Bool}

theorem stringRest_eq (h : Quotable quote s) (hquote : quote ≠ '\\') (rest : List Char) (n : Nat) :
    stringRest quote (s ++ quote :: rest) n = n + s.length + 1 := by
  induction h generalizing n with
  | nil =>
    rw [List.nil_append, stringRest]
    · simp
    · exact fun _ _ h => absurd h hquote
  | escape c _ ih =>
    rw [List.cons_append, List.cons_append, stringRest, ih]
    simp only [List.length_cons]
    omega
  | @plain c s hc _ ih =>
    obtain ⟨hslash, hfeed, hend⟩ : c ≠ '\\' ∧ c ≠ '\n' ∧ c ≠ quote := by simpa using hc
    rw [List.cons_append, stringRest]
    · simp only [beq_iff_eq, hend, hfeed, if_false, ih, List.length_cons]
      omega
    · exact fun _ _ h => absurd h hslash

theorem templateRest?_eq (h : TemplateText s) {c : Char} (hc : c = '\x60' ∨ c = '$') (rest : List Char) (n : Nat) :
    templateRest? (s ++ c :: rest) n = templateRest? (c :: rest) (n + s.length) := by
  induction h generalizing n with
  | nil => rfl
  | escape d _ ih =>
    rw [List.cons_append, List.cons_append, templateRest?, ih]
    congr 1
    simp only [List.length_cons]
    omega
  | @plain d s hd hbrace _ ih =>
    obtain ⟨hslash, htick⟩ : d ≠ '\\' ∧ d ≠ '\x60' := by simpa using hd
    rw [List.cons_append, templateRest?, ih]
    · congr 1
      simp only [List.length_cons]
      omega
    · exact fun _ _ h => absurd h hslash
    · exact fun h => absurd h htick
    · rintro r hdollar hs
      have hhead : (s ++ c :: rest).head? = some '\x7b' := by rw [hs]; rfl
      cases s with
      | nil =>
        obtain rfl : c = '\x7b' := Option.some.inj hhead
        simp at hc
      | cons e s => exact hbrace hdollar hhead

theorem regexRest?_cons {c : Char} (hc : c ∉ ['\\', '\n']) (hend : inClass = false → c ≠ '/') (r : List Char) (n : Nat) :
    regexRest? (c :: r) n inClass = regexRest? r (n + 1) (if inClass then c != ']' else c == '[') := by
  obtain ⟨hslash, hfeed⟩ : c ≠ '\\' ∧ c ≠ '\n' := by simpa using hc
  rw [regexRest?]
  · cases inClass
    · simp [hfeed, hend rfl]
    · simp [hfeed]
  · exact fun _ _ h => absurd h hslash

theorem regexRest?_eq (h : RegexText inClass s) (hflags : ∀ c ∈ flags, isLetter c = true)
    (hrest : ∀ c ∈ rest.head?, isLetter c = false) (n : Nat) :
    regexRest? (s ++ '/' :: (flags ++ rest)) n inClass = some (n + s.length + 1 + flags.length) := by
  induction h generalizing n with
  | nil =>
    rw [List.nil_append, regexRest?]
    · simp [takeWhile_run hflags hrest]
    · exact fun _ _ h => absurd h (by decide)
  | escape c _ ih =>
    rw [List.cons_append, List.cons_append, regexRest?, ih]
    simp only [List.length_cons, Option.some.injEq]
    omega
  | @plain c s hc _ ih =>
    obtain ⟨hslash, hfeed, hend, hclass⟩ : c ≠ '\\' ∧ c ≠ '\n' ∧ c ≠ '/' ∧ c ≠ '[' := by simpa using hc
    have hstays : (c == '[') = false := beq_eq_false_iff_ne.mpr hclass
    rw [List.cons_append, regexRest?_cons (by simp [hslash, hfeed]) fun _ => hend]
    simp only [Bool.false_eq_true, if_false, hstays, ih, List.length_cons, Option.some.injEq]
    omega
  | opening _ ih =>
    rw [List.cons_append, regexRest?_cons (by simp) (by simp)]
    simp only [Bool.false_eq_true, if_false, beq_self_eq_true, ih, List.length_cons, Option.some.injEq]
    omega
  | @inside c s hc _ ih =>
    obtain ⟨hslash, hfeed, hclass⟩ : c ≠ '\\' ∧ c ≠ '\n' ∧ c ≠ ']' := by simpa using hc
    have hstays : (c != ']') = true := bne_iff_ne.mpr hclass
    rw [List.cons_append, regexRest?_cons (by simp [hslash, hfeed]) (by simp)]
    simp only [if_true, hstays, ih, List.length_cons, Option.some.injEq]
    omega
  | closing _ ih =>
    rw [List.cons_append, regexRest?_cons (by simp) (by simp)]
    simp only [if_true, bne_self_eq_false, ih, List.length_cons, Option.some.injEq]
    omega

theorem blockRest?_eq (h : ¬ ['*', '/'] <:+: s) (rest : List Char) (n : Nat) :
    blockRest? (s ++ '*' :: '/' :: rest) n = some (n + s.length + 2) := by
  induction s generalizing n with
  | nil => rfl
  | cons c s ih =>
    obtain ⟨hstart, hs⟩ := not_or.mp (mt List.infix_cons_iff.mpr h)
    rw [List.cons_append, blockRest?, ih hs]
    · simp only [List.length_cons, Option.some.injEq]
      omega
    · rintro r rfl hr
      refine hstart ?_
      cases s with
      | nil => cases hr
      | cons d s =>
        obtain ⟨rfl, -⟩ := List.cons.inj hr
        exact ⟨s, rfl⟩

theorem lineRest_eq (h : '\n' ∉ s) (hrest : ∀ c ∈ rest.head?, c = '\n') : lineRest (s ++ rest) = s.length := by
  rw [lineRest, takeWhile_run]
  · exact fun c hc => bne_iff_ne.mpr (ne_of_mem_of_not_mem hc h)
  · intro c hc
    simp [hrest c hc]

end skip

/-! Source texts. -/

mutual

/-- A source text, token by token. -/
inductive Code where
  | nil
  | cons (t : Token) (rest : Code)

inductive Token where
  | blank (c : Char)
  | word (c : Char) (w : List Char)
  /-- A digit, or another character of no further meaning. -/
  | mark (c : Char)
  | division
  | bracket (c : Char)
  | string (quote : Char) (s : List Char)
  | line (s : List Char)
  | block (s : List Char)
  | regex (s flags : List Char)
  | template (t : Template)

/-- What follows the backtick that opens a template: text, expressions and the text after each of them. -/
inductive Template where
  | last (s : List Char)
  | part (s : List Char) (inner : Code) (rest : Template)

end

mutual

def Code.text : Code → List Char
  | .nil => []
  | .cons t rest => t.text ++ rest.text

def Token.text : Token → List Char
  | .blank c | .mark c | .bracket c => [c]
  | .word c w => c :: w
  | .division => ['/']
  | .string quote s => quote :: (s ++ [quote])
  | .line s => '/' :: '/' :: s
  | .block s => '/' :: '*' :: (s ++ ['*', '/'])
  | .regex s flags => '/' :: (s ++ '/' :: flags)
  | .template t => '\x60' :: t.text

def Template.text : Template → List Char
  | .last s => s ++ ['\x60']
  | .part s inner rest => s ++ '$' :: '\x7b' :: (inner.text ++ '\x7d' :: rest.text)

end

/-- The brackets of a text outside of all other tokens. -/
def Token.brackets : Token → List Char
  | .bracket c => [c]
  | _ => []

def Code.brackets : Code → List Char
  | .nil => []
  | .cons t rest => t.brackets ++ rest.brackets

/-- The brackets with their places, where the text begins at `index`. -/
def Code.bracketsAt (index : Nat) : Code → List (Char × Nat)
  | .nil => []
  | .cons t rest => t.brackets.map (·, index) ++ rest.bracketsAt (index + t.text.length)

/-- The last token before what follows; blanks and comments do not count. -/
def Token.leaves (last : Last) : Token → Last
  | .blank _ | .line _ | .block _ => last
  | .word c w => .word (c :: w)
  | .mark c | .bracket c => afterSymbol c
  | .division => afterSymbol '/'
  | .string _ _ | .regex _ _ | .template _ => .value

def Code.leaves (last : Last) : Code → Last
  | .nil => last
  | .cons t rest => rest.leaves (t.leaves last)

mutual

/-- Whether tokens may stand where they do: after the character `before` and the token `last`, and before `next`. -/
def Code.Fits (before : Option Char) (last : Last) (next : Option Char) : Code → Prop
  | .nil => True
  | .cons t rest => t.Fits before last (rest.text.head?.or next) ∧ rest.Fits t.text.getLast? (t.leaves last) next

def Token.Fits (before : Option Char) (last : Last) (next : Option Char) : Token → Prop
  | .blank c => isBlank c = true
  | .word c w => startsWord c = true ∧ (∀ x ∈ w, continuesWord x = true) ∧ ∀ x ∈ next, continuesWord x = false
  | .mark c => isBlank c = false ∧ startsWord c = false ∧ ¬ IsBracket c ∧ c ∉ ['/', '"', '\'', '\x60']
  | .division => last.precedesRegex = false ∧ next ≠ some '/' ∧ next ≠ some '*'
  | .bracket c => IsBracket c
  | .string quote s => (quote = '"' ∨ quote = '\'' ∧ before.any isAlphanumeric = false) ∧ Quotable quote s
  | .line s => '\n' ∉ s ∧ ∀ c ∈ next, c = '\n'
  | .block s => ¬ ['*', '/'] <:+: s
  | .regex s flags => last.precedesRegex = true ∧ RegexText false s ∧ s ≠ [] ∧ s.head? ≠ some '*' ∧
      (∀ c ∈ flags, isLetter c = true) ∧ ∀ c ∈ next, isLetter c = false
  | .template t => t.Fits

/-- The brackets of every expression in a template are properly nested. -/
def Template.Fits : Template → Prop
  | .last s => TemplateText s
  | .part s inner rest =>
    TemplateText s ∧ inner.Fits (some '\x7b') (.symbol '\x7b') (some '\x7d') ∧ Nested inner.brackets ∧ rest.Fits

end

theorem Code.map_bracketsAt (index : Nat) : ∀ s : Code, (s.bracketsAt index).map Prod.fst = s.brackets
  | .nil => rfl
  | .cons t rest => by
    rw [Code.bracketsAt, Code.brackets, List.map_append, List.map_map, map_bracketsAt _ rest]
    exact congrArg (· ++ rest.brackets) (List.map_id t.brackets)

theorem Token.Fits.isBracket {before next : Option Char} {last : Last} {t : Token} (h : t.Fits before last next) :
    ∀ c ∈ t.brackets, IsBracket c := by
  intro c hc
  cases t with
  | bracket d =>
    obtain rfl := List.mem_singleton.mp hc
    exact h
  | _ => cases hc

theorem Code.Fits.cons {before : Option Char} {last : Last} {t : Token} {s : Code} {rest : List Char}
    (h : (Code.cons t s).Fits before last rest.head?) :
    t.Fits before last (s.text ++ rest).head? ∧ s.Fits t.text.getLast? (t.leaves last) rest.head? := by
  rw [List.head?_append]
  exact h

theorem Code.Fits.isBracket {next : Option Char} :
    ∀ {s : Code} {before : Option Char} {last : Last} (index : Nat), s.Fits before last next →
      ∀ b ∈ s.bracketsAt index, IsBracket b.1
  | .nil, _, _, _, _ => by simp [Code.bracketsAt]
  | .cons t rest, before, last, index, h => by
    obtain ⟨ht, hrest⟩ := h
    intro b hb
    rcases List.mem_append.mp hb with hb | hb
    · obtain ⟨c, hc, rfl⟩ := List.mem_map.mp hb
      exact ht.isBracket c hc
    · exact hrest.isBracket _ b hb

theorem Template.getLast?_text : ∀ t : Template, t.text.getLast? = some '\x60'
  | .last s => by rw [Template.text, List.getLast?_concat]
  | .part s inner rest => by
    have hsplit : (Template.part s inner rest).text = s ++ '$' :: '\x7b' :: (inner.text ++ ['\x7d']) ++ rest.text := by
      simp [Template.text]
    rw [hsplit, List.getLast?_append, getLast?_text rest, Option.some_or]

theorem Token.exists_getLast? (t : Token) : ∃ c, t.text.getLast? = some c := by
  cases t <;> rw [Token.text, List.getLast?_cons] <;> exact ⟨_, rfl⟩

end QualityGate.Scan.Brackets
