import Mathlib
import QualityGate.Scan.Brackets

/-! Brackets one after another. The stack holds the brackets that are open, and what is said of the first bracket that
does not fit is what the brackets before it leave open. -/

namespace QualityGate.Scan.Brackets

open Text

/-! Properly nested brackets. -/

def pairs : List (Char × Char) := [('(', ')'), ('[', ']'), ('\x7b', '\x7d')]

inductive Nested : List Char → Prop where
  | nil : Nested []
  | pair {o c : Char} {inner rest : List Char} (h : (o, c) ∈ pairs) (hinner : Nested inner) (hrest : Nested rest) :
    Nested (o :: (inner ++ c :: rest))

theorem Nested.append {s t : List Char} (hs : Nested s) (ht : Nested t) : Nested (s ++ t) := by
  induction hs with
  | nil => exact ht
  | @pair o c inner rest h hinner _ _ ih =>
    rw [List.cons_append, List.append_assoc, List.cons_append]
    exact .pair h hinner ih

/-- The brackets that a text leaves open, the innermost first, where every closer has its opener. -/
inductive Open : List (Char × Nat) → Stack → Prop where
  | nested {bs : List (Char × Nat)} (h : Nested (bs.map Prod.fst)) : Open bs []
  | opener {bs inner : List (Char × Nat)} {st : Stack} {c : Char} {o : Opener} {index : Nat} (h : Open bs st)
    (ho : opener? c = some o) (hinner : Nested (inner.map Prod.fst)) : Open (bs ++ (c, index) :: inner) ((o, index) :: st)

/-- The first bracket that does not fit, or the innermost one that stays open. -/
inductive Fault (text : List Char) : List (Char × Nat) → Imbalance → Prop where
  | unexpected {bs : List (Char × Nat)} {c : Char} {o : Opener} {index : Nat} (h : Open bs []) (hc : closes? c = some o)
    (rest : List (Char × Nat)) : Fault text (bs ++ (c, index) :: rest) ⟨index, .unexpected c⟩
  | mismatch {bs : List (Char × Nat)} {st : Stack} {c : Char} {o top : Opener} {index openedAt : Nat}
    (h : Open bs ((top, openedAt) :: st)) (hc : closes? c = some o) (hne : top ≠ o) (rest : List (Char × Nat)) :
    Fault text (bs ++ (c, index) :: rest) ⟨index, .mismatch c top (lineOf text openedAt)⟩
  | unclosed {bs : List (Char × Nat)} {st : Stack} {o : Opener} {openedAt : Nat} (h : Open bs ((o, openedAt) :: st)) :
    Fault text bs ⟨openedAt, .unclosed o⟩

/-! The stack. -/

/-- What the brackets of a text make of a stack. -/
def settle (text : List Char) : List (Char × Nat) → Stack → Except Imbalance Stack
  | [], st => .ok st
  | (c, index) :: bs, st =>
    match symbol text c index st with
    | .fault f => .error f
    | .next st _ _ => settle text bs st

/-- What a character that is no word leaves behind. -/
def afterSymbol (c : Char) : Last := if isDigit c then .value else .symbol c

def IsBracket (c : Char) : Prop := (∃ o, opener? c = some o) ∨ ∃ o, closes? c = some o

section symbol

variable {text : List Char} {c c' : Char} {o top : Opener} {index openedAt : Nat} {st : Stack}

theorem opener?_eq_some_iff :
    opener? c = some o ↔ (c = '(' ∧ o = .paren) ∨ (c = '[' ∧ o = .bracket) ∨ (c = '\x7b' ∧ o = .brace) := by
  unfold opener?
  split <;> simp_all [eq_comm]

theorem closes?_eq_some_iff :
    closes? c = some o ↔ (c = ')' ∧ o = .paren) ∨ (c = ']' ∧ o = .bracket) ∨ (c = '\x7d' ∧ o = .brace) := by
  unfold closes?
  split <;> simp_all [eq_comm]

theorem opener?_of_closes (h : closes? c = some o) : opener? c = none := by
  rcases closes?_eq_some_iff.mp h with ⟨rfl, -⟩ | ⟨rfl, -⟩ | ⟨rfl, -⟩ <;> rfl

theorem ne_expression_of_opener (h : opener? c = some o) : o ≠ .expression := by
  rcases opener?_eq_some_iff.mp h with ⟨-, rfl⟩ | ⟨-, rfl⟩ | ⟨-, rfl⟩ <;> decide

theorem mem_pairs_iff : (c, c') ∈ pairs ↔ ∃ o, opener? c = some o ∧ closes? c' = some o := by
  simp only [opener?_eq_some_iff, closes?_eq_some_iff, pairs, List.mem_cons, List.not_mem_nil, Prod.mk.injEq, or_false]
  constructor
  · rintro (⟨rfl, rfl⟩ | ⟨rfl, rfl⟩ | ⟨rfl, rfl⟩) <;> simp
  · rintro ⟨o, (⟨rfl, rfl⟩ | ⟨rfl, rfl⟩ | ⟨rfl, rfl⟩), h⟩ <;> simpa using h

theorem symbol_eq :
    symbol text c index st =
      match opener? c, closes? c, st with
      | some o, _, _ => .next ((o, index) :: st) (afterSymbol c) 0
      | none, none, _ => .next st (afterSymbol c) 0
      | none, some _, [] => .fault ⟨index, .unexpected c⟩
      | none, some o, (top, openedAt) :: below =>
        if top = o then .next below (afterSymbol c) 0 else .fault ⟨index, .mismatch c top (lineOf text openedAt)⟩ := rfl

theorem symbol_opener (h : opener? c = some o) :
    symbol text c index st = .next ((o, index) :: st) (afterSymbol c) 0 := by
  rw [symbol_eq, h]

theorem symbol_mark (ho : opener? c = none) (hc : closes? c = none) :
    symbol text c index st = .next st (afterSymbol c) 0 := by
  rw [symbol_eq, ho, hc]

theorem symbol_closer (h : closes? c = some o) :
    symbol text c index st =
      match st with
      | [] => .fault ⟨index, .unexpected c⟩
      | (top, openedAt) :: below =>
        if top = o then .next below (afterSymbol c) 0 else .fault ⟨index, .mismatch c top (lineOf text openedAt)⟩ := by
  rw [symbol_eq, opener?_of_closes h, h]
  cases st <;> rfl

theorem symbol_unexpected (h : closes? c = some o) :
    symbol text c index [] = .fault ⟨index, .unexpected c⟩ := symbol_closer h

theorem symbol_match (h : closes? c = some o) :
    symbol text c index ((o, openedAt) :: st) = .next st (afterSymbol c) 0 :=
  (symbol_closer h).trans (if_pos rfl)

theorem symbol_mismatch (h : closes? c = some o) (hne : top ≠ o) :
    symbol text c index ((top, openedAt) :: st) = .fault ⟨index, .mismatch c top (lineOf text openedAt)⟩ :=
  (symbol_closer h).trans (if_neg hne)

end symbol

section settle

variable {text : List Char} {c : Char} {o top : Opener} {index openedAt : Nat} {bs front inner rest : List (Char × Nat)}
  {st st' : Stack} {f : Imbalance}

theorem settle_of_next {last : Last} {n : Nat} (h : symbol text c index st = .next st' last n) :
    settle text ((c, index) :: bs) st = settle text bs st' := by
  rw [settle, h]

theorem settle_of_fault (h : symbol text c index st = .fault f) : settle text ((c, index) :: bs) st = .error f := by
  rw [settle, h]

theorem settle_opener (h : opener? c = some o) :
    settle text ((c, index) :: bs) st = settle text bs ((o, index) :: st) := settle_of_next (symbol_opener h)

theorem settle_match (h : closes? c = some o) :
    settle text ((c, index) :: bs) ((o, openedAt) :: st) = settle text bs st := settle_of_next (symbol_match h)

theorem settle_unexpected (h : closes? c = some o) :
    settle text ((c, index) :: bs) [] = .error ⟨index, .unexpected c⟩ := settle_of_fault (symbol_unexpected h)

theorem settle_mismatch (h : closes? c = some o) (hne : top ≠ o) :
    settle text ((c, index) :: bs) ((top, openedAt) :: st) =
      .error ⟨index, .mismatch c top (lineOf text openedAt)⟩ := settle_of_fault (symbol_mismatch h hne)

/-- A bracket that fits opens one more, or closes the innermost open one. -/
theorem settle_ok_cases (hc : IsBracket c) (h : settle text ((c, index) :: bs) st = .ok st') :
    (∃ o, opener? c = some o ∧ settle text bs ((o, index) :: st) = .ok st') ∨
      ∃ o openedAt below, closes? c = some o ∧ st = (o, openedAt) :: below ∧ settle text bs below = .ok st' := by
  rcases hc with ⟨o, ho⟩ | ⟨o, hc⟩
  · rw [settle_opener ho] at h
    exact .inl ⟨o, ho, h⟩
  · cases st with
    | nil =>
      rw [settle_unexpected hc] at h
      cases h
    | cons e below =>
      obtain ⟨top, openedAt⟩ := e
      by_cases htop : top = o
      · subst htop
        rw [settle_match hc] at h
        exact .inr ⟨top, openedAt, below, hc, rfl, h⟩
      · rw [settle_mismatch hc htop] at h
        cases h

theorem settle_append (bs rest : List (Char × Nat)) (st : Stack) :
    settle text (bs ++ rest) st =
      match settle text bs st with
      | .error f => .error f
      | .ok st' => settle text rest st' := by
  induction bs generalizing st with
  | nil => rfl
  | cons b bs ih =>
    obtain ⟨c, index⟩ := b
    rw [List.cons_append]
    cases hs : symbol text c index st with
    | fault f => rw [settle_of_fault hs, settle_of_fault hs]
    | next st' last n =>
      rw [settle_of_next hs, settle_of_next hs]
      exact ih st'

/-- What is properly nested leaves the stack as it is. -/
theorem settle_nested (h : Nested (inner.map Prod.fst)) (rest : List (Char × Nat)) (st : Stack) :
    settle text (inner ++ rest) st = settle text rest st := by
  generalize hcs : inner.map Prod.fst = cs at h
  induction h generalizing inner rest st with
  | nil =>
    obtain rfl := List.map_eq_nil_iff.mp hcs
    rfl
  | @pair o' c' s t hpair _ _ ihs iht =>
    obtain ⟨⟨o, i⟩, tail, rfl, rfl, htail⟩ := List.map_eq_cons_iff.mp hcs
    obtain ⟨s', t', rfl, rfl, ht'⟩ := List.map_eq_append_iff.mp htail
    obtain ⟨⟨c, j⟩, t', rfl, rfl, rfl⟩ := List.map_eq_cons_iff.mp ht'
    obtain ⟨k, ho, hc⟩ := mem_pairs_iff.mp hpair
    rw [List.cons_append, List.append_assoc, List.cons_append, settle_opener ho, ihs _ _ rfl, settle_match hc, iht _ _ rfl]

theorem settle_of_nested (h : Nested (bs.map Prod.fst)) (st : Stack) : settle text bs st = .ok st := by
  have hsettle : settle text (bs ++ []) st = settle text [] st := settle_nested h [] st
  rwa [List.append_nil] at hsettle

theorem settle_of_open (h : Open bs st) (rest : List (Char × Nat)) : settle text (bs ++ rest) [] = settle text rest st := by
  induction h generalizing rest with
  | nested h => exact settle_nested h rest []
  | opener _ ho hinner ih => rw [List.append_assoc, ih, List.cons_append, settle_opener ho, settle_nested hinner]

theorem Open.append_nested (h : Open bs st) (hinner : Nested (inner.map Prod.fst)) : Open (bs ++ inner) st := by
  cases h with
  | nested h => exact .nested (by rw [List.map_append]; exact h.append hinner)
  | opener h ho hown =>
    rw [List.append_assoc, List.cons_append]
    exact .opener h ho (by rw [List.map_append]; exact hown.append hinner)

theorem Open.close (h : Open bs ((o, openedAt) :: st)) (hc : closes? c = some o) : Open (bs ++ [(c, index)]) st := by
  cases h with
  | @opener bs inner _ c' _ _ h ho hinner =>
    rw [List.append_assoc, List.cons_append]
    refine h.append_nested ?_
    simpa using Nested.pair (mem_pairs_iff.mpr ⟨o, ho, hc⟩) hinner .nil

/-- A bracket that fits leaves open what the stack says, and of one that does not fit the fault says so. -/
theorem settle_step (h : Open front st) (hc : IsBracket c) (index : Nat) :
    (∃ st', Open (front ++ [(c, index)]) st' ∧ ∀ bs, settle text ((c, index) :: bs) st = settle text bs st') ∨
      ∃ f, (∀ bs, Fault text (front ++ (c, index) :: bs) f) ∧ ∀ bs, settle text ((c, index) :: bs) st = .error f := by
  rcases hc with ⟨o, ho⟩ | ⟨o, hc⟩
  · exact .inl ⟨_, .opener h ho .nil, fun _ => settle_opener ho⟩
  · cases st with
    | nil => exact .inr ⟨_, fun bs => .unexpected h hc bs, fun _ => settle_unexpected hc⟩
    | cons e st =>
      obtain ⟨top, openedAt⟩ := e
      by_cases htop : top = o
      · subst htop
        exact .inl ⟨st, h.close hc, fun _ => settle_match hc⟩
      · exact .inr ⟨_, fun bs => .mismatch h hc htop bs, fun _ => settle_mismatch hc htop⟩

theorem settle_cases (h : Open front st) (hbs : ∀ b ∈ bs, IsBracket b.1) :
    (∃ st', settle text bs st = .ok st' ∧ Open (front ++ bs) st') ∨
      ∃ f, settle text bs st = .error f ∧ Fault text (front ++ bs) f := by
  induction bs generalizing front st with
  | nil => exact .inl ⟨st, rfl, by rwa [List.append_nil]⟩
  | cons b bs ih =>
    obtain ⟨c, index⟩ := b
    obtain ⟨hc, hbs⟩ := List.forall_mem_cons.mp hbs
    rcases @settle_step text _ _ _ h hc index with ⟨st', hopen, hsettle⟩ | ⟨f, hfault, hsettle⟩
    · rw [hsettle, List.append_cons]
      exact ih hopen hbs
    · exact .inr ⟨f, hsettle bs, hfault bs⟩

end settle

/-! The verdict. -/

/-- The first bracket that does not fit, or what stays open. -/
def verdict (text : List Char) (bs : List (Char × Nat)) : Option Imbalance :=
  match settle text bs [] with
  | .error f => some f
  | .ok st => unclosed? st

section verdict

variable {text : List Char} {bs : List (Char × Nat)} {st : Stack} {f : Imbalance}

theorem Open.ne_expression (h : Open bs st) : ∀ e ∈ st, e.1 ≠ .expression := by
  induction h with
  | nested => simp
  | opener _ ho _ ih => exact List.forall_mem_cons.mpr ⟨ne_expression_of_opener ho, ih⟩

theorem verdict_of_open (h : Open bs st) : verdict text bs = unclosed? st := by
  have hsettle : settle text (bs ++ []) [] = settle text [] st := settle_of_open h []
  rw [List.append_nil] at hsettle
  rw [verdict, hsettle, settle]

theorem unclosed?_cons {o : Opener} (ho : o ≠ .expression) (openedAt : Nat) (st : Stack) :
    unclosed? ((o, openedAt) :: st) = some ⟨openedAt, .unclosed o⟩ := by
  cases o <;> first | rfl | exact absurd rfl ho

theorem verdict_of_fault (h : Fault text bs f) : verdict text bs = some f := by
  cases h with
  | unexpected h hc => rw [verdict, settle_of_open h, settle_unexpected hc]
  | mismatch h hc hne => rw [verdict, settle_of_open h, settle_mismatch hc hne]
  | unclosed h => rw [verdict_of_open h, unclosed?_cons (h.ne_expression _ List.mem_cons_self)]

theorem nested_or_fault (text : List Char) (hbs : ∀ b ∈ bs, IsBracket b.1) :
    Nested (bs.map Prod.fst) ∨ ∃ f, Fault text bs f := by
  have hnone : Open [] [] := .nested .nil
  rcases @settle_cases text bs [] [] hnone hbs with ⟨st, -, hopen⟩ | ⟨f, -, hfault⟩
  · cases hopen with
    | nested h => exact .inl h
    | opener h ho hinner => exact .inr ⟨_, .unclosed (.opener h ho hinner)⟩
  · exact .inr ⟨f, hfault⟩

theorem verdict_eq_none_iff (hbs : ∀ b ∈ bs, IsBracket b.1) : verdict text bs = none ↔ Nested (bs.map Prod.fst) := by
  refine ⟨fun h => (nested_or_fault text hbs).resolve_right fun ⟨f, hf⟩ => ?_, fun h => verdict_of_open (.nested h)⟩
  rw [verdict_of_fault hf] at h
  cases h

theorem verdict_eq_some_iff (hbs : ∀ b ∈ bs, IsBracket b.1) : verdict text bs = some f ↔ Fault text bs f := by
  refine ⟨fun h => ?_, verdict_of_fault⟩
  rcases nested_or_fault text hbs with hnested | ⟨g, hg⟩
  · rw [(verdict_eq_none_iff hbs).mpr hnested] at h
    cases h
  · rw [verdict_of_fault hg] at h
    rwa [← Option.some.inj h]

end verdict

end QualityGate.Scan.Brackets
