import Mathlib
import QualityGate.Output.TypeCheck

/-! How output is divided. The pattern that wins matches the most lines, and is the
first of several that do. Each line it matches opens a block, which goes up to
the next one, and the indented lines of a block go on with its message. -/

namespace QualityGate.Output

open Text

/-! The pattern that wins. -/

section winner

/-- How many lines the pattern matches. -/
def matched (lines : List (List Char)) (p : Pattern) : Nat := lines.countP fun l => (p.matchPrefix? l).isSome

/-- The pattern matches a line, more lines than any pattern before it and no fewer than any after it. -/
def Wins (ps : List Pattern) (lines : List (List Char)) (p : Pattern) : Prop :=
  0 < matched lines p ∧ ∃ before after, ps = before ++ p :: after ∧
    (∀ q ∈ before, matched lines q < matched lines p) ∧ ∀ q ∈ after, matched lines q ≤ matched lines p

variable {ps : List Pattern} {p q : Pattern} {lines : List (List Char)}

theorem matchCount_matchLines (lines : List (List Char)) (p : Pattern) :
    matchCount (matchLines p lines) = matched lines p := by
  rw [matchCount, matchLines, List.countP_map]
  rfl

theorem matchCount_none (lines : List (List Char)) : matchCount (lines.map fun _ => none) = 0 := by
  simp [matchCount]

theorem matched_eq_zero_iff : matched lines p = 0 ↔ ∀ l ∈ lines, p.matchPrefix? l = none := by
  simp [matched, List.countP_eq_zero]

theorem matchLines_of_matched_eq_zero (h : matched lines p = 0) : matchLines p lines = lines.map fun _ => none :=
  List.map_congr_left (matched_eq_zero_iff.mp h)

namespace Wins

theorem mem (h : Wins ps lines p) : p ∈ ps := by
  obtain ⟨-, before, after, rfl, -, -⟩ := h
  simp

theorem le (h : Wins ps lines p) (hq : q ∈ ps) : matched lines q ≤ matched lines p := by
  obtain ⟨-, before, after, rfl, hbefore, hafter⟩ := h
  rcases List.mem_append.mp hq with hq | hq
  · exact (hbefore q hq).le
  · rcases List.mem_cons.mp hq with rfl | hq
    · exact le_rfl
    · exact hafter q hq

theorem snoc_of_le (h : Wins ps lines p) (hq : matched lines q ≤ matched lines p) : Wins (ps ++ [q]) lines p := by
  obtain ⟨hpos, before, after, rfl, hbefore, hafter⟩ := h
  refine ⟨hpos, before, after ++ [q], by simp, hbefore, ?_⟩
  exact List.forall_mem_append.mpr ⟨hafter, by simpa using hq⟩

theorem snoc (hpos : 0 < matched lines q) (h : ∀ p ∈ ps, matched lines p < matched lines q) : Wins (ps ++ [q]) lines q :=
  ⟨hpos, ps, [], rfl, h, nofun⟩

end Wins

theorem bestMatches_snoc (ps : List Pattern) (q : Pattern) (lines : List (List Char)) :
    bestMatches (ps ++ [q]) lines =
      if matchCount (bestMatches ps lines) < matched lines q then matchLines q lines else bestMatches ps lines := by
  rw [bestMatches, List.foldl_append, ← matchCount_matchLines]
  rfl

theorem bestMatches_cases (ps : List Pattern) (lines : List (List Char)) :
    ((∀ p ∈ ps, matched lines p = 0) ∧ bestMatches ps lines = lines.map fun _ => none) ∨
      ∃ p, Wins ps lines p ∧ bestMatches ps lines = matchLines p lines := by
  induction ps using List.reverseRecOn with
  | nil => exact .inl ⟨nofun, rfl⟩
  | append_singleton ps q ih =>
    rw [bestMatches_snoc]
    rcases ih with ⟨hzero, hbest⟩ | ⟨p, hp, hbest⟩
    · rw [hbest, matchCount_none]
      by_cases hq : 0 < matched lines q
      · refine .inr ⟨q, .snoc hq fun p hp => ?_, if_pos hq⟩
        rw [hzero p hp]
        exact hq
      · have hnone : matched lines q = 0 := by omega
        exact .inl ⟨List.forall_mem_append.mpr ⟨hzero, by simpa using hnone⟩, if_neg hq⟩
    · rw [hbest, matchCount_matchLines]
      by_cases hq : matched lines p < matched lines q
      · exact .inr ⟨q, .snoc (by omega) fun x hx => (hp.le hx).trans_lt hq, if_pos hq⟩
      · exact .inr ⟨p, hp.snoc_of_le (by omega), if_neg hq⟩

theorem bestMatches_eq_map (ps : List Pattern) (lines : List (List Char)) :
    ∃ f, bestMatches ps lines = lines.map f ∧ ((f = fun _ => none) ∨ ∃ p ∈ ps, f = p.matchPrefix?) := by
  rcases bestMatches_cases ps lines with ⟨-, hbest⟩ | ⟨p, hp, hbest⟩
  · exact ⟨_, hbest, .inl rfl⟩
  · exact ⟨_, hbest, .inr ⟨p, hp.mem, rfl⟩⟩

/-- A pattern that matches wherever another one does wins if it is tried first. -/
theorem bestMatches_eq_first
    (h : ∀ q ∈ ps, ∀ l ∈ lines, (q.matchPrefix? l).isSome = true → (p.matchPrefix? l).isSome = true) :
    bestMatches (p :: ps) lines = lines.map p.matchPrefix? := by
  have hle : ∀ q ∈ ps, matched lines q ≤ matched lines p := fun q hq => List.countP_mono_left (h q hq)
  rcases bestMatches_cases (p :: ps) lines with ⟨hzero, hbest⟩ | ⟨q, ⟨-, before, after, hsplit, hbefore, -⟩, hbest⟩
  · rw [hbest]
    exact (matchLines_of_matched_eq_zero (hzero p List.mem_cons_self)).symm
  · -- Nothing stands before the winner, as the first pattern would have to match fewer lines than it.
    cases before with
    | nil =>
      obtain ⟨rfl, -⟩ := List.cons.inj hsplit
      exact hbest
    | cons x before =>
      obtain ⟨rfl, hrest⟩ := List.cons.inj hsplit
      have hlt := hbefore p List.mem_cons_self
      have hq := hle q (by rw [hrest]; simp)
      omega

end winner

namespace TypeCheck

variable {f : List Char → Option Found} {l : List Char} {ls before : List (List Char)}

/-! Messages that go on. -/

/-- A line that begins with a space or a tab and is not blank. -/
structure Indented (l : List Char) : Prop where
  indented : ∃ c ∈ l.head?, c = ' ' ∨ c = '\t'
  visible : ∃ c ∈ l, isBlank c = false

theorem isContinuation_iff : isContinuation l = true ↔ Indented l := by
  have hvisible : (!isBlankLine l) = true ↔ ∃ c ∈ l, isBlank c = false := by simp [isBlankLine]
  rw [isContinuation.eq_def, Bool.and_eq_true, hvisible]
  constructor
  · rintro ⟨hhead, hl⟩
    cases l with
    | nil => cases hhead
    | cons c l => exact ⟨⟨c, rfl, by simpa using hhead⟩, hl⟩
  · rintro ⟨⟨c, hc, hindent⟩, hl⟩
    obtain ⟨t, rfl⟩ := List.head?_eq_some_iff.mp hc
    exact ⟨by simpa using hindent, hl⟩

instance (l : List Char) : Decidable (Indented l) := decidable_of_iff _ isContinuation_iff

/-- The lines that go on with a message, trimmed. -/
def details (ls : List (List Char)) : List (List Char) := (ls.filter fun l => Indented l).map trim

abbrev Gathered := List (List Char) × List (Found × List (List Char))

def collect (l : List Char × Option Found) (s : Gathered) : Gathered :=
  match l.2 with
  | some m => ([], (m, s.1) :: s.2)
  | none => (if isContinuation l.1 then trim l.1 :: s.1 else s.1, s.2)

theorem gather_eq (ls : List (List Char × Option Found)) : gather ls = (ls.foldr collect ([], [])).2 := rfl

theorem gather_map_fst (ls : List (List Char × Option Found)) : (gather ls).map Prod.fst = ls.filterMap Prod.snd := by
  rw [gather_eq]
  induction ls with
  | nil => rfl
  | cons l ls ih =>
    obtain ⟨l, _ | m⟩ := l
    · exact ih
    · exact congrArg (m :: ·) ih

theorem foldr_collect_continuation
    (hls : ∀ l ∈ ls, isContinuation l = true ∧ f l = none) (s : Gathered) :
    (ls.map fun l => (l, f l)).foldr collect s = (ls.map trim ++ s.1, s.2) := by
  induction ls with
  | nil => rfl
  | cons l ls ih =>
    obtain ⟨⟨hl, hnone⟩, hls⟩ := List.forall_mem_cons.mp hls
    rw [List.map_cons, List.foldr_cons, ih hls]
    simp [collect, hl, hnone]

/-! Blocks. -/

/-- A line that is matched, and the lines from there to the next one. -/
structure Block where
  heading : List Char
  found : Found
  rest : List (List Char)

def Block.lines (b : Block) : List (List Char) := b.heading :: b.rest

/-- No line is matched up to the first block, and of each block the heading and no other one is. -/
structure Divided (f : List Char → Option Found) (ls before : List (List Char)) (blocks : List Block) : Prop where
  lines_eq : ls = before ++ blocks.flatMap Block.lines
  before : ∀ l ∈ before, f l = none
  heading : ∀ b ∈ blocks, f b.heading = some b.found
  rest : ∀ b ∈ blocks, ∀ l ∈ b.rest, f l = none

namespace Divided

variable {blocks : List Block}

theorem nil (f : List Char → Option Found) : Divided f [] [] [] := ⟨rfl, nofun, nofun, nofun⟩

theorem cons_unmatched (h : Divided f ls before blocks) (hl : f l = none) : Divided f (l :: ls) (l :: before) blocks where
  lines_eq := congrArg (l :: ·) h.lines_eq
  before := List.forall_mem_cons.mpr ⟨hl, h.before⟩
  heading := h.heading
  rest := h.rest

/-- A line that is matched takes the lines up to the first block for its own. -/
theorem cons_matched (h : Divided f ls before blocks) {m : Found} (hl : f l = some m) :
    Divided f (l :: ls) [] (⟨l, m, before⟩ :: blocks) where
  lines_eq := congrArg (l :: ·) h.lines_eq
  before := nofun
  heading := List.forall_mem_cons.mpr ⟨hl, h.heading⟩
  rest := List.forall_mem_cons.mpr ⟨h.before, h.rest⟩

/-- There is a block for each line that is matched, in the order of the lines. -/
theorem founds_eq (h : Divided f ls before blocks) : blocks.map Block.found = ls.filterMap f := by
  have hbefore : before.filterMap f = [] := List.filterMap_eq_nil_iff.mpr h.before
  have hblock : ∀ b ∈ blocks, b.lines.filterMap f = [b.found] := by
    intro b hb
    rw [Block.lines, List.filterMap_cons_some (h.heading b hb), List.filterMap_eq_nil_iff.mpr (h.rest b hb)]
  rw [h.lines_eq, List.filterMap_append, hbefore, List.nil_append, List.filterMap_flatMap, List.flatMap_congr hblock,
    List.map_eq_flatMap]

theorem headings_sublist (h : Divided f ls before blocks) : (blocks.map Block.heading).Sublist ls := by
  have hheadings (bs : List Block) : (bs.map Block.heading).Sublist (bs.flatMap Block.lines) := by
    induction bs with
    | nil => exact .slnil
    | cons b bs ih => exact (ih.trans (List.sublist_append_right b.rest _)).cons_cons b.heading
  rw [h.lines_eq]
  exact (hheadings blocks).trans (List.sublist_append_right before _)

theorem countP_le (h : Divided f ls before blocks) {q : Block → Bool} {r : List Char → Bool}
    (hq : ∀ b ∈ blocks, q b = true → r b.heading = true) : blocks.countP q ≤ ls.countP r :=
  calc
    blocks.countP q ≤ blocks.countP (r ∘ Block.heading) := List.countP_mono_left hq
    _ = (blocks.map Block.heading).countP r := List.countP_map.symm
    _ ≤ ls.countP r := h.headings_sublist.countP_le

end Divided

theorem exists_divided (f : List Char → Option Found) (ls : List (List Char)) :
    ∃ before blocks, Divided f ls before blocks ∧
      (ls.map fun l => (l, f l)).foldr collect ([], []) =
        (details before, blocks.map fun b => (b.found, details b.rest)) := by
  -- The fold comes from the last line. What it has gathered by then belongs to the next line that is matched.
  induction ls with
  | nil => exact ⟨[], [], .nil f, rfl⟩
  | cons l ls ih =>
    obtain ⟨before, blocks, hdivided, hgather⟩ := ih
    rw [List.map_cons, List.foldr_cons, hgather]
    cases hl : f l with
    | some m => exact ⟨[], ⟨l, m, before⟩ :: blocks, hdivided.cons_matched hl, rfl⟩
    | none =>
      refine ⟨l :: before, blocks, hdivided.cons_unmatched hl, ?_⟩
      by_cases hindented : Indented l
      · simp [collect, details, isContinuation_iff, hindented]
      · simp [collect, details, isContinuation_iff, hindented]

theorem issues_eq {stdout stderr : String} (table : SeverityTable)
    (h : bestMatches patterns (combinedLines stdout stderr) = (combinedLines stdout stderr).map f) :
    issues table stdout stderr =
      (gather ((combinedLines stdout stderr).map fun l => (l, f l))).mapM fun g => toIssue table g.1 g.2 := by
  have hzip (ls : List (List Char)) : ls.zip (ls.map f) = ls.map fun l => (l, f l) := by
    simpa using List.zip_map' (f := id) (g := f) (l := ls)
  simp only [issues, h, hzip]

end TypeCheck

end QualityGate.Output
