import Mathlib
import QualityGate.Policy.Verdict
import QualityGate.Scan.Directives
import QualityGate.Proofs.Text.Lines
import QualityGate.Proofs.Text.Matching

/-! Comments that disable all lint rules. The rule list of a directive reaches to the end of its line, also beyond the
comment that it stands in, so that what follows the comment decides whether it counts as one that disables them all. -/

namespace QualityGate.Scan

open Text Text.Pattern

/-! The parts of a directive. -/

def directiveNames : List String := ["eslint-disable", "eslint-disable-next-line", "eslint-disable-line"]

def continuesName (c : Char) : Bool := isWordChar c || c == '-'

def opensComment (c : Char) : Bool := c == '/' || c == '*'

/-- A directive with what follows it on its line. -/
structure DirectiveParts where
  lead : List Char
  gap : List Char
  name : List Char
  rules : List Char

namespace DirectiveParts

variable {p q : DirectiveParts}

def text (p : DirectiveParts) : List Char := p.lead ++ (p.gap ++ (p.name ++ p.rules))

/-- A slash with more slashes or with stars after it. -/
def IsLead (t : List Char) : Prop :=
  ∃ run, t = '/' :: run ∧ run ≠ [] ∧ ((∀ c ∈ run, c = '/') ∨ ∀ c ∈ run, c = '*')

structure Fits (p : DirectiveParts) : Prop where
  lead : IsLead p.lead
  gap : ∀ c ∈ p.gap, isBlank c = true
  name : ∃ d ∈ directiveNames, p.name = d.toList
  edge : p.rules.head?.any continuesName = false

def captures (p : DirectiveParts) : List (String × List Char) := [("rules", p.rules), ("directive", p.name)]

theorem IsLead.opens {t : List Char} (h : IsLead t) : ∀ c ∈ t, opensComment c = true := by
  obtain ⟨run, rfl, -, hrun | hrun⟩ := h
  · exact List.forall_mem_cons.mpr ⟨rfl, fun c hc => by rw [hrun c hc]; rfl⟩
  · exact List.forall_mem_cons.mpr ⟨rfl, fun c hc => by rw [hrun c hc]; rfl⟩

theorem continuesName_of_name {d : String} (hd : d ∈ directiveNames) : ∀ c ∈ d.toList, continuesName c = true := by
  simp only [directiveNames, List.mem_cons, List.not_mem_nil, or_false] at hd
  rcases hd with rfl | rfl | rfl <;> simp [continuesName, isWordChar, isAlphanumeric]

theorem Fits.name_eq_cons (hp : p.Fits) : ∃ t, p.name = 'e' :: t := by
  obtain ⟨d, hd, hname⟩ := hp.name
  simp only [directiveNames, List.mem_cons, List.not_mem_nil, or_false] at hd
  rw [hname]
  rcases hd with rfl | rfl | rfl <;> exact ⟨_, rfl⟩

theorem Fits.opens_gap (hp : p.Fits) : ∀ c ∈ (p.gap ++ (p.name ++ p.rules)).head?, opensComment c = false := by
  intro c hc
  obtain ⟨t, hname⟩ := hp.name_eq_cons
  cases hgap : p.gap with
  | nil =>
    rw [hgap, hname] at hc
    obtain rfl : 'e' = c := by simpa using hc
    rfl
  | cons b g =>
    rw [hgap] at hc
    obtain rfl : b = c := by simpa using hc
    have hblank : isBlank b = true := hp.gap b (by rw [hgap]; exact List.mem_cons_self)
    refine Bool.eq_false_iff.mpr fun hopens => ?_
    obtain rfl | rfl : b = '/' ∨ b = '*' := by simpa [opensComment] using hopens
    · exact absurd hblank (by decide)
    · exact absurd hblank (by decide)

theorem Fits.blank_name (hp : p.Fits) : ∀ c ∈ (p.name ++ p.rules).head?, isBlank c = false := by
  obtain ⟨t, hname⟩ := hp.name_eq_cons
  rw [hname]
  simp
  decide

theorem Fits.edge' (hp : p.Fits) : ∀ c ∈ p.rules.head?, continuesName c = false := by
  intro c hc
  have hedge := hp.edge
  rw [Option.mem_def.mp hc] at hedge
  exact hedge

theorem Fits.continues (hp : p.Fits) : ∀ c ∈ p.name, continuesName c = true := by
  obtain ⟨d, hd, hname⟩ := hp.name
  rw [hname]
  exact continuesName_of_name hd

/-- A text is a directive in one way. -/
theorem Fits.eq_of_text (hp : p.Fits) (hq : q.Fits) (h : p.text = q.text) : p = q := by
  obtain ⟨hlead, h⟩ := run_append_inj hp.lead.opens hq.lead.opens hp.opens_gap hq.opens_gap h
  obtain ⟨hgap, h⟩ := run_append_inj hp.gap hq.gap hp.blank_name hq.blank_name h
  obtain ⟨hname, hrules⟩ := run_append_inj hp.continues hq.continues hp.edge' hq.edge' h
  cases p
  cases q
  simp_all

end DirectiveParts

/-! What the pattern of a directive finds. -/

section pattern

variable {s : Cursor} {w r l : List Char} {cs : List (String × List Char)} {m : Found} {p : DirectiveParts}

def directiveHead : List Pattern :=
  [commentStart, blanks 0,
    capture "directive" (ofList [word "eslint-disable", Pattern.optional (words ["-next-line", "-line"])]),
    notAhead fun c => isWordChar c || c == '-']

theorem linterDirective_eq :
    linterDirective = ofList (directiveHead ++ [capture "rules" (many anyChar 0)]) := rfl

theorem reads_commentStart : commentStart.Reads s w r cs ↔ DirectiveParts.IsLead w ∧ cs = [] := by
  have hne {t : List Char} : 1 ≤ t.length ↔ t ≠ [] := List.length_pos_iff
  simp only [commentStart, slashes, slashStars, reads_orElse, reads_ofList_cons, reads_ofList_nil, reads_char,
    reads_many, beq_iff_eq, ↓existsAndEq, and_assoc, true_and, and_true, List.append_nil, List.singleton_append,
    List.nil_append, DirectiveParts.IsLead, hne]
  constructor
  · rintro (⟨v, rfl, rfl, hv, hall⟩ | ⟨v, rfl, rfl, hv, hall⟩)
    · exact ⟨⟨v, rfl, hv, .inl hall⟩, rfl⟩
    · exact ⟨⟨v, rfl, hv, .inr hall⟩, rfl⟩
  · rintro ⟨⟨v, rfl, hv, hall | hall⟩, rfl⟩
    · exact .inl ⟨v, rfl, rfl, hv, hall⟩
    · exact .inr ⟨v, rfl, rfl, hv, hall⟩

theorem reads_directiveHead :
    (ofList directiveHead).Reads s w r cs ↔
      ∃ lead gap name, w = lead ++ (gap ++ name) ∧ cs = [("directive", name)] ∧
        (DirectiveParts.mk lead gap name r).Fits := by
  simp only [directiveHead, reads_ofList_cons, reads_ofList_nil, reads_commentStart, reads_blanks, reads_word, reads_words,
    reads_optional, reads_capture, reads_notAhead, ↓existsAndEq, and_assoc, true_and, and_true, List.append_nil,
    List.nil_append, Nat.zero_le]
  constructor
  · rintro ⟨lead, gap, cu, ending, rfl, rfl, hlead, hgap, hending, hedge⟩
    obtain ⟨rfl, hname⟩ : cu = [] ∧ ∃ d ∈ directiveNames, "eslint-disable".toList ++ ending = d.toList := by
      rcases hending with ⟨t, ht, rfl, rfl⟩ | ⟨rfl, rfl⟩
      · simp only [List.mem_cons, List.not_mem_nil, or_false] at ht
        rcases ht with rfl | rfl
        · exact ⟨rfl, "eslint-disable-next-line", by simp [directiveNames], rfl⟩
        · exact ⟨rfl, "eslint-disable-line", by simp [directiveNames], rfl⟩
      · exact ⟨rfl, "eslint-disable", by simp [directiveNames], rfl⟩
    exact ⟨lead, gap, _, rfl, rfl, hlead, hgap, hname, hedge⟩
  · rintro ⟨lead, gap, name, rfl, rfl, hlead, hgap, ⟨d, hd, hname⟩, hedge⟩
    obtain rfl : name = d.toList := hname
    simp only [directiveNames, List.mem_cons, List.not_mem_nil, or_false] at hd
    rcases hd with rfl | rfl | rfl
    · exact ⟨lead, gap, [], [], by simp, by simp, hlead, hgap, .inr ⟨rfl, rfl⟩, hedge⟩
    · exact ⟨lead, gap, [], "-next-line".toList, rfl, rfl, hlead, hgap, .inl ⟨"-next-line", by simp, rfl, rfl⟩, hedge⟩
    · exact ⟨lead, gap, [], "-line".toList, rfl, rfl, hlead, hgap, .inl ⟨"-line", by simp, rfl, rfl⟩, hedge⟩

/-- All of the line that is left is taken for the rules. -/
theorem run_rules (hs : '\n' ∉ s.rest) (start : Nat) :
    (ofList [capture "rules" (many anyChar 0)]).run (fun e => some (Found.mk start e.pos e.captures)) s =
      some (Found.mk start (s.pos + s.rest.length) (("rules", s.rest) :: s.captures)) := by
  have hany : ∀ c ∈ s.rest, anyChar c = true := fun c hc => bne_iff_ne.mpr (ne_of_mem_of_not_mem hc hs)
  refine run_many_of_longest (List.append_nil s.rest).symm (Nat.zero_le _) hany (by simp) ?_
  rw [Cursor.record_after "rules" [] (List.append_nil s.rest).symm]
  rfl

theorem exists_parts_of_foundAt (hl : '\n' ∉ l) {before : Option Char} {pos : Nat}
    (h : linterDirective.foundAt? ⟨before, pos, l, []⟩ = some m) :
    ∃ p : DirectiveParts, p.Fits ∧ p.text = l ∧ m.captures = p.captures := by
  rw [foundAt?, linterDirective_eq, run_ofList_append] at h
  obtain ⟨w, r, cs, hrest, hreads, hm⟩ := exists_reads_of_run h
  obtain ⟨lead, gap, name, rfl, rfl, hp⟩ := reads_directiveHead.mp hreads
  obtain rfl : l = lead ++ (gap ++ name) ++ r := hrest
  rw [run_rules (fun hc => hl (List.mem_append_right _ hc))] at hm
  refine ⟨⟨lead, gap, name, r⟩, hp, by simp [DirectiveParts.text], ?_⟩
  rw [← Option.some.inj hm]
  rfl

theorem exists_foundAt_of_fits (hp : p.Fits) (hl : '\n' ∉ p.text) (before : Option Char) (pos : Nat) :
    ∃ m, linterDirective.foundAt? ⟨before, pos, p.text, []⟩ = some m ∧ m.captures = p.captures := by
  have hsome : (linterDirective.foundAt? ⟨before, pos, p.text, []⟩).isSome = true := by
    rw [foundAt?, linterDirective_eq, run_ofList_append]
    refine run_isSome_of_reads (r := p.rules) (reads_directiveHead.mpr ⟨p.lead, p.gap, p.name, rfl, rfl, hp⟩)
      (by simp [DirectiveParts.text]) ?_
    rw [run_rules fun hc => hl (by simp [DirectiveParts.text, show '\n' ∈ p.rules from hc])]
    rfl
  obtain ⟨m, hm⟩ := Option.isSome_iff_exists.mp hsome
  obtain ⟨q, hq, hqp, hcaptures⟩ := exists_parts_of_foundAt hl hm
  obtain rfl := hq.eq_of_text hp hqp
  exact ⟨m, hm, hcaptures⟩

end pattern

/-! The first directive of a line. -/

/-- A directive begins the text. -/
def Begins (l : List Char) : Prop := ∃ p : DirectiveParts, p.Fits ∧ p.text = l

/-- The first directive of a line. -/
structure DirectiveParts.First (p : DirectiveParts) (l : List Char) : Prop where
  fits : p.Fits
  leftmost : ∃ u, l = u ++ p.text ∧ ∀ u' w, u = u' ++ w → w ≠ [] → ¬ Begins (w ++ p.text)

section first

variable {l u v w x : List Char} {m : Found} {p q : DirectiveParts}

theorem not_begins_of_foundAt_none (hl : '\n' ∉ l) {before : Option Char} {pos : Nat}
    (h : linterDirective.foundAt? ⟨before, pos, l, []⟩ = none) : ¬ Begins l := by
  rintro ⟨p, hp, rfl⟩
  obtain ⟨m, hm, -⟩ := exists_foundAt_of_fits hp hl before pos
  rw [h] at hm
  cases hm

theorem foundAt?_none_of_not_begins (hl : '\n' ∉ l) (h : ¬ Begins l) (before : Option Char) (pos : Nat) :
    linterDirective.foundAt? ⟨before, pos, l, []⟩ = none := by
  by_contra hsome
  obtain ⟨m, hm⟩ := Option.ne_none_iff_exists'.mp hsome
  obtain ⟨p, hp, htext, -⟩ := exists_parts_of_foundAt hl hm
  exact h ⟨p, hp, htext⟩

theorem exists_first_of_find (hl : '\n' ∉ l) (h : linterDirective.find? l = some m) :
    ∃ p : DirectiveParts, p.First l ∧ m.captures = p.captures := by
  obtain ⟨u, v, rfl, ⟨before, pos, hfound⟩, hnone⟩ := exists_leftmost_of_find h
  obtain ⟨p, hp, rfl, hcaptures⟩ := exists_parts_of_foundAt (fun hc => hl (List.mem_append_right u hc)) hfound
  refine ⟨p, ⟨hp, u, rfl, fun u' w hu hw => ?_⟩, hcaptures⟩
  obtain ⟨before, pos, hfound⟩ := hnone u' w hu hw
  refine not_begins_of_foundAt_none (fun hc => hl ?_) hfound
  rw [hu, List.append_assoc]
  exact List.mem_append_right u' hc

theorem exists_find_of_first (hl : '\n' ∉ l) (h : p.First l) :
    ∃ m, linterDirective.find? l = some m ∧ m.captures = p.captures := by
  obtain ⟨hp, u, rfl, hleftmost⟩ := h
  obtain ⟨before, pos, hfind⟩ := find?_append_of_none (a := linterDirective) (u := u) (t := p.text) fun u' w hu hw =>
    foundAt?_none_of_not_begins (fun hc => hl (by rw [hu, List.append_assoc]; exact List.mem_append_right u' hc))
      (hleftmost u' w hu hw)
  obtain ⟨m, hm, hcaptures⟩ := exists_foundAt_of_fits hp (fun hc => hl (List.mem_append_right u hc)) before pos
  exact ⟨m, by rw [hfind, find?_go_of_foundAt hm], hcaptures⟩

theorem not_begins_of_find_none (hl : '\n' ∉ u ++ v) (h : linterDirective.find? (u ++ v) = none) : ¬ Begins v := by
  rintro ⟨p, hp, rfl⟩
  have hoccurs : linterDirective.occursIn (u ++ p.text) = true := by
    refine occursIn_append u fun before pos => ?_
    obtain ⟨m, hm, -⟩ := exists_foundAt_of_fits hp (fun hc => hl (List.mem_append_right u hc)) before pos
    rw [hm]
    rfl
  rw [occursIn, h] at hoccurs
  cases hoccurs

/-- A part without a character ends before that character comes. -/
theorem append_cons_of_notMem {α : Type} {g y z t : List α} {a : α} (hg : a ∉ g) (h : g ++ y = t ++ a :: z) :
    ∃ t', t = g ++ t' ∧ y = t' ++ a :: z := by
  rcases List.append_eq_append_iff.mp h with ⟨t', ht, hy⟩ | ⟨v, hgv, hz⟩
  · exact ⟨t', ht, hy⟩
  · cases v with
    | nil => exact ⟨[], by simpa using hgv.symm, by simpa using hz.symm⟩
    | cons b v =>
      obtain ⟨rfl, -⟩ := List.cons.inj hz
      exact absurd (by rw [hgv]; simp) hg

theorem DirectiveParts.Fits.slash_notMem_gap (hp : p.Fits) : '/' ∉ p.gap := fun hc => by
  have hblank := hp.gap _ hc
  revert hblank
  decide

theorem DirectiveParts.Fits.slash_notMem_name (hp : p.Fits) : '/' ∉ p.name := fun hc => by
  have hname := hp.continues _ hc
  simp [continuesName, isWordChar, isAlphanumeric] at hname

theorem DirectiveParts.Fits.lead_before (hp : p.Fits) (hw : w ≠ []) (h : p.text = w ++ '/' :: '*' :: x) :
    ∃ t, w = p.lead ++ t ∧ p.gap ++ (p.name ++ p.rules) = t ++ '/' :: '*' :: x := by
  rcases List.append_eq_append_iff.mp h with ⟨t, ht, hrest⟩ | ⟨v, hlead, hv⟩
  · exact ⟨t, ht, hrest⟩
  cases v with
  | nil => exact ⟨[], by simpa using hlead.symm, by simpa using hv.symm⟩
  | cons b v =>
    obtain ⟨rfl, hstar⟩ := List.cons.inj hv
    obtain ⟨c, w, rfl⟩ := List.exists_cons_of_ne_nil hw
    obtain ⟨run, hrun, -, hall⟩ := hp.lead
    rw [hrun] at hlead
    obtain ⟨-, hsplit⟩ := List.cons.inj hlead
    obtain rfl : run = w ++ '/' :: v := hsplit
    -- A slash is in the run, so that the star after it is neither in the run nor after the lead.
    have hslashes : ∀ c ∈ w ++ '/' :: v, c = '/' :=
      hall.resolve_right fun hstars => absurd (hstars '/' (by simp)) (by decide)
    cases v with
    | nil =>
      have hgap : p.gap ++ (p.name ++ p.rules) = '*' :: x := hstar.symm
      have hopens := hp.opens_gap '*' (by rw [hgap]; rfl)
      cases hopens
    | cons d v =>
      obtain ⟨hd, -⟩ := List.cons.inj hstar
      exact absurd (hslashes d (by simp)) (by rw [← hd]; decide)

/-- A directive that begins before a comment has its name there, and the comment among its rules. -/
theorem DirectiveParts.Fits.cut (hp : p.Fits) (hw : w ≠ []) (h : p.text = w ++ '/' :: '*' :: x) :
    ∃ rules, p.rules = rules ++ '/' :: '*' :: x ∧ { p with rules := rules }.Fits ∧
      { p with rules := rules }.text = w := by
  obtain ⟨t, rfl, hgap⟩ := hp.lead_before hw h
  obtain ⟨t, rfl, hname⟩ := append_cons_of_notMem hp.slash_notMem_gap hgap
  obtain ⟨rules, rfl, hrules⟩ := append_cons_of_notMem hp.slash_notMem_name hname
  refine ⟨rules, hrules, ⟨hp.lead, hp.gap, hp.name, ?_⟩, rfl⟩
  have hedge := hp.edge
  rw [hrules] at hedge
  cases rules with
  | nil => rfl
  | cons c r => exact hedge

theorem DirectiveParts.Fits.extend (hp : p.Fits) (x : List Char) :
    { p with rules := p.rules ++ '/' :: x }.Fits := by
  refine ⟨hp.lead, hp.gap, hp.name, ?_⟩
  have hedge := hp.edge
  cases hrules : p.rules with
  | nil => simp [continuesName, isWordChar, isAlphanumeric]
  | cons c r =>
    rw [hrules] at hedge
    exact hedge

end first

/-! The rule list. -/

/-- What is taken for a rule list names no rule, or all of them. -/
def Blanket (rules : List Char) : Prop := ruleList? rules = none ∨ ruleList? rules = some "*"

/-- Two dashes begin a description. -/
def Described (rules : List Char) : Prop := ['-', '-'] <:+: rules

section rules

variable {u v raw gap : List Char} {c : Char} {p : DirectiveParts}

theorem described_cons : Described (c :: u) ↔ (c = '-' ∧ u.head? = some '-') ∨ Described u := by
  have hhead : ['-'] <+: u ↔ u.head? = some '-' := by
    cases u <;> simp [List.cons_prefix_cons, @eq_comm _ '-']
  rw [Described, List.infix_cons_iff, List.cons_prefix_cons, hhead, @eq_comm _ '-', ← Described]

theorem beforeDashes_cons (h : c = '-' → u.head? ≠ some '-') : beforeDashes (c :: u) = c :: beforeDashes u := by
  rw [beforeDashes]
  rintro r hc rfl
  exact h hc rfl

theorem beforeDashes_append (hu : '-' ∉ u) (v : List Char) : beforeDashes (u ++ v) = u ++ beforeDashes v := by
  induction u with
  | nil => rfl
  | cons c u ih =>
    obtain ⟨hc, hu⟩ := not_or.mp (mt List.mem_cons.mpr hu)
    rw [List.cons_append, beforeDashes_cons fun h => absurd h.symm hc, ih hu, List.cons_append]

theorem beforeDashes_of_described (hu : Described u) (v : List Char) : beforeDashes (u ++ v) = beforeDashes u := by
  induction u with
  | nil => simp [Described] at hu
  | cons c u ih =>
    by_cases hdashes : c = '-' ∧ u.head? = some '-'
    · obtain ⟨rfl, hhead⟩ := hdashes
      obtain ⟨u, rfl⟩ := List.head?_eq_some_iff.mp hhead
      rfl
    · have hrest : Described u := (described_cons.mp hu).resolve_left hdashes
      have hne : u ≠ [] := by
        rintro rfl
        simp [Described] at hrest
      have hhead : (u ++ v).head? = u.head? := List.head?_append_of_ne_nil u hne
      rw [List.cons_append, beforeDashes_cons (by rw [hhead]; exact not_and.mp hdashes), ih hrest,
        beforeDashes_cons (not_and.mp hdashes)]

theorem beforeDashes_of_not_described (hu : ¬ Described u) (v : List Char) :
    beforeDashes (u ++ '/' :: v) = u ++ beforeDashes ('/' :: v) := by
  induction u with
  | nil => rfl
  | cons c u ih =>
    obtain ⟨hdashes, hu⟩ := not_or.mp (mt described_cons.mpr hu)
    have hhead : c = '-' → (u ++ '/' :: v).head? ≠ some '-' := by
      cases u with
      | nil => simp
      | cons d u => exact not_and.mp hdashes
    rw [List.cons_append, beforeDashes_cons hhead, ih hu, List.cons_append]

theorem withoutCommentEnds_cons (hc : c ≠ '*') (r : List Char) :
    withoutCommentEnds (c :: r) = c :: withoutCommentEnds r := by
  rw [withoutCommentEnds]
  exact fun _ h _ => hc h

theorem withoutCommentEnds_append (hu : '*' ∉ u) (v : List Char) :
    withoutCommentEnds (u ++ v) = u ++ withoutCommentEnds v := by
  induction u with
  | nil => rfl
  | cons c u ih =>
    obtain ⟨hc, hu⟩ := not_or.mp (mt List.mem_cons.mpr hu)
    rw [List.cons_append, withoutCommentEnds_cons (Ne.symm hc), ih hu, List.cons_append]

theorem mem_withoutCommentEnds (hc : c ∈ u) (hstar : c ≠ '*') (hslash : c ≠ '/') : c ∈ withoutCommentEnds u := by
  fun_induction withoutCommentEnds u with
  | case1 => exact hc
  | case2 r ih => exact ih (by simpa [hstar, hslash] using hc)
  | case3 d r _ ih =>
    rcases List.mem_cons.mp hc with rfl | hc
    · exact List.mem_cons_self
    · exact List.mem_cons_of_mem d (ih hc)

theorem mem_dropSuffixChars {q : Char → Bool} (hc : c ∈ u) (hq : q c = false) : c ∈ dropSuffixChars q u := by
  rw [dropSuffixChars, List.mem_reverse]
  rw [← List.mem_reverse, ← List.takeWhile_append_dropWhile (p := q) (l := u.reverse), List.mem_append] at hc
  refine hc.resolve_left fun hsuffix => ?_
  simp [List.mem_takeWhile_imp hsuffix] at hq

theorem notMem_of_blank (hgap : ∀ c ∈ gap, isBlank c = true) (hc : isBlank c = false) : c ∉ gap := fun h => by
  rw [hgap c h] at hc
  cases hc

/-- Blanks before a rule list, and the end of a comment, are no part of it. -/
theorem ruleList?_closed (hgap : ∀ c ∈ gap, isBlank c = true) (after : List Char) :
    ruleList? (gap ++ ('*' :: '/' :: after)) = ruleList? after := by
  have hdashes : beforeDashes ('*' :: '/' :: after) = '*' :: '/' :: beforeDashes after := by
    rw [beforeDashes_cons (by simp), beforeDashes_cons (by simp)]
  rw [ruleList?, ruleList?, beforeDashes_append (notMem_of_blank hgap (by decide)), hdashes,
    withoutCommentEnds_append (notMem_of_blank hgap (by decide)), withoutCommentEnds, trim_append_left hgap]

theorem ruleList?_described (hgap : ∀ c ∈ gap, isBlank c = true) (note : List Char) :
    ruleList? (gap ++ ('-' :: '-' :: note)) = none := by
  have hblank : trim (withoutCommentEnds gap) = [] := by
    rw [← List.append_nil gap, withoutCommentEnds_append (notMem_of_blank hgap (by decide)), trim_append_left hgap]
    rfl
  rw [ruleList?, beforeDashes_append (notMem_of_blank hgap (by decide)), beforeDashes, List.append_nil, hblank]
  rfl

/-- Other marks are left when a rule list is cleaned. -/
theorem not_blanket_of_mem (hc : c ∈ beforeDashes raw) (hvisible : isBlank c = false) (hmarks : c ∉ ['*', '/', ',']) :
    ¬ Blanket raw := by
  obtain ⟨hstar, hslash, hcomma⟩ : c ≠ '*' ∧ c ≠ '/' ∧ c ≠ ',' := by simpa using hmarks
  have hcleaned : c ∈ trim (withoutCommentEnds (beforeDashes raw)) :=
    mem_trim (mem_withoutCommentEnds hc hstar hslash) hvisible
  have hrules : c ∈ trim (dropSuffixChars (· == ',') (trim (withoutCommentEnds (beforeDashes raw)))) :=
    mem_trim (mem_dropSuffixChars hcleaned (beq_eq_false_iff_ne.mpr hcomma)) hvisible
  rw [Blanket, ruleList?]
  generalize trim (dropSuffixChars (· == ',') (trim (withoutCommentEnds (beforeDashes raw)))) = rules at hrules
  have hne : rules ≠ [] := List.ne_nil_of_mem hrules
  rintro (hnone | hall)
  · simp [hne] at hnone
  · obtain ⟨-, hall⟩ : ¬ rules = [] ∧ String.ofList rules = "*" := by simpa using hall
    have hrules' : rules = ['*'] := by rw [← String.toList_ofList (l := rules), hall]; rfl
    rw [hrules', List.mem_singleton] at hrules
    exact hstar hrules

theorem DirectiveParts.IsLead.dash_notMem {t : List Char} (h : DirectiveParts.IsLead t) : '-' ∉ t := fun hc => by
  have hopens := h.opens _ hc
  cases hopens

theorem DirectiveParts.Fits.mem_beforeDashes (hp : p.Fits) : 'e' ∈ beforeDashes p.text := by
  obtain ⟨t, hname⟩ := hp.name_eq_cons
  rw [DirectiveParts.text, hname, beforeDashes_append hp.lead.dash_notMem,
    beforeDashes_append (notMem_of_blank hp.gap (by decide)), List.cons_append, beforeDashes_cons (by simp)]
  simp

/-- A directive among the rules of another one is taken for rules unless it is in a description. -/
theorem blanket_append_text_iff (hp : p.Fits) : Blanket (u ++ p.text) ↔ Described u ∧ Blanket u := by
  by_cases hu : Described u
  · rw [Blanket, Blanket, ruleList?, beforeDashes_of_described hu, ← ruleList?]
    exact (and_iff_right hu).symm
  · have hmem : 'e' ∈ beforeDashes (u ++ p.text) := by
      have htext := hp.mem_beforeDashes
      obtain ⟨run, hlead, -⟩ := hp.lead
      rw [DirectiveParts.text, hlead, List.cons_append] at htext ⊢
      rw [beforeDashes_of_not_described hu]
      exact List.mem_append_right u htext
    exact iff_of_false (not_blanket_of_mem hmem (by decide) (by decide)) fun h => hu h.1

end rules

/-! Comments without rules. -/

/-- The end of a comment after a directive without rules, and the description before it if there is one. -/
inductive BlanketEnding : Bool → List Char → Prop where
  | bare {gap : List Char} (hgap : ∀ c ∈ gap, isBlank c = true) : BlanketEnding false (gap ++ ['*', '/'])
  | described {gap : List Char} (hne : gap ≠ []) (hgap : ∀ c ∈ gap, isBlank c = true) (note : List Char) :
    BlanketEnding true (gap ++ '-' :: '-' :: (note ++ ['*', '/']))

/-- A comment that holds a directive without rules, perhaps with a description, and nothing else. -/
def BlanketComment (described : Bool) (comment : List Char) : Prop :=
  ∃ gap name ending, comment = '/' :: '*' :: (gap ++ (name ++ ending)) ∧ (∀ c ∈ gap, isBlank c = true) ∧
    (∃ d ∈ directiveNames, name = d.toList) ∧ BlanketEnding described ending

def rulesOf (m : Found) : List Char := (m.group? "rules").getD []

section comment

variable {before x l : List Char} {described : Bool} {m : Found} {p : DirectiveParts}

theorem continuesName_of_isBlank {c : Char} (h : isBlank c = true) : continuesName c = false := by
  have hdash : c ≠ '-' := by
    rintro rfl
    revert h
    decide
  simp [continuesName, isWordChar_of_isBlank h, hdash]

theorem BlanketEnding.edge {ending : List Char} (h : BlanketEnding described ending) (after : List Char) :
    (ending ++ after).head?.any continuesName = false := by
  have hstar : continuesName '*' = false := by simp [continuesName, isWordChar, isAlphanumeric]
  cases h with
  | @bare gap hgap =>
    cases gap with
    | nil => exact hstar
    | cons c gap => exact continuesName_of_isBlank (hgap c List.mem_cons_self)
  | @described gap hne hgap =>
    obtain ⟨c, gap, rfl⟩ := List.exists_cons_of_ne_nil hne
    exact continuesName_of_isBlank (hgap c List.mem_cons_self)

theorem BlanketEnding.blanket_iff {ending : List Char} (h : BlanketEnding described ending) (after : List Char) :
    Blanket (ending ++ after) ↔ described = true ∨ Blanket after := by
  cases h with
  | @bare gap hgap =>
    have hclosed : gap ++ ['*', '/'] ++ after = gap ++ '*' :: '/' :: after := by simp
    rw [Blanket, hclosed, ruleList?_closed hgap, ← Blanket]
    simp
  | @described gap _ hgap note =>
    have hdescribed : gap ++ '-' :: '-' :: (note ++ ['*', '/']) ++ after = gap ++ '-' :: '-' :: (note ++ ['*', '/'] ++ after) := by
      simp
    rw [Blanket, hdescribed, ruleList?_described hgap]
    simp

theorem rulesOf_eq (h : m.captures = p.captures) : rulesOf m = p.rules := by
  rw [rulesOf, Found.group?, h]
  rfl

theorem first_of_find_none (hl : '\n' ∉ before ++ p.text) (hp : p.Fits) (htext : p.text = '/' :: '*' :: x)
    (h : linterDirective.find? before = none) : p.First (before ++ p.text) := by
  refine ⟨hp, before, rfl, fun u w hu hw => ?_⟩
  rintro ⟨q, hq, hqtext⟩
  obtain ⟨rules, -, hfits, hcut⟩ := hq.cut hw (hqtext.trans (by rw [htext]))
  rw [hu] at h hl
  exact not_begins_of_find_none (fun hc => hl (List.mem_append_left _ hc)) h ⟨_, hfits, hcut⟩

theorem DirectiveParts.First.extend (h : p.First before) (x : List Char) :
    { p with rules := p.rules ++ '/' :: '*' :: x }.First (before ++ '/' :: '*' :: x) := by
  obtain ⟨hp, u, rfl, hleftmost⟩ := h
  have htext : { p with rules := p.rules ++ '/' :: '*' :: x }.text = p.text ++ '/' :: '*' :: x := by
    simp [DirectiveParts.text]
  refine ⟨hp.extend _, u, by rw [htext, List.append_assoc], fun u' w hu hw => ?_⟩
  rintro ⟨q, hq, hqtext⟩
  rw [htext, ← List.append_assoc] at hqtext
  obtain ⟨rules, -, hfits, hcut⟩ := hq.cut (List.append_ne_nil_of_left_ne_nil hw _) hqtext
  exact hleftmost u' w hu hw ⟨_, hfits, hcut⟩

/-- A comment that disables all rules is found unless another directive stands before it. It counts as what it is where
it has a description, or what follows it names no rule either. -/
theorem blanket_find?_iff {comment after : List Char} (hcomment : BlanketComment described comment)
    (hl : '\n' ∉ before ++ (comment ++ after)) :
    (∃ m, linterDirective.find? (before ++ (comment ++ after)) = some m ∧ Blanket (rulesOf m)) ↔
      match linterDirective.find? before with
      | none => described = true ∨ Blanket after
      | some m => Described (rulesOf m) ∧ Blanket (rulesOf m) := by
  obtain ⟨gap, name, ending, rfl, hgap, hname, hending⟩ := hcomment
  have hp : (DirectiveParts.mk ['/', '*'] gap name (ending ++ after)).Fits :=
    ⟨⟨['*'], rfl, by simp, .inr (by simp)⟩, hgap, hname, hending.edge after⟩
  have htext : '/' :: '*' :: (gap ++ (name ++ ending)) ++ after =
      (DirectiveParts.mk ['/', '*'] gap name (ending ++ after)).text := by simp [DirectiveParts.text]
  rw [htext] at hl ⊢
  generalize hparts : DirectiveParts.mk ['/', '*'] gap name (ending ++ after) = p at hp hl ⊢
  have hx : p.text = '/' :: '*' :: (gap ++ (name ++ (ending ++ after))) := by rw [← hparts]; rfl
  have hfound {q : DirectiveParts} (hq : q.First (before ++ p.text)) :
      (∃ m, linterDirective.find? (before ++ p.text) = some m ∧ Blanket (rulesOf m)) ↔ Blanket q.rules := by
    obtain ⟨m, hm, hcaptures⟩ := exists_find_of_first hl hq
    simp [hm, rulesOf_eq hcaptures]
  split
  case h_1 hnone =>
    rw [hfound (first_of_find_none hl hp hx hnone), ← hending.blanket_iff after, ← hparts]
  case h_2 m hm =>
    obtain ⟨q, hq, hcaptures⟩ := exists_first_of_find (fun hc => hl (List.mem_append_left _ hc)) hm
    have hfirst := hq.extend (gap ++ (name ++ (ending ++ after)))
    rw [← hx] at hfirst
    rw [hfound hfirst, rulesOf_eq hcaptures]
    exact blanket_append_text_iff hp

end comment

/-! The report. -/

section report

variable {file : String} {text l l' : List Char} {n : Nat}

theorem exists_getElem_of_mem_numbered (h : (n, l) ∈ numbered text) : ∃ i, n = 1 + i ∧ (splitLines text)[i]? = some l := by
  obtain ⟨i, hi, hget⟩ := List.mem_iff_getElem.mp h
  have hlines : i < (splitLines text).length := by simpa [numbered] using hi
  obtain ⟨hn, hl⟩ : 1 + i = n ∧ (splitLines text)[i] = l := by simpa [numbered] using hget
  exact ⟨i, hn.symm, by rw [List.getElem?_eq_getElem hlines, hl]⟩

theorem line_unique (h : (n, l) ∈ numbered text) (h' : (n, l') ∈ numbered text) : l = l' := by
  obtain ⟨i, rfl, hi⟩ := exists_getElem_of_mem_numbered h
  obtain ⟨j, hj, hget⟩ := exists_getElem_of_mem_numbered h'
  obtain rfl : i = j := by omega
  exact Option.some.inj (hi.symm.trans hget)

theorem newline_notMem_of_numbered (h : (n, l) ∈ numbered text) : '\n' ∉ l := by
  obtain ⟨i, -, hi⟩ := exists_getElem_of_mem_numbered h
  exact newline_notMem_of_line (isLineBreak_of_mem_splitLines (List.mem_of_getElem? hi))

theorem line_of_mem_lineSuppressions {x : Suppression} (h : x ∈ lineSuppressions file n l) : x.line = n := by
  simp only [lineSuppressions, List.mem_append, Option.mem_toList, Option.map_eq_some_iff] at h
  rcases h with ⟨m, -, rfl⟩ | ⟨m, -, rfl⟩
  · unfold compilerSuppression
    split <;> rfl
  · rfl

theorem flagged_of_line (h : (n, l) ∈ numbered text) :
    (∃ x ∈ suppressions file text, x.line = n ∧ x.shouldFlag = true) ↔
      ∃ x ∈ lineSuppressions file n l, x.shouldFlag = true := by
  constructor
  · rintro ⟨x, hx, hn, hflag⟩
    obtain ⟨⟨n', l'⟩, hl', hx⟩ := List.mem_flatMap.mp hx
    obtain rfl : n' = n := (line_of_mem_lineSuppressions hx).symm.trans hn
    obtain rfl := line_unique h hl'
    exact ⟨x, hx, hflag⟩
  · rintro ⟨x, hx, hflag⟩
    exact ⟨x, List.mem_flatMap.mpr ⟨(n, l), h, hx⟩, line_of_mem_lineSuppressions hx, hflag⟩

theorem flagged_compiler (kind : String) : (compilerSuppression file n kind).shouldFlag = true ↔ kind ≠ "expect-error" := by
  unfold compilerSuppression
  split <;> simp_all

theorem flagged_linter (m : Found) : (linterSuppression file n m).shouldFlag = true ↔ Blanket (rulesOf m) := by
  simp [linterSuppression, Blanket, rulesOf]

theorem flagged_lineSuppressions :
    (∃ x ∈ lineSuppressions file n l, x.shouldFlag = true) ↔
      (∃ m, compilerDirective.find? l = some m ∧ m.text "kind" ≠ "expect-error") ∨
        ∃ m, linterDirective.find? l = some m ∧ Blanket (rulesOf m) := by
  have hsome {α : Type} {o : Option α} {f : α → Suppression} :
      (∃ x ∈ (o.map f).toList, x.shouldFlag = true) ↔ ∃ a, o = some a ∧ (f a).shouldFlag = true := by
    cases o <;> simp
  simp only [lineSuppressions, List.mem_append, or_and_right, exists_or, hsome, flagged_compiler, flagged_linter]

theorem blocksCommit_of_flagged {s : PolicyState} {r : Report} {x : Suppression} (hs : s.level = .zeroTolerance)
    (hx : x ∈ r.suppressions) (hflag : x.shouldFlag = true) : s.blocksCommit r = true := by
  have hpos : 0 < r.unsafeSuppressions.length := List.length_pos_of_mem (List.mem_filter.mpr ⟨hx, hflag⟩)
  simp [PolicyState.blocksCommit, hs, hpos]

/-- A line with a comment that disables all rules is reported as unsafe for it exactly where no directive stands before
the comment and it has a description or what follows it names no rule, or where a directive before it has a description
and names no rule. Where the line is reported as unsafe, it stops a commit under zero tolerance. -/
theorem blanket_flagged_iff {before comment after : List Char} {described : Bool}
    (hcomment : BlanketComment described comment) (hline : (n, before ++ (comment ++ after)) ∈ numbered text) :
    ((∃ x ∈ suppressions file text, x.line = n ∧ x.shouldFlag = true) ↔
      (∃ m, compilerDirective.find? (before ++ (comment ++ after)) = some m ∧ m.text "kind" ≠ "expect-error") ∨
        match linterDirective.find? before with
        | none => described = true ∨ Blanket after
        | some m => Described (rulesOf m) ∧ Blanket (rulesOf m)) ∧
      ∀ (s : PolicyState) (r : Report), s.level = .zeroTolerance → (∀ x ∈ suppressions file text, x ∈ r.suppressions) →
        (∃ x ∈ suppressions file text, x.line = n ∧ x.shouldFlag = true) → s.blocksCommit r = true := by
  constructor
  · rw [flagged_of_line hline, flagged_lineSuppressions,
      blanket_find?_iff hcomment (newline_notMem_of_numbered hline)]
  · rintro s r hs hr ⟨x, hx, -, hflag⟩
    exact blocksCommit_of_flagged hs (hr x hx) hflag

/-- With a description the comment counts, also before code. -/
theorem blanket_flagged_described :
    ∃ x ∈ suppressions "a.js" "/* eslint-disable -- why */ foo();\n".toList, x.line = 1 ∧ x.shouldFlag = true := by
  have hcomment : BlanketComment true "/* eslint-disable -- why */".toList :=
    ⟨[' '], "eslint-disable".toList, _, rfl, by simp; decide, ⟨"eslint-disable", by simp [directiveNames], rfl⟩,
      @BlanketEnding.described [' '] (by simp) (by simp; decide) " why ".toList⟩
  have hlines : numbered "/* eslint-disable -- why */ foo();\n".toList = [(1, "/* eslint-disable -- why */ foo();".toList)] := by
    cbv
  have hline : (1, [] ++ ("/* eslint-disable -- why */".toList ++ " foo();".toList)) ∈
      numbered "/* eslint-disable -- why */ foo();\n".toList := by
    rw [hlines]
    exact List.mem_singleton.mpr rfl
  have hnone : linterDirective.find? [] = none := by cbv
  refine (blanket_flagged_iff hcomment hline).1.mpr (.inr ?_)
  rw [hnone]
  exact .inl rfl

theorem at_mem_of_find {m : Found} (h : compilerDirective.find? l = some m) : '@' ∈ l := by
  obtain ⟨u, v, rfl, ⟨before, pos, hfound⟩, -⟩ := exists_leftmost_of_find h
  obtain ⟨w, r, cs, hv, hreads, -⟩ := exists_reads_of_foundAt hfound
  obtain rfl : v = w ++ r := hv
  simp only [compilerDirective, reads_ofList_cons, reads_word] at hreads
  obtain ⟨_, _, _, _, rfl, -, -, _, _, _, _, rfl, -, -, _, _, _, _, rfl, -, ⟨rfl, -⟩, -⟩ := hreads
  simp

/-- Code after the comment is taken for its rules, so that the line is not reported as unsafe and no commit is stopped
for it. -/
theorem blanket_missed :
    BlanketComment false "/* eslint-disable */".toList ∧
      (1, "/* eslint-disable */".toList ++ " foo();".toList) ∈ numbered "/* eslint-disable */ foo();\n".toList ∧
      (∀ x ∈ suppressions "a.js" "/* eslint-disable */ foo();\n".toList, x.shouldFlag = false) ∧
      ∀ (s : PolicyState) (r : Report), r.issues = [] →
        r.suppressions = suppressions "a.js" "/* eslint-disable */ foo();\n".toList → s.blocksCommit r = false := by
  have hcomment : BlanketComment false "/* eslint-disable */".toList :=
    ⟨[' '], "eslint-disable".toList, _, rfl, by simp; decide, ⟨"eslint-disable", by simp [directiveNames], rfl⟩,
      @BlanketEnding.bare [' '] (by simp; decide)⟩
  have hlines : numbered "/* eslint-disable */ foo();\n".toList =
      [(1, [] ++ ("/* eslint-disable */".toList ++ " foo();".toList))] := by
    cbv
  have hline : (1, [] ++ ("/* eslint-disable */".toList ++ " foo();".toList)) ∈
      numbered "/* eslint-disable */ foo();\n".toList := by
    rw [hlines]
    exact List.mem_singleton.mpr rfl
  have hnone : linterDirective.find? [] = none := by cbv
  have hrules : ¬ Blanket " foo();".toList := @not_blanket_of_mem _ 'f' (by decide) (by decide) (by decide)
  have hmissed : ∀ x ∈ suppressions "a.js" "/* eslint-disable */ foo();\n".toList, x.shouldFlag = false := by
    refine fun x hx => Bool.eq_false_iff.mpr fun hflag => ?_
    rw [suppressions, hlines, List.flatMap_singleton] at hx
    rcases flagged_lineSuppressions.mp ⟨x, hx, hflag⟩ with ⟨m, hm, -⟩ | hlinter
    · exact absurd (at_mem_of_find hm) (by decide)
    · rw [blanket_find?_iff hcomment (newline_notMem_of_numbered hline), hnone] at hlinter
      rcases hlinter with h | h
      · cases h
      · exact hrules h
  refine ⟨hcomment, hline, hmissed, fun s r hissues hr => ?_⟩
  have hunsafe : r.unsafeSuppressions = [] := by
    rw [Report.unsafeSuppressions, hr, List.filter_eq_nil_iff]
    exact fun x hx => Bool.eq_false_iff.mp (hmissed x hx)
  cases hs : s.level <;>
    simp [PolicyState.blocksCommit, PolicyState.blocks, hs, hunsafe, Report.errorCount, Report.errors, Report.warningCount,
      Report.warnings, hissues]

end report

end QualityGate.Scan
