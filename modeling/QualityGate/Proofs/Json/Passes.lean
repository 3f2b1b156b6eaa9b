import QualityGate.Proofs.Json.Spelling
import QualityGate.Proofs.Text.Lines

/-! The two passes that take comments and trailing commas out of a text: what each does with the next
characters, and what stood before the characters that are left. -/

namespace QualityGate.Json

/-! What the passes do with the next characters. -/

/-- A text without its comments; it may begin inside of a string. -/
def uncommented (quoted : Bool) (s : List Char) : List Char :=
  match quoted, s with
  | _, [] => []
  | true, '\\' :: c :: r => '\\' :: c :: uncommented true r
  | true, c :: r => c :: uncommented (c != '"') r
  | false, '"' :: r => '"' :: uncommented true r
  | false, '/' :: '/' :: r => uncommented false (r.drop (lineRest r))
  | false, '/' :: '*' :: r =>
    let n := blockRest r 0
    (r.take n).filter (· == '\n') ++ uncommented false (r.drop n)
  | false, c :: r => c :: uncommented false r
termination_by s.length

/-- A text without its trailing commas. -/
def untrailed (quoted : Bool) (s : List Char) : List Char :=
  match quoted, s with
  | _, [] => []
  | true, '\\' :: c :: r => '\\' :: c :: untrailed true r
  | true, c :: r => c :: untrailed (c != '"') r
  | false, '"' :: r => '"' :: untrailed true r
  | false, ',' :: r => if closesNext r then untrailed false r else ',' :: untrailed false r
  | false, c :: r => c :: untrailed false r
termination_by s.length

def cleaned (quoted : Bool) (s : List Char) : List Char := untrailed quoted (uncommented quoted s)

theorem reverse_filter_newline (s : List Char) : (s.filter (· == '\n')).reverse = s.filter (· == '\n') := by
  simp [List.filter_beq]

theorem withoutComments_go (quoted : Bool) (s acc : List Char) :
    withoutComments.go quoted s acc = (uncommented quoted s).reverse ++ acc := by
  fun_induction withoutComments.go quoted s acc with
  | case1 => simp [uncommented]
  | case2 acc c r ih => simp [uncommented, ih]
  | case3 acc c r hc ih => rw [uncommented.eq_3 c r hc, ih]; simp
  | case4 acc r ih => simp [uncommented, ih]
  | case5 acc r ih => simp [uncommented, ih]
  | case6 acc r n ih =>
    rw [ih, uncommented.eq_6]
    simp [n, reverse_filter_newline]
  | case7 acc c r hquote hline hblock ih =>
    rw [uncommented.eq_7 c r hquote hline hblock, ih]
    simp

theorem withoutTrailingCommas_go (quoted : Bool) (s acc : List Char) :
    withoutTrailingCommas.go quoted s acc = (untrailed quoted s).reverse ++ acc := by
  fun_induction withoutTrailingCommas.go quoted s acc with
  | case1 => simp [untrailed]
  | case2 acc c r ih => simp [untrailed, ih]
  | case3 acc c r hc ih => rw [untrailed.eq_3 c r hc, ih]; simp
  | case4 acc r ih => simp [untrailed, ih]
  | case5 acc r ih =>
    by_cases hcloses : closesNext r = true
    · rw [dif_pos hcloses] at ih
      simp [untrailed, hcloses, ih]
    · rw [dif_neg hcloses] at ih
      simp [untrailed, hcloses, ih]
  | case6 acc c r hquote hcomma ih =>
    rw [untrailed.eq_6 c r hquote hcomma, ih]
    simp

theorem readCommented_eq {σ : Type} [OfPoints σ] [DecidableEq σ] [Limits] (s : List Char) :
    readCommented s σ = read (cleaned false s) σ := by
  simp [readCommented, withoutComments, withoutTrailingCommas, withoutComments_go, withoutTrailingCommas_go, cleaned]

/-! Strings. -/

theorem hex_of_codeUnit? {a b c d : Char} {n : Nat} (h : codeUnit? a b c d = some n) :
    ∀ x ∈ [a, b, c, d], x ≠ '\\' ∧ x ≠ '"' := by
  have hhex {x : Char} (hx : x = '\\' ∨ x = '"') : Text.hexValue? x = none := by rcases hx with rfl | rfl <;> rfl
  intro x hx
  rw [← not_or]
  intro hmark
  have hnone := hhex hmark
  simp only [List.mem_cons, List.not_mem_nil, or_false] at hx
  rcases hx with rfl | rfl | rfl | rfl <;> simp [codeUnit?, hnone] at h

/-- How a pass keeps track of strings, whose characters it leaves alone. -/
structure Copying (f : Bool → List Char → List Char) : Prop where
  nil (quoted : Bool) : f quoted [] = []
  opening (r : List Char) : f false ('"' :: r) = '"' :: f true r
  escape (c : Char) (r : List Char) : f true ('\\' :: c :: r) = '\\' :: c :: f true r
  loneEscape : f true ['\\'] = ['\\']
  other {c : Char} (hc : c ≠ '\\') (r : List Char) : f true (c :: r) = c :: f (c != '"') r

theorem copying_uncommented : Copying uncommented where
  nil quoted := by rw [uncommented]
  opening r := by rw [uncommented]
  escape c r := by rw [uncommented]
  loneEscape := by simp [uncommented]
  other hc r := uncommented.eq_3 _ r fun _ _ h => absurd h hc

theorem copying_untrailed : Copying untrailed where
  nil quoted := by rw [untrailed]
  opening r := by rw [untrailed]
  escape c r := by rw [untrailed]
  loneEscape := by simp [untrailed]
  other hc r := untrailed.eq_3 _ r fun _ _ h => absurd h hc

theorem copying_cleaned : Copying cleaned where
  nil quoted := by rw [cleaned, copying_uncommented.nil, copying_untrailed.nil]
  opening r := by rw [cleaned, copying_uncommented.opening, copying_untrailed.opening, cleaned]
  escape c r := by rw [cleaned, copying_uncommented.escape, copying_untrailed.escape, cleaned]
  loneEscape := by rw [cleaned, copying_uncommented.loneEscape, copying_untrailed.loneEscape]
  other hc r := by rw [cleaned, copying_uncommented.other hc, copying_untrailed.other hc, cleaned]

namespace Copying

variable {f : Bool → List Char → List Char} (hf : Copying f)

include hf

theorem plain {c : Char} (hc : c ≠ '\\') (hquote : c ≠ '"') (r : List Char) : f true (c :: r) = c :: f true r := by
  have hstays : (c != '"') = true := bne_iff_ne.mpr hquote
  rw [hf.other hc, hstays]

theorem closing (r : List Char) : f true ('"' :: r) = '"' :: f false r := hf.other (by decide) r

theorem run {run : List Char} (h : ∀ c ∈ run, c ≠ '\\' ∧ c ≠ '"') (r : List Char) :
    f true (run ++ r) = run ++ f true r := by
  induction run with
  | nil => rfl
  | cons c run ih =>
    obtain ⟨⟨hescape, hquote⟩, hrun⟩ := List.forall_mem_cons.mp h
    rw [List.cons_append, hf.plain hescape hquote, ih hrun, List.cons_append]

theorem pieces {ps : List Piece} (hps : ∀ p ∈ ps, p.Valid) (r : List Char) :
    f true (ps.flatMap Piece.chars ++ r) = ps.flatMap Piece.chars ++ f true r := by
  induction ps with
  | nil => rfl
  | cons p ps ih =>
    obtain ⟨hp, hps⟩ := List.forall_mem_cons.mp hps
    have ih := ih hps
    rw [List.flatMap_cons, List.append_assoc, List.append_assoc, ← ih]
    generalize ps.flatMap Piece.chars ++ r = rest
    cases p with
    | plain c =>
      obtain ⟨-, hquote, hescape⟩ := hp
      exact hf.plain hescape hquote rest
    | escape mark c => exact hf.escape mark rest
    | unit a b c d n =>
      have hdigits := hf.run (hex_of_codeUnit? hp) rest
      rw [Piece.chars, List.cons_append, List.cons_append, hf.escape]
      exact congrArg _ (congrArg _ hdigits)

/-- A string is left as it is. -/
theorem quoted {σ : Type} [OfPoints σ] {s : σ} {t : List Char} (h : Quoted s t) (r : List Char) :
    f false (t ++ r) = t ++ f false r := by
  cases h with
  | intro hps =>
    rw [List.cons_append, List.append_assoc, List.singleton_append, hf.opening, hf.pieces hps, hf.closing]
    simp

/-! What was left inside of a string is what stood there. -/

theorem exists_of_plain {c : Char} {x s : List Char} (hc : c ≠ '\\') (hquote : c ≠ '"') (h : f true s = c :: x) :
    ∃ r, s = c :: r ∧ f true r = x := by
  cases s with
  | nil => simp [hf.nil] at h
  | cons b r =>
    by_cases hb : b = '\\'
    · subst hb
      cases r with
      | nil =>
        rw [hf.loneEscape] at h
        exact absurd (List.cons.inj h).1.symm hc
      | cons b r =>
        rw [hf.escape] at h
        exact absurd (List.cons.inj h).1.symm hc
    · rw [hf.other hb] at h
      obtain ⟨rfl, hx⟩ := List.cons.inj h
      have hstays : (b != '"') = true := bne_iff_ne.mpr hquote
      exact ⟨r, rfl, by rw [← hx, hstays]⟩

theorem exists_of_run {run : List Char} (hrun : ∀ c ∈ run, c ≠ '\\' ∧ c ≠ '"') {x s : List Char}
    (h : f true s = run ++ x) : ∃ r, s = run ++ r ∧ f true r = x := by
  induction run generalizing s with
  | nil => exact ⟨s, rfl, h⟩
  | cons c run ih =>
    obtain ⟨⟨hescape, hquote⟩, hrun⟩ := List.forall_mem_cons.mp hrun
    obtain ⟨r, rfl, hr⟩ := hf.exists_of_plain hescape hquote h
    obtain ⟨r', rfl, hr'⟩ := ih hrun hr
    exact ⟨r', rfl, hr'⟩

theorem exists_of_escape {c : Char} {x s : List Char} (h : f true s = '\\' :: c :: x) :
    ∃ r, s = '\\' :: c :: r ∧ f true r = x := by
  cases s with
  | nil => simp [hf.nil] at h
  | cons b r =>
    by_cases hb : b = '\\'
    · subst hb
      cases r with
      | nil => simp [hf.loneEscape] at h
      | cons b r =>
        rw [hf.escape] at h
        simp only [List.cons.injEq, true_and] at h
        obtain ⟨rfl, rfl⟩ := h
        exact ⟨r, rfl, rfl⟩
    · rw [hf.other hb] at h
      exact absurd (List.cons.inj h).1 hb

theorem exists_of_closing {x s : List Char} (h : f true s = '"' :: x) : ∃ r, s = '"' :: r ∧ f false r = x := by
  cases s with
  | nil => simp [hf.nil] at h
  | cons b r =>
    by_cases hb : b = '\\'
    · subst hb
      cases r with
      | nil =>
        rw [hf.loneEscape] at h
        exact absurd (List.cons.inj h).1 (by decide)
      | cons b r =>
        rw [hf.escape] at h
        exact absurd (List.cons.inj h).1 (by decide)
    · rw [hf.other hb] at h
      obtain ⟨rfl, hx⟩ := List.cons.inj h
      exact ⟨r, rfl, hx⟩

theorem exists_of_pieces {ps : List Piece} (hps : ∀ p ∈ ps, p.Valid) {x s : List Char}
    (h : f true s = ps.flatMap Piece.chars ++ x) : ∃ r, s = ps.flatMap Piece.chars ++ r ∧ f true r = x := by
  induction ps generalizing s with
  | nil => exact ⟨s, rfl, h⟩
  | cons p ps ih =>
    obtain ⟨hp, hps⟩ := List.forall_mem_cons.mp hps
    rw [List.flatMap_cons, List.append_assoc] at h
    obtain ⟨r, rfl, hr⟩ : ∃ r, s = p.chars ++ r ∧ f true r = ps.flatMap Piece.chars ++ x := by
      cases p with
      | plain c =>
        obtain ⟨-, hquote, hescape⟩ := hp
        exact hf.exists_of_plain hescape hquote h
      | escape mark c => exact hf.exists_of_escape h
      | unit a b c d n =>
        obtain ⟨r, rfl, hr⟩ := hf.exists_of_escape h
        obtain ⟨r', rfl, hr'⟩ := hf.exists_of_run (hex_of_codeUnit? hp) hr
        exact ⟨r', rfl, hr'⟩
    obtain ⟨r', rfl, hr'⟩ := ih hps hr
    exact ⟨r', by simp, hr'⟩

theorem exists_of_quoted {σ : Type} [OfPoints σ] {name : σ} {t x s : List Char} (ht : Quoted name t)
    (h : '"' :: f true s = t ++ x) : ∃ r, '"' :: s = t ++ r ∧ f false r = x := by
  cases ht with
  | intro hps =>
    rw [List.cons_append, List.append_assoc, List.singleton_append, List.cons.injEq] at h
    obtain ⟨r, rfl, hr⟩ := hf.exists_of_pieces hps h.2
    obtain ⟨r', rfl, hr'⟩ := hf.exists_of_closing hr
    exact ⟨r', by simp, hr'⟩

end Copying

/-! Outside of strings. -/

section outside

variable {c : Char} {g r s : List Char}

theorem uncommented_other (hquote : c ≠ '"') (hslash : c ≠ '/') (r : List Char) :
    uncommented false (c :: r) = c :: uncommented false r :=
  uncommented.eq_7 c r hquote (fun _ h => absurd h hslash) (fun _ h => absurd h hslash)

theorem untrailed_other (hquote : c ≠ '"') (hcomma : c ≠ ',') (r : List Char) :
    untrailed false (c :: r) = c :: untrailed false r :=
  untrailed.eq_6 c r hquote hcomma

theorem cleaned_other (hquote : c ≠ '"') (hslash : c ≠ '/') (hcomma : c ≠ ',') (r : List Char) :
    cleaned false (c :: r) = c :: cleaned false r := by
  rw [cleaned, uncommented_other hquote hslash, untrailed_other hquote hcomma, cleaned]

theorem isBlank_of_isSpace (h : isSpace c = true) : Text.isBlank c = true := by
  have hc : ((c = ' ' ∨ c = '\t') ∨ c = '\n') ∨ c = '\r' := by simpa [isSpace] using h
  rcases hc with ((rfl | rfl) | rfl) | rfl <;> rfl

theorem ne_of_isSpace {b : Char} (h : isSpace c = true) (hb : isSpace b = false) : c ≠ b := by
  rintro rfl
  simp [hb] at h

theorem AllBlank.isBlank (h : AllBlank g) : ∀ c ∈ g, Text.isBlank c = true := fun c hc => isBlank_of_isSpace (h c hc)

theorem ne_of_isBlank {b : Char} (h : Text.isBlank c = true) (hb : Text.isBlank b = false) : c ≠ b := by
  rintro rfl
  simp [hb] at h

theorem untrailed_blanks (h : ∀ c ∈ g, Text.isBlank c = true) (r : List Char) :
    untrailed false (g ++ r) = g ++ untrailed false r := by
  induction g with
  | nil => rfl
  | cons b g ih =>
    obtain ⟨hb, hg⟩ := List.forall_mem_cons.mp h
    rw [List.cons_append, untrailed_other (ne_of_isBlank hb rfl) (ne_of_isBlank hb rfl), ih hg, List.cons_append]

theorem lineRest_append {body : List Char} (h : '\n' ∉ body) (r : List Char) :
    lineRest (body ++ '\n' :: r) = body.length := by
  have hbody : ∀ c ∈ body, (c != '\n') = true := fun c hc => bne_iff_ne.mpr (ne_of_mem_of_not_mem hc h)
  rw [lineRest, List.takeWhile_append_of_pos hbody]
  simp

theorem lineRest_of_notMem (h : '\n' ∉ s) : lineRest s = s.length := by
  have hs : ∀ c ∈ s, (c != '\n') = true := fun c hc => bne_iff_ne.mpr (ne_of_mem_of_not_mem hc h)
  rw [lineRest, List.takeWhile_eq_self_iff.mpr hs]

theorem blockRest_cons {b : Char} (h : ¬ ['*', '/'] <+: b :: s) (n : Nat) : blockRest (b :: s) n = blockRest s (n + 1) := by
  rw [blockRest]
  rintro r rfl rfl
  exact h (by simp)

theorem blockRest_of_open (h : ¬ ['*', '/'] <:+: s) (n : Nat) : blockRest s n = n + s.length := by
  induction s generalizing n with
  | nil => rfl
  | cons b s ih =>
    rw [List.infix_cons_iff, not_or] at h
    rw [blockRest_cons h.1, ih h.2, List.length_cons]
    omega

theorem blockRest_append {body : List Char} (h : ¬ ['*', '/'] <:+: body) (r : List Char) (n : Nat) :
    blockRest (body ++ '*' :: '/' :: r) n = n + (body.length + 2) := by
  induction body generalizing n with
  | nil => rfl
  | cons b body ih =>
    rw [List.infix_cons_iff, not_or] at h
    have hb : ¬ ['*', '/'] <+: b :: (body ++ '*' :: '/' :: r) := by
      rintro ⟨rest, hrest⟩
      refine h.1 ?_
      cases body with
      | nil => simp at hrest
      | cons b' body =>
        simp only [List.cons_append, List.nil_append, List.cons.injEq] at hrest
        exact ⟨body, by rw [← hrest.1, ← hrest.2.1]; rfl⟩
    rw [List.cons_append, blockRest_cons hb, ih h.2, List.length_cons]
    omega

/-- Up to its first end a block comment has none. -/
theorem exists_block_of_infix (h : ['*', '/'] <:+: s) :
    ∃ body r, ¬ ['*', '/'] <:+: body ∧ s = body ++ '*' :: '/' :: r := by
  induction s with
  | nil => simp at h
  | cons b s ih =>
    by_cases hprefix : ['*', '/'] <+: b :: s
    · obtain ⟨r, hr⟩ := hprefix
      exact ⟨[], r, by simp, hr.symm⟩
    · rw [List.infix_cons_iff, or_iff_right hprefix] at h
      obtain ⟨body, r, hbody, rfl⟩ := ih h
      refine ⟨b :: body, r, ?_, rfl⟩
      rw [List.infix_cons_iff, not_or]
      refine ⟨fun hb => hprefix ?_, hbody⟩
      exact hb.trans ⟨_, rfl⟩

theorem uncommented_line {body : List Char} (h : '\n' ∉ body) (r : List Char) :
    uncommented false ('/' :: '/' :: (body ++ '\n' :: r)) = '\n' :: uncommented false r := by
  rw [uncommented, lineRest_append h, List.drop_left, uncommented_other (by decide) (by decide)]

theorem uncommented_lastLine {body : List Char} (h : '\n' ∉ body) :
    uncommented false ('/' :: '/' :: body) = [] := by
  rw [uncommented, lineRest_of_notMem h, List.drop_length, uncommented]

theorem uncommented_block {body : List Char} (h : ¬ ['*', '/'] <:+: body) (r : List Char) :
    uncommented false ('/' :: '*' :: (body ++ '*' :: '/' :: r)) =
      body.filter (· == '\n') ++ uncommented false r := by
  have htext : body ++ '*' :: '/' :: r = (body ++ ['*', '/']) ++ r := by simp
  have hlength : blockRest (body ++ '*' :: '/' :: r) 0 = (body ++ ['*', '/']).length := by
    simp [blockRest_append h]
  rw [uncommented.eq_6]
  simp only [hlength]
  rw [htext, List.take_left, List.drop_left]
  simp

theorem uncommented_openBlock {body : List Char} (h : ¬ ['*', '/'] <:+: body) :
    uncommented false ('/' :: '*' :: body) = body.filter (· == '\n') := by
  rw [uncommented.eq_6]
  simp [blockRest_of_open h, uncommented]

theorem allBlank_filter (s : List Char) : AllBlank (s.filter (· == '\n')) := by
  intro c hc
  obtain rfl : c = '\n' := by simpa using (List.mem_filter.mp hc).2
  rfl

/-! Gaps. -/

theorem AllBlank.append {b b' : List Char} (h : AllBlank b) (h' : AllBlank b') : AllBlank (b ++ b') :=
  List.forall_mem_append.mpr ⟨h, h'⟩

theorem Gap.append {g' : List Char} (h : Gap g) (h' : Gap g') : Gap (g ++ g') := by
  induction h with
  | nil => exact h'
  | blank hc _ ih => exact .blank hc ih
  | comment hk _ ih =>
    rw [List.append_assoc]
    exact .comment hk ih

/-- A comment is left as its line feeds. -/
theorem uncommented_comment {k : List Char} (h : Comment k) :
    ∃ blanks, AllBlank blanks ∧ (∀ r, uncommented false (k ++ r) = blanks ++ uncommented false r) ∧
      (blanks = [] → ∀ r, Inline r → Inline (k ++ r)) := by
  cases h with
  | line hbody =>
    refine ⟨['\n'], List.forall_mem_singleton.mpr rfl, fun r => ?_, nofun⟩
    simpa using uncommented_line hbody r
  | @block body hbody =>
    refine ⟨body.filter (· == '\n'), allBlank_filter body, fun r => ?_, fun hnone r hr => ?_⟩
    · simpa using uncommented_block hbody r
    · have hline : '\n' ∉ body := fun hmem => by simpa using List.filter_eq_nil_iff.mp hnone _ hmem
      simpa using Inline.comment hbody hline hr

theorem uncommented_gap (h : Gap g) :
    ∃ blanks, AllBlank blanks ∧ ∀ r, uncommented false (g ++ r) = blanks ++ uncommented false r := by
  induction h with
  | nil => exact ⟨[], nofun, fun _ => rfl⟩
  | @blank c g hc _ ih =>
    obtain ⟨blanks, hblanks, hrest⟩ := ih
    refine ⟨c :: blanks, List.forall_mem_cons.mpr ⟨hc, hblanks⟩, fun r => ?_⟩
    rw [List.cons_append, uncommented_other (ne_of_isSpace hc rfl) (ne_of_isSpace hc rfl), hrest, List.cons_append]
  | comment hk _ ih =>
    obtain ⟨blanks, hblanks, hrest⟩ := ih
    obtain ⟨feeds, hfeeds, hleft, -⟩ := uncommented_comment hk
    exact ⟨feeds ++ blanks, hfeeds.append hblanks, fun r => by simp [hleft, hrest]⟩

theorem uncommented_inline (h : Inline g) (r : List Char) : uncommented false (g ++ r) = uncommented false r := by
  induction h with
  | nil => rfl
  | @comment body g hbody hline _ ih =>
    have hnone : body.filter (· == '\n') = [] := by
      simpa [List.filter_eq_nil_iff] using fun c hc => ne_of_mem_of_not_mem hc hline
    rw [List.cons_append, List.cons_append, List.append_assoc, List.cons_append, List.cons_append,
      uncommented_block hbody, hnone, List.nil_append, ih]

theorem cleaned_gap (h : Gap g) :
    ∃ blanks, AllBlank blanks ∧ ∀ r, cleaned false (g ++ r) = blanks ++ cleaned false r := by
  obtain ⟨blanks, hblanks, hrest⟩ := uncommented_gap h
  exact ⟨blanks, hblanks, fun r => by rw [cleaned, hrest, untrailed_blanks hblanks.isBlank, cleaned]⟩

/-! Commas. -/

def isCloser (c : Char) : Bool := c == '\x7d' || c == ']'

theorem closesNext_allBlank (h : AllBlank g) (r : List Char) : closesNext (g ++ r) = closesNext r := by
  rw [closesNext, Text.dropBlanks_append h.isBlank, closesNext]

theorem closesNext_cons (h : Text.isBlank c = false) (r : List Char) : closesNext (c :: r) = isCloser c := by
  have hkept : Text.dropBlanks (c :: r) = c :: r := Text.dropBlanks_eq_self_iff.mpr (by simpa using h)
  rw [closesNext, hkept, isCloser]

theorem exists_uncommented_cons (h : c ≠ '/') (r : List Char) :
    ∃ r', uncommented false (c :: r) = c :: r' := by
  by_cases hquote : c = '"'
  · subst hquote
    exact ⟨_, copying_uncommented.opening r⟩
  · exact ⟨_, uncommented_other hquote h r⟩

/-- The next character after a comma and its gap decides what becomes of the comma. -/
theorem cleaned_comma (hg : Gap g) (hblank : Text.isBlank c = false) (hslash : c ≠ '/') (r : List Char) :
    cleaned false (',' :: (g ++ c :: r)) =
      if isCloser c then cleaned false (g ++ c :: r) else ',' :: cleaned false (g ++ c :: r) := by
  obtain ⟨blanks, hblanks, hrest⟩ := uncommented_gap hg
  obtain ⟨r', hr'⟩ := exists_uncommented_cons hslash r
  have hcloses : closesNext (uncommented false (g ++ c :: r)) = isCloser c := by
    rw [hrest, hr', closesNext_allBlank hblanks, closesNext_cons hblank]
  rw [cleaned, uncommented_other (by decide) (by decide), untrailed, hcloses, cleaned]

/-! What stood before a character that is left. -/

/-- How a text can begin outside of a string. -/
inductive Front : List Char → Prop where
  | nil : Front []
  | quote (r : List Char) : Front ('"' :: r)
  | comment {k : List Char} (hk : Comment k) (r : List Char) : Front (k ++ r)
  | lastLine {body : List Char} (h : '\n' ∉ body) : Front ('/' :: '/' :: body)
  | openBlock {body : List Char} (h : ¬ ['*', '/'] <:+: body) : Front ('/' :: '*' :: body)
  | other {c : Char} {r : List Char} (hquote : c ≠ '"')
    (h : uncommented false (c :: r) = c :: uncommented false r) : Front (c :: r)

theorem front_slash (r : List Char) : Front ('/' :: r) := by
  cases r with
  | nil => exact .other (by decide) (by simp [uncommented])
  | cons b r =>
    by_cases hline : b = '/'
    · subst hline
      by_cases hend : '\n' ∈ r
      · obtain ⟨body, r, rfl, hbody⟩ := List.eq_append_cons_of_mem hend
        simpa using Front.comment (.line hbody) r
      · exact .lastLine hend
    by_cases hblock : b = '*'
    · subst hblock
      by_cases hend : ['*', '/'] <:+: r
      · obtain ⟨body, r, hbody, rfl⟩ := exists_block_of_infix hend
        simpa using Front.comment (.block hbody) r
      · exact .openBlock hend
    · refine .other (by decide) (uncommented.eq_7 '/' _ (by decide) ?_ ?_)
      · exact fun _ _ h => hline (List.cons.inj h).1
      · exact fun _ _ h => hblock (List.cons.inj h).1

theorem front (t : List Char) : Front t := by
  cases t with
  | nil => exact .nil
  | cons c r =>
    by_cases hquote : c = '"'
    · subst hquote
      exact .quote r
    by_cases hslash : c = '/'
    · subst hslash
      exact front_slash r
    · exact .other hquote (uncommented_other hquote hslash r)

theorem Comment.ne_nil {k : List Char} (h : Comment k) : k ≠ [] := by cases h <;> simp

/-- Two blank runs before the same text, one of which may be longer. -/
theorem append_blanks {b g x y : List Char} (hb : AllBlank b) (hc : isSpace c = false) (h : b ++ x = g ++ c :: y) :
    ∃ g', g = b ++ g' ∧ x = g' ++ c :: y := by
  obtain ⟨g', rfl, hx⟩ | ⟨b', rfl, hx⟩ := List.append_eq_append_iff.mp h
  · exact ⟨g', rfl, hx⟩
  · cases b' with
    | nil => exact ⟨[], by simp, by simpa using hx.symm⟩
    | cons d b' =>
      obtain ⟨rfl, -⟩ := List.cons.inj hx
      have hspace := hb c (List.mem_append_right g List.mem_cons_self)
      rw [hc] at hspace
      cases hspace

theorem uncommented_inv {t y : List Char} (hg : AllBlank g) (hc : isSpace c = false)
    (h : uncommented false t = g ++ c :: y) :
    ∃ k t', t = k ++ c :: t' ∧ uncommented (c == '"') t' = y ∧ Gap k ∧ (g = [] → Inline k) := by
  induction hn : t.length using Nat.strong_induction_on generalizing t g with
  | h n ih =>
  cases front t with
  | nil => simp [uncommented] at h
  | quote r =>
    rw [uncommented] at h
    cases g with
    | nil =>
      obtain ⟨rfl, hy⟩ := List.cons.inj h
      exact ⟨[], r, rfl, hy, .nil, fun _ => .nil⟩
    | cons b g =>
      obtain ⟨rfl, -⟩ := List.cons.inj h
      exact absurd (hg _ List.mem_cons_self) (by decide)
  | @comment k hk r =>
    obtain ⟨blanks, hblanks, hleft, hinline⟩ := uncommented_comment hk
    have hpos : 0 < k.length := List.length_pos_iff.mpr hk.ne_nil
    rw [hleft] at h
    obtain ⟨g', rfl, hr⟩ := append_blanks hblanks hc h
    have hg' : AllBlank g' := (List.forall_mem_append.mp hg).2
    rw [List.length_append] at hn
    obtain ⟨k', t', rfl, ht', hk', hk'inline⟩ := ih r.length (by omega) hg' hr rfl
    refine ⟨k ++ k', t', by simp, ht', .comment hk hk', fun hnil => ?_⟩
    obtain ⟨hnone, hg'nil⟩ := List.append_eq_nil_iff.mp hnil
    exact hinline hnone k' (hk'inline hg'nil)
  | lastLine hbody =>
    rw [uncommented_lastLine hbody] at h
    simp at h
  | @openBlock body hbody =>
    rw [uncommented_openBlock hbody] at h
    have hspace := allBlank_filter body c (by rw [h]; simp)
    rw [hc] at hspace
    cases hspace
  | @other b r hquote hleft =>
    rw [hleft] at h
    cases g with
    | nil =>
      obtain ⟨rfl, hy⟩ := List.cons.inj h
      have hfalse : (b == '"') = false := beq_eq_false_iff_ne.mpr hquote
      exact ⟨[], r, rfl, by rw [hfalse, hy], .nil, fun _ => .nil⟩
    | cons b' g =>
      obtain ⟨hspace, hg'⟩ := List.forall_mem_cons.mp hg
      obtain ⟨rfl, hr⟩ := List.cons.inj h
      rw [List.length_cons] at hn
      obtain ⟨k, t', rfl, ht', hk, -⟩ := ih r.length (by omega) hg' hr rfl
      exact ⟨b :: k, t', rfl, ht', .blank hspace hk, nofun⟩

theorem exists_of_closesNext (h : closesNext s = true) :
    ∃ b c r, (∀ x ∈ b, Text.isBlank x = true) ∧ s = b ++ c :: r ∧ Text.isBlank c = false ∧ isCloser c = true := by
  have hs : s = s.takeWhile Text.isBlank ++ Text.dropBlanks s := List.takeWhile_append_dropWhile.symm
  rw [closesNext] at h
  split at h
  case h_2 => cases h
  case h_1 c r hdrop =>
  refine ⟨s.takeWhile Text.isBlank, c, r, fun x hx => List.mem_takeWhile_imp hx, by rw [← hdrop]; exact hs, ?_, h⟩
  have hc : c = '\x7d' ∨ c = ']' := by simpa using h
  rcases hc with rfl | rfl <;> rfl

theorem untrailed_inv {y : List Char} (hg : AllBlank g) (hc : Text.isBlank c = false)
    (h : untrailed false s = g ++ c :: y) :
    (∃ s', s = g ++ c :: s' ∧ untrailed (c == '"') s' = y) ∨
      isCloser c = true ∧ ∃ g₁ g₂ s', g = g₁ ++ g₂ ∧ s = g₁ ++ ',' :: (g₂ ++ c :: s') ∧ untrailed (c == '"') s' = y := by
  induction s generalizing g with
  | nil => simp [untrailed] at h
  | cons b r ih =>
    by_cases hkept : untrailed false (b :: r) = b :: untrailed (b == '"') r
    · rw [hkept] at h
      cases g with
      | nil =>
        obtain ⟨rfl, hy⟩ := List.cons.inj h
        exact .inl ⟨r, rfl, hy⟩
      | cons b' g =>
        obtain ⟨hspace, hg'⟩ := List.forall_mem_cons.mp hg
        obtain ⟨rfl, hr⟩ := List.cons.inj h
        have hfalse : (b == '"') = false := beq_eq_false_iff_ne.mpr (ne_of_isSpace hspace rfl)
        rw [hfalse] at hr
        obtain ⟨s', rfl, hs'⟩ | ⟨hcloser, g₁, g₂, s', rfl, rfl, hs'⟩ := ih hg' hr
        · exact .inl ⟨s', rfl, hs'⟩
        · exact .inr ⟨hcloser, b :: g₁, g₂, s', rfl, rfl, hs'⟩
    -- Only a comma is dropped.
    have hcomma : b = ',' ∧ closesNext r = true := by
      by_contra hno
      refine hkept ?_
      by_cases hquote : b = '"'
      · subst hquote
        exact copying_untrailed.opening r
      have hfalse : (b == '"') = false := beq_eq_false_iff_ne.mpr hquote
      rw [hfalse]
      by_cases hcomma : b = ','
      · subst hcomma
        rw [untrailed, if_neg (by simpa using hno)]
      · exact untrailed_other hquote hcomma r
    obtain ⟨rfl, hcloses⟩ := hcomma
    rw [untrailed, if_pos hcloses] at h
    obtain ⟨b, d, s', hb, rfl, hd, hcloser⟩ := exists_of_closesNext hcloses
    have hquote : d ≠ '"' := by
      rintro rfl
      cases hcloser
    have hcomma : d ≠ ',' := by
      rintro rfl
      cases hcloser
    rw [untrailed_blanks hb, untrailed_other hquote hcomma] at h
    obtain ⟨rfl, rfl, rfl⟩ := Text.run_inj hb hg.isBlank hd hc h
    have hfalse : (d == '"') = false := beq_eq_false_iff_ne.mpr hquote
    exact .inr ⟨hcloser, [], b, s', rfl, rfl, by rw [hfalse]⟩

/-- Before a character that is left stood a gap, and before a closer there may have been a comma too. -/
theorem cleaned_inv {t y : List Char} (hg : AllBlank g) (hc : Text.isBlank c = false)
    (h : cleaned false t = g ++ c :: y) :
    ∃ k t', t = k ++ c :: t' ∧ cleaned (c == '"') t' = y ∧
      ((Gap k ∧ (g = [] → Inline k)) ∨
        isCloser c = true ∧ ∃ k₁ k₂, Gap k₁ ∧ Gap k₂ ∧ k = k₁ ++ ',' :: k₂) := by
  have hspace : isSpace c = false := by
    by_contra hno
    rw [isBlank_of_isSpace (by simpa using hno)] at hc
    cases hc
  obtain ⟨s', hs, hy⟩ | ⟨hcloser, g₁, g₂, s', rfl, hs, hy⟩ := untrailed_inv hg hc h
  · obtain ⟨k, t', rfl, ht', hk, hinline⟩ := uncommented_inv hg hspace hs
    exact ⟨k, t', rfl, by rw [cleaned, ht', hy], .inl ⟨hk, hinline⟩⟩
  · obtain ⟨hg₁, hg₂⟩ := List.forall_mem_append.mp hg
    obtain ⟨k₁, t₁, rfl, ht₁, hk₁, -⟩ := uncommented_inv hg₁ (by decide) hs
    obtain ⟨k₂, t', rfl, ht', hk₂, -⟩ := uncommented_inv hg₂ hspace ht₁
    exact ⟨k₁ ++ ',' :: k₂, t', by simp, by rw [cleaned, ht', hy], .inr ⟨hcloser, k₁, k₂, hk₁, hk₂, rfl⟩⟩

end outside

end QualityGate.Json
