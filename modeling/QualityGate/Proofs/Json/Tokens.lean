import QualityGate.Proofs.Json.Spelling

/-! What the reader takes for a string, a number or a word. -/

namespace QualityGate.Json

/-! Strings. -/

section strings

variable {σ : Type} [OfPoints σ] {a b c d : Char} {n start index : Nat} {rest s : List Char} {acc : List Nat}
  {ps : List Piece}

theorem stringFrom_unit (h : codeUnit? a b c d = some n) (hrest : rest ≠ [])
    (halone : ∀ a b c d r, rest = '\\' :: 'u' :: a :: b :: c :: d :: r → r ≠ [] →
      ∃ low, codeUnit? a b c d = some low ∧ (isHighSurrogate n && isLowSurrogate low) = false) :
    (stringFrom start index ('\\' :: 'u' :: a :: b :: c :: d :: rest) acc : Except Fault (Step σ)) =
      stringFrom start (index + 6) rest (n :: acc) := by
  have hempty : rest.isEmpty = false := by simpa using hrest
  rw [stringFrom]
  simp only [hempty, h, Bool.false_eq_true, if_false]
  split
  case h_2 => rfl
  case h_1 a b c d r =>
    split
    case isFalse => rfl
    case isTrue hhigh =>
      obtain ⟨hhigh, hr⟩ : isHighSurrogate n = true ∧ r ≠ [] := by simpa using hhigh
      obtain ⟨low, hlow, hpair⟩ := halone a b c d r rfl hr
      simp only [hhigh, Bool.true_and] at hpair
      simp only [hlow, hpair, Bool.false_eq_true, if_false]

/-- Only a code unit is written with the mark of one. -/
theorem exists_unit_of_chars (hps : ∀ p ∈ ps, p.Valid)
    (h : ps.flatMap Piece.chars ++ '"' :: rest = '\\' :: 'u' :: s) :
    ∃ a b c d n qs, ps = .unit a b c d n :: qs ∧ codeUnit? a b c d = some n := by
  cases ps with
  | nil => simp at h
  | cons p qs =>
    have hp := hps p List.mem_cons_self
    cases p with
    | plain c =>
      obtain ⟨rfl, -⟩ : c = '\\' ∧ _ := by simpa [Piece.chars] using h
      exact absurd rfl hp.2.2
    | escape mark c =>
      obtain ⟨rfl, -⟩ : mark = 'u' ∧ _ := by simpa [Piece.chars] using h
      cases hp
    | unit a b c d n => exact ⟨a, b, c, d, n, qs, rfl, hp⟩

theorem stringFrom_pieces (hps : ∀ p ∈ ps, p.Valid) (start index : Nat) (rest : List Char) (acc : List Nat) :
    ∃ index', (stringFrom start index (ps.flatMap Piece.chars ++ '"' :: rest) acc : Except Fault (Step σ)) =
      .ok ⟨ofPoints (acc.reverse ++ meaning ps), index', rest⟩ := by
  fun_induction meaning ps generalizing index acc with
  | case1 a b c d high a' b' c' d' low ps hpair ih =>
    obtain ⟨hh, hl, hps⟩ : codeUnit? a b c d = some high ∧ codeUnit? a' b' c' d' = some low ∧ ∀ p ∈ ps, p.Valid := by
      simpa [Piece.Valid] using hps
    obtain ⟨index', h⟩ := ih hps (index + 12) (pairPoint high low :: acc)
    refine ⟨index', ?_⟩
    simp only [List.flatMap_cons, Piece.chars, List.cons_append, List.nil_append]
    rw [stringFrom_unitPair hh hl hpair (by simp), h]
    simp
  | case2 a b c d high a' b' c' d' low ps hpair ih =>
    obtain ⟨hh, hps⟩ : codeUnit? a b c d = some high ∧ ∀ p ∈ .unit a' b' c' d' low :: ps, p.Valid := by
      simpa [Piece.Valid] using hps
    obtain ⟨index', h⟩ := ih hps (index + 6) (high :: acc)
    refine ⟨index', ?_⟩
    rw [List.flatMap_cons]
    simp only [Piece.chars, List.cons_append, List.nil_append]
    rw [stringFrom_unit hh (by simp), h]
    · simp
    · rintro _ _ _ _ _ hr -
      obtain ⟨rfl, rfl, rfl, rfl, -⟩ : a' = _ ∧ b' = _ ∧ c' = _ ∧ d' = _ ∧ _ := by
        simpa [Piece.chars] using hr
      have hl : codeUnit? a' b' c' d' = some low := hps _ List.mem_cons_self
      exact ⟨low, hl, by simpa using hpair⟩
  | case3 a b c d n ps halone ih =>
    obtain ⟨hn, hps⟩ : codeUnit? a b c d = some n ∧ ∀ p ∈ ps, p.Valid := by simpa [Piece.Valid] using hps
    obtain ⟨index', h⟩ := ih hps (index + 6) (n :: acc)
    refine ⟨index', ?_⟩
    simp only [List.flatMap_cons, Piece.chars, List.cons_append, List.nil_append]
    rw [stringFrom_unit hn (by simp), h]
    · simp
    · intro _ _ _ _ _ hr _
      obtain ⟨_, _, _, _, _, qs, hqs, -⟩ := exists_unit_of_chars hps hr
      exact absurd hqs (halone _ _ _ _ _ qs)
  | case4 mark c ps ih =>
    obtain ⟨hc, hps⟩ : simpleEscape? mark = some c ∧ ∀ p ∈ ps, p.Valid := by simpa [Piece.Valid] using hps
    obtain ⟨index', h⟩ := ih hps (index + 2) (c.toNat :: acc)
    refine ⟨index', ?_⟩
    simp only [List.flatMap_cons, Piece.chars, List.cons_append, List.nil_append]
    rw [stringFrom, hc]
    · simpa using h
    · rintro rfl
      cases hc
  | case5 c ps ih =>
    obtain ⟨⟨hcontrol, hquote, hslash⟩, hps⟩ : (Piece.plain c).Valid ∧ ∀ p ∈ ps, p.Valid := by simpa using hps
    obtain ⟨index', h⟩ := ih hps (index + 1) (c.toNat :: acc)
    refine ⟨index', ?_⟩
    simp only [List.flatMap_cons, Piece.chars, List.cons_append, List.nil_append]
    rw [stringFrom_plain hquote hslash hcontrol, h]
    simp
  | case6 => exact ⟨index + 1, by simp [stringFrom]⟩

/-- Whether `s` is read as a string from after some characters that were read before. -/
def Pieced (s : List Char) (acc : List Nat) (st : Step σ) : Prop :=
  ∃ ps : List Piece, (∀ p ∈ ps, p.Valid) ∧ s = ps.flatMap Piece.chars ++ '"' :: st.rest ∧
    st.value = ofPoints (acc.reverse ++ meaning ps)

theorem meaning_unit (halone : ∀ a' b' c' d' low qs, ps = .unit a' b' c' d' low :: qs →
    (isHighSurrogate n && isLowSurrogate low) = false) :
    meaning (.unit a b c d n :: ps) = n :: meaning ps := by
  cases ps with
  | nil => rfl
  | cons p qs =>
    cases p with
    | unit a' b' c' d' low => rw [meaning, halone a' b' c' d' low qs rfl, if_neg Bool.false_ne_true]
    | _ => rfl

/-- A unit that is no half of a character with what follows it. -/
theorem Pieced.unit {st : Step σ} (hn : codeUnit? a b c d = some n)
    (halone : ∀ a b c d low r, s = '\\' :: 'u' :: a :: b :: c :: d :: r → r ≠ [] → codeUnit? a b c d = some low →
      (isHighSurrogate n && isLowSurrogate low) = false)
    (h : Pieced s (n :: acc) st) : Pieced ('\\' :: 'u' :: a :: b :: c :: d :: s) acc st := by
  obtain ⟨ps, hps, hs, hvalue⟩ := h
  refine ⟨.unit a b c d n :: ps, ?_, by simp [hs, Piece.chars], ?_⟩
  · simpa using ⟨hn, hps⟩
  · rw [hvalue, meaning_unit]
    · simp
    · rintro a' b' c' d' low qs rfl
      exact halone a' b' c' d' low _ (by simpa [Piece.chars] using hs) (by simp) (hps _ List.mem_cons_self)

theorem pieced_of_stringFrom {st : Step σ} (h : stringFrom start index s acc = .ok st) : Pieced s acc st := by
  fun_induction @stringFrom σ _ start index s acc
  case case2 =>
    cases h
    exact ⟨[], by simp, rfl, by simp [meaning]⟩
  case case7 a b c d high hhigh a' b' c' d' r hmore low hlow hsecond _ ih =>
    obtain ⟨ps, hps, rfl, hvalue⟩ := ih h
    have hpair : (isHighSurrogate high && isLowSurrogate low) = true := by simp_all
    refine ⟨.unit a b c d high :: .unit a' b' c' d' low :: ps, ?_, by simp [Piece.chars], ?_⟩
    · simpa using ⟨hhigh, hlow, hps⟩
    · rw [hvalue, meaning, if_pos hpair]
      simp
  case case8 high hhigh _ _ _ _ _ _ low hlow hsecond _ ih =>
    refine (ih h).unit hhigh ?_
    rintro _ _ _ _ low' _ ⟨⟩ - hlow'
    obtain rfl : low = low' := Option.some.inj (hlow.symm.trans hlow')
    simp [hsecond]
  case case9 high hhigh _ _ _ _ r hlone _ ih =>
    refine (ih h).unit hhigh ?_
    rintro _ _ _ _ low r ⟨⟩ hr -
    have hfirst : isHighSurrogate high = false := by simpa [hr] using hlone
    simp [hfirst]
  case case10 n hn _ hplain _ ih =>
    refine (ih h).unit hn ?_
    intro a b c d _ r hr
    exact (hplain a b c d r hr).elim
  case case12 mark r acc _ c hc ih =>
    obtain ⟨ps, hps, rfl, hvalue⟩ := ih h
    refine ⟨.escape mark c :: ps, ?_, by simp [Piece.chars], by simp [hvalue, meaning]⟩
    simpa using ⟨hc, hps⟩
  case case15 c r acc hquote hlast hunit hescape hcontrol ih =>
    obtain ⟨ps, hps, rfl, hvalue⟩ := ih h
    have hslash : c ≠ '\\' := by
      rintro rfl
      cases hr : ps.flatMap Piece.chars ++ '"' :: st.rest with
      | nil => simp at hr
      | cons e r => exact hescape e r rfl hr
    refine ⟨.plain c :: ps, ?_, by simp [Piece.chars], by simp [hvalue, meaning]⟩
    simpa using ⟨⟨by omega, hquote, hslash⟩, hps⟩
  all_goals cases h

/-- Where no string is read, the text is at fault. -/
theorem isSyntax_of_stringFrom {f : Fault} (h : (stringFrom start index s acc : Except Fault (Step σ)) = .error f) :
    f.problem.isSyntax = true := by
  fun_induction @stringFrom σ _ start index s acc
  case case7 ih | case8 ih | case9 ih | case10 ih | case12 ih | case15 ih => exact ih h
  all_goals cases h <;> rfl

end strings

/-! Digits. -/

section digits

variable {c : Char} {ds r s : List Char}

theorem toNat_of_isAsciiDigit (h : isAsciiDigit c = true) : 48 ≤ c.toNat ∧ c.toNat ≤ 57 := by
  have hc : 48 ≤ c.val ∧ c.val ≤ 57 := by simpa [isAsciiDigit, Char.le_def] using h
  exact hc

theorem digitChar_of_isAsciiDigit (h : isAsciiDigit c = true) : (c.toNat - 48).digitChar = c := by
  have hc := toNat_of_isAsciiDigit h
  apply Char.toNat_inj.mp
  rw [Nat.toNat_digitChar_of_lt_ten (by omega)]
  omega

theorem toDigits_foldl (h : ∀ c ∈ ds, isAsciiDigit c = true) {n : Nat} (hn : 0 < n) :
    Nat.toDigits 10 (ds.foldl (fun n c => n * 10 + (c.toNat - 48)) n) = Nat.toDigits 10 n ++ ds := by
  induction ds generalizing n with
  | nil => simp
  | cons c ds ih =>
    obtain ⟨hc, hds⟩ := List.forall_mem_cons.mp h
    have hrange := toNat_of_isAsciiDigit hc
    have hdigit : c.toNat - 48 < 10 := by omega
    have hsplit := Nat.toDigits_append_toDigits (b := 10) (by decide) hn hdigit
    rw [Nat.toDigits_of_lt_base hdigit, digitChar_of_isAsciiDigit hc, Nat.mul_comm] at hsplit
    rw [List.foldl_cons, ih hds (by omega), ← hsplit]
    simp

/-- Digits without a zero in front are those of the number that they spell. -/
theorem toDigits_asciiNat (h : ∀ d ∈ c :: ds, isAsciiDigit d = true) (hc : c ≠ '0') :
    Nat.toDigits 10 (asciiNat (c :: ds)) = c :: ds := by
  obtain ⟨hdigit, hds⟩ := List.forall_mem_cons.mp h
  have hrange := toNat_of_isAsciiDigit hdigit
  have hne : c.toNat ≠ 48 := fun he => hc (Char.toNat_inj.mp he)
  rw [asciiNat, List.foldl_cons, Nat.zero_mul, Nat.zero_add, toDigits_foldl hds (by omega),
    Nat.toDigits_of_lt_base (by omega), digitChar_of_isAsciiDigit hdigit]
  rfl

/-- The whole part of a number. -/
def wholeDigits : List Char → List Char
  | '0' :: _ => ['0']
  | s => s.takeWhile isAsciiDigit

theorem wholeDigits_append (s : List Char) : s = wholeDigits s ++ s.drop (wholeDigits s).length := by
  fun_cases wholeDigits s with
  | case1 => rfl
  | case2 => exact (List.prefix_iff_eq_append.mp (List.takeWhile_prefix isAsciiDigit)).symm

theorem isAsciiDigit_of_mem_wholeDigits (h : c ∈ wholeDigits s) : isAsciiDigit c = true := by
  revert h
  fun_cases wholeDigits s with
  | case1 =>
    intro h
    rw [List.mem_singleton.mp h]
    rfl
  | case2 => exact fun h => List.mem_takeWhile_imp h

theorem wholeDigits_toDigits (h : wholeDigits s ≠ []) :
    Nat.toDigits 10 (asciiNat (wholeDigits s)) = wholeDigits s := by
  have hdigits : ∀ c ∈ wholeDigits s, isAsciiDigit c = true := fun c hc => isAsciiDigit_of_mem_wholeDigits hc
  revert h hdigits
  fun_cases wholeDigits s with
  | case1 => exact fun _ _ => rfl
  | case2 s hzero =>
    intro h hdigits
    cases s with
    | nil => simp at h
    | cons c s =>
      have hc : isAsciiDigit c = true := by
        by_contra hc
        simp [hc] at h
      rw [List.takeWhile_cons_of_pos hc] at hdigits ⊢
      exact toDigits_asciiNat hdigits fun he => hzero s (by rw [he])

theorem wholeDigits_of_toDigits (n : Nat) (h : ∀ c ∈ r.head?, isAsciiDigit c = false) :
    wholeDigits (Nat.toDigits 10 n ++ r) = Nat.toDigits 10 n := by
  have hall : ∀ c ∈ Nat.toDigits 10 n, isAsciiDigit c = true := fun c hc => isAsciiDigit_of_mem_toDigits hc
  have hrest : r.takeWhile isAsciiDigit = [] := by
    cases r with
    | nil => rfl
    | cons c r => simp [h c rfl]
  rcases toDigits_eq_zero_or n with hz | ⟨d, ds, hd, hne⟩
  · rw [hz]
    rfl
  · rw [hd] at hall ⊢
    rw [List.cons_append, wholeDigits, ← List.cons_append, List.takeWhile_append_of_pos hall, hrest, List.append_nil]
    intro r he
    exact hne (List.cons.inj he).1

theorem Fraction.length_eq {f : List Char} (h : Fraction f ds) :
    f.length = if ds.isEmpty then 0 else ds.length + 1 := by
  cases h with
  | absent => rfl
  | present hne => rw [if_neg (by simpa using hne), List.length_cons]

theorem exists_fraction (s : List Char) : ∃ f r, s = f ++ r ∧ Fraction f (fractionDigits s) := by
  fun_cases fractionDigits s with
  | case1 r =>
    by_cases h : r.takeWhile isAsciiDigit = []
    · rw [h]
      exact ⟨[], '.' :: r, rfl, .absent⟩
    · refine ⟨'.' :: r.takeWhile isAsciiDigit, r.dropWhile isAsciiDigit, by simp, ?_⟩
      exact .present h fun c hc => List.mem_takeWhile_imp hc
  | case2 => exact ⟨[], s, rfl, .absent⟩

theorem fractionDigits_append {f : List Char} (h : Fraction f ds)
    (hr : ∀ c ∈ r.head?, isAsciiDigit c = false ∧ c ≠ '.') : fractionDigits (f ++ r) = ds := by
  cases h with
  | absent =>
    cases r with
    | nil => rfl
    | cons c r =>
      rw [List.nil_append, fractionDigits]
      exact fun r he => (hr c rfl).2 (List.cons.inj he).1
  | present hne hds =>
    rw [List.cons_append, fractionDigits, List.takeWhile_append_of_pos hds]
    cases r with
    | nil => simp
    | cons c r => simp [(hr c rfl).1]

/-- The sign of an exponent, its text and what follows. -/
def exponentSign : List Char → List Char × Int × List Char
  | '-' :: r => (['-'], -1, r)
  | '+' :: r => (['+'], 1, r)
  | r => ([], 1, r)

theorem exponentPart_eq (c : Char) (r : List Char) :
    exponentPart (c :: r) =
      if c = 'e' ∨ c = 'E' then
        let (text, sign, r) := exponentSign r
        let ds := r.takeWhile isAsciiDigit
        if ds = [] then (0, 0) else (1 + text.length + ds.length, sign * asciiNat ds)
      else (0, 0) := by
  unfold exponentPart
  fun_cases exponentSign r <;> simp

theorem exponentSign_append (r : List Char) : r = (exponentSign r).1 ++ (exponentSign r).2.2 := by
  fun_cases exponentSign r <;> rfl

theorem exponentSign_mem (r : List Char) :
    ((exponentSign r).1, (exponentSign r).2.1) ∈ [([], (1 : Int)), (['+'], 1), (['-'], -1)] := by
  fun_cases exponentSign r <;> simp

theorem exists_exponent (s : List Char) :
    ∃ x r, s = x ++ r ∧ Exponent x (exponentPart s).2 ∧ x.length = (exponentPart s).1 := by
  have habsent : ∀ p : Nat × Int, p = (0, 0) → ∃ x r, s = x ++ r ∧ Exponent x p.2 ∧ x.length = p.1 := by
    rintro _ rfl
    exact ⟨[], s, rfl, .absent, rfl⟩
  cases s with
  | nil => exact habsent _ rfl
  | cons c r =>
    rw [exponentPart_eq]
    split
    case isFalse => exact habsent _ rfl
    case isTrue hc =>
      have hsplit := exponentSign_append r
      have hmem := exponentSign_mem r
      generalize exponentSign r = found at hsplit hmem ⊢
      obtain ⟨text, sign, rest⟩ := found
      dsimp only at hsplit hmem ⊢
      split
      case isTrue => exact habsent _ rfl
      case isFalse hne =>
        refine ⟨c :: (text ++ rest.takeWhile isAsciiDigit), rest.dropWhile isAsciiDigit, by simp [hsplit], ?_, ?_⟩
        · exact .present hc hmem hne fun c hc => List.mem_takeWhile_imp hc
        · simp only [List.length_cons, List.length_append]
          omega

theorem exponentPart_append {x : List Char} {e : Int} (h : Exponent x e) (hr : EndsNumber r) :
    exponentPart (x ++ r) = (x.length, e) := by
  cases h with
  | absent => exact exponentPart_of_ends hr
  | @present mark text ds sign hmark hsign hne hds =>
    have hdigits : (ds ++ r).takeWhile isAsciiDigit = ds := by
      rw [List.takeWhile_append_of_pos hds]
      cases r with
      | nil => simp
      | cons c r => simp [(hr c rfl).1]
    have hread : exponentSign (text ++ (ds ++ r)) = (text, sign, ds ++ r) := by
      obtain ⟨d, ds, rfl⟩ := List.exists_cons_of_ne_nil hne
      have hd := toNat_of_isAsciiDigit (hds d List.mem_cons_self)
      simp only [List.mem_cons, Prod.mk.injEq, List.not_mem_nil, or_false] at hsign
      rcases hsign with ⟨rfl, rfl⟩ | ⟨rfl, rfl⟩ | ⟨rfl, rfl⟩
      · rw [List.nil_append, List.cons_append, exponentSign]
        all_goals
          rintro _ ⟨⟩
          revert hd
          decide
      · rfl
      · rfl
    rw [List.cons_append, List.append_assoc, exponentPart_eq, if_pos hmark, hread]
    simp only [hdigits, hne, if_false, List.length_cons, List.length_append]
    rw [show 1 + text.length + ds.length = text.length + ds.length + 1 by omega]

end digits

/-! Numbers. -/

section numbers

variable {σ : Type} {s rest : List Char} {start index : Nat} {negative : Bool}

theorem number_eq (start : Nat) (negative : Bool) (index : Nat) (s : List Char) :
    number (σ := σ) start negative index s =
      if (wholeDigits s).isEmpty then .error ⟨.expectingValue, start⟩
      else
        let r := s.drop (wholeDigits s).length
        let fraction := fractionDigits r
        let fractionLength := if fraction.isEmpty then 0 else fraction.length + 1
        let r := r.drop fractionLength
        let (exponentLength, exponent) := exponentPart r
        let step (v : Json σ) : Step (Json σ) :=
          ⟨v, index + (wholeDigits s).length + fractionLength + exponentLength, r.drop exponentLength⟩
        if fractionLength != 0 || exponentLength != 0 then
          .ok (step (float (Decimal.nearest negative (asciiNat (wholeDigits s ++ fraction))
            (exponent - fraction.length))))
        else if (wholeDigits s).length > Numeral.mostDigits then
          .error ⟨.tooManyDigits (wholeDigits s).length, start⟩
        else .ok (step (int (Numeral.withSign negative (asciiNat (wholeDigits s))))) :=
  rfl

/-- What a number is read as, by its parts. -/
theorem number_parts (start : Nat) (negative : Bool) (index : Nat) {w f ds x r : List Char} {e : Int}
    (hne : w ≠ []) (hw : wholeDigits (w ++ (f ++ (x ++ r))) = w)
    (hf : Fraction f ds) (hds : fractionDigits (f ++ (x ++ r)) = ds) (hx : exponentPart (x ++ r) = (x.length, e)) :
    number (σ := σ) start negative index (w ++ (f ++ (x ++ r))) =
      if f ++ x = [] then
        if Numeral.mostDigits < w.length then .error ⟨.tooManyDigits w.length, start⟩
        else .ok ⟨int (Numeral.withSign negative (asciiNat w)), index + w.length, r⟩
      else .ok ⟨float (Decimal.nearest negative (asciiNat (w ++ ds)) (e - ds.length)),
        index + w.length + f.length + x.length, r⟩ := by
  have hlength := hf.length_eq
  have hempty : w.isEmpty = false := by simpa using hne
  rw [number_eq]
  simp only [hw, hempty, Bool.false_eq_true, if_false, List.drop_left, hds, ← hlength, hx]
  by_cases hnone : f ++ x = []
  · obtain ⟨rfl, rfl⟩ := List.append_eq_nil_iff.mp hnone
    simp
  · have hsome : f ≠ [] ∨ x ≠ [] := by
      by_contra hall
      simp_all
    simp [hnone, hsome]

/-- The parts that a number is read by. -/
theorem exists_number_parts (s : List Char) :
    ∃ f ds x r e, s = wholeDigits s ++ (f ++ (x ++ r)) ∧ Fraction f ds ∧ Exponent x e ∧
      fractionDigits (f ++ (x ++ r)) = ds ∧ exponentPart (x ++ r) = (x.length, e) := by
  have hwhole := wholeDigits_append s
  obtain ⟨f, rest, hrest, hf⟩ := exists_fraction (s.drop (wholeDigits s).length)
  obtain ⟨x, r, rfl, he, hx⟩ := exists_exponent rest
  rw [hrest] at hwhole hf
  exact ⟨f, _, x, r, _, hwhole, hf, he, rfl, Prod.ext hx.symm rfl⟩

theorem number_sound {st : Step (Json σ)} (h : number start negative index s = .ok st) :
    ∃ t, s = t ++ st.rest ∧ Token st.value (minusText negative ++ t) ∧ Short st.value := by
  have hs : wholeDigits s ≠ [] := by
    intro hs
    rw [number_eq, hs] at h
    cases h
  obtain ⟨f, ds, x, r, e, hsplit, hf, he, hds, hx⟩ := exists_number_parts s
  have hw : wholeDigits (wholeDigits s ++ (f ++ (x ++ r))) = wholeDigits s := by rw [← hsplit]
  have hdigits := wholeDigits_toDigits hs
  rw [hsplit, number_parts start negative index hs hw hf hds hx] at h
  generalize wholeDigits s = w at hsplit hs hw hdigits h
  subst hsplit
  split at h
  case isTrue hnone =>
    obtain ⟨rfl, rfl⟩ := List.append_eq_nil_iff.mp hnone
    split at h
    case isTrue => cases h
    case isFalse hlong =>
      cases h
      have htoken := @Token.int σ negative (asciiNat w)
      have hshort : Spellable (asciiNat w) := by
        rw [← hdigits] at hlong
        exact Nat.not_le.mp (toDigits_tooMany_iff.not.mp hlong)
      rw [hdigits] at htoken
      refine ⟨w, by simp, htoken, ?_⟩
      cases negative
      · simpa [Numeral.withSign] using hshort
      · simpa [Numeral.withSign] using hshort
  case isFalse hsome =>
    cases h
    refine ⟨w ++ (f ++ x), by simp, ?_, by simp [Short, Json.numbers]⟩
    have htoken := @Token.float σ negative (asciiNat w) _ _ _ _ hf he hsome
    rwa [hdigits] at htoken

/-- Digits that are too many are the one thing besides the text that may be at fault. -/
theorem number_error {f : Fault} (h : number (σ := σ) start negative index s = .error f) :
    f.problem.isSyntax = true ∨ Numeral.mostDigits < s.countP isAsciiDigit := by
  by_cases hs : wholeDigits s = []
  · rw [number_eq, hs] at h
    cases h
    exact .inl rfl
  · obtain ⟨t, ds, x, r, e, hsplit, hf, -, hds, hx⟩ := exists_number_parts s
    have hw : wholeDigits (wholeDigits s ++ (t ++ (x ++ r))) = wholeDigits s := by rw [← hsplit]
    have hcount : (wholeDigits s).length ≤ s.countP isAsciiDigit := by
      conv_rhs => rw [hsplit]
      rw [List.countP_append, List.countP_eq_length.mpr fun c hc => isAsciiDigit_of_mem_wholeDigits hc]
      omega
    rw [hsplit, number_parts start negative index hs hw hf hds hx] at h
    split at h
    · split at h
      · exact .inr (by omega)
      · cases h
    · cases h

/-- What follows the fraction of a number is no digit, and no point either. -/
theorem Exponent.head_append {x : List Char} {e : Int} (he : Exponent x e) (hrest : EndsNumber rest) :
    ∀ c ∈ (x ++ rest).head?, isAsciiDigit c = false ∧ c ≠ '.' := by
  cases he with
  | absent => exact fun c hc => ⟨(hrest c hc).1, (hrest c hc).2.1⟩
  | present hmark =>
    rintro _ ⟨⟩
    rcases hmark with rfl | rfl <;> decide

theorem number_float {f ds x : List Char} {e : Int} (hf : Fraction f ds) (he : Exponent x e) (h : f ++ x ≠ [])
    (n : Nat) (hrest : EndsNumber rest) :
    ∃ index', number (σ := σ) start negative index (Nat.toDigits 10 n ++ (f ++ (x ++ rest))) =
      .ok ⟨float (Decimal.nearest negative (asciiNat (Nat.toDigits 10 n ++ ds)) (e - ds.length)), index', rest⟩ := by
  have hexponent := he.head_append hrest
  have hdigit : ∀ c ∈ (f ++ (x ++ rest)).head?, isAsciiDigit c = false := by
    cases hf with
    | absent => exact fun c hc => (hexponent c hc).1
    | present =>
      rintro _ ⟨⟩
      rfl
  have hread : number (σ := σ) start negative index _ = _ := number_parts start negative index
    (Nat.toDigits_ne_nil (n := n) (b := 10)) (wholeDigits_of_toDigits n hdigit) hf (fractionDigits_append hf hexponent)
    (exponentPart_append he hrest)
  rw [if_neg h] at hread
  exact ⟨_, hread⟩

end numbers

/-! Numbers and words. -/

section scalars

variable {σ : Type} {s rest w : List Char} {index : Nat} {v : Json σ}

theorem word?_sound {st : Step (Json σ)} (h : word? index s = some st) :
    ∃ w, (w, st.value) ∈ words ∧ s = w.toList ++ st.rest := by
  obtain ⟨⟨w, v⟩, hw, hfound⟩ := List.exists_of_findSome?_eq_some h
  dsimp only at hfound
  split at hfound
  case isTrue hprefix =>
    cases hfound
    exact ⟨w, hw, (List.prefix_iff_eq_append.mp (List.isPrefixOf_iff_prefix.mp hprefix)).symm⟩
  case isFalse => cases hfound

theorem word?_append {w : String} (h : (w, v) ∈ words) (index : Nat) (rest : List Char) :
    word? index (w.toList ++ rest) = some ⟨v, index + w.length, rest⟩ := by
  simp only [words, List.mem_cons, List.not_mem_nil, or_false] at h
  rcases h with h | h | h | h | h | h <;> cases h <;> rfl

theorem scalar_sound {st : Step (Json σ)} (h : scalar index s = .ok st) :
    ∃ t, s = t ++ st.rest ∧ Token st.value t ∧ Short st.value := by
  unfold scalar at h
  split at h
  case h_1 r hr =>
    cases h
    obtain ⟨w, hw, rfl⟩ := word?_sound hr
    refine ⟨w.toList, rfl, .word hw, ?_⟩
    simp only [words, List.mem_cons, List.not_mem_nil, or_false, Prod.mk.injEq] at hw
    rcases hw with ⟨-, hv⟩ | ⟨-, hv⟩ | ⟨-, hv⟩ | ⟨-, hv⟩ | ⟨-, hv⟩ | ⟨-, hv⟩ <;> simp [hv, Short, numbers]
  case h_2 =>
    obtain ⟨t, rfl, htoken, hshort⟩ := number_sound h
    exact ⟨'-' :: t, rfl, htoken, hshort⟩
  case h_3 => exact number_sound h

theorem scalar_error {f : Fault} (h : scalar (σ := σ) index s = .error f) :
    f.problem.isSyntax = true ∨ Numeral.mostDigits < s.countP isAsciiDigit := by
  unfold scalar at h
  split at h
  case h_1 => cases h
  case h_2 =>
    refine (number_error h).imp_right fun hcount => ?_
    rwa [List.countP_cons_of_neg (by decide)]
  case h_3 => exact number_error h

theorem scalar_negative {r : List Char} (h : ∃ d ds, r = d :: ds ∧ isAsciiDigit d = true) (index : Nat)
    (negative : Bool) :
    scalar (σ := σ) index (minusText negative ++ r) =
      number index negative (if negative then index + 1 else index) r := by
  obtain ⟨d, ds, rfl, hd⟩ := h
  have hminus : d ≠ '-' := by
    rintro rfl
    cases hd
  cases negative
  · simp [minusText, scalar, word_of_digit hd, hminus]
  · simp [minusText, scalar, word_of_minus hd]

/-- A token is read as its value, unless it is a whole number that is too long. -/
theorem scalar_token (h : Token v w) (hrest : EndsNumber rest) (index : Nat) :
    (Short v → ∃ index', scalar index (w ++ rest) = .ok ⟨v, index', rest⟩) ∧
      (¬ Short v → ∃ f, scalar (σ := σ) index (w ++ rest) = .error f ∧ f.problem.isSyntax = false) := by
  have hhead (n : Nat) (r : List Char) : ∃ d ds, Nat.toDigits 10 n ++ r = d :: ds ∧ isAsciiDigit d = true := by
    obtain ⟨d, ds, hd, hdigit⟩ := toDigits_eq_cons n
    exact ⟨d, ds ++ r, by rw [hd, List.cons_append], hdigit⟩
  cases h with
  | @word w _ hw =>
    have hshort : Short v := by
      simp only [words, List.mem_cons, List.not_mem_nil, or_false, Prod.mk.injEq] at hw
      rcases hw with ⟨-, rfl⟩ | ⟨-, rfl⟩ | ⟨-, rfl⟩ | ⟨-, rfl⟩ | ⟨-, rfl⟩ | ⟨-, rfl⟩ <;> simp [Short, numbers]
    refine ⟨fun _ => ⟨index + w.length, ?_⟩, fun hlong => absurd hshort hlong⟩
    simp [scalar, word?_append hw]
  | int negative n =>
    have hshort : Short (int (Numeral.withSign negative n) : Json σ) ↔ ¬ Numeral.mostDigits < (Nat.toDigits 10 n).length := by
      rw [short_int, Spellable, ← Nat.not_le, ← toDigits_tooMany_iff]
      cases negative <;> simp [Numeral.withSign]
    rw [List.append_assoc, scalar_negative (hhead n rest), number_toDigits n negative _ _ hrest, hshort]
    constructor
    · exact fun h => ⟨_, if_neg h⟩
    · exact fun h => ⟨_, if_pos (not_not.mp h), rfl⟩
  | float negative n hf he hne =>
    have hshort : ∀ x, Short (float x : Json σ) := by simp [Short, numbers]
    refine ⟨fun _ => ?_, fun hlong => absurd (hshort _) hlong⟩
    simp only [List.append_assoc]
    rw [scalar_negative (hhead n _)]
    exact number_float hf he hne n hrest

end scalars

end QualityGate.Json
