import QualityGate.Proofs.Json.Cleaning

/-! Reading a text with comments and trailing commas. Every text of the commented dialect is read as what it
spells; what is read is spelled in the lenient dialect, which is wider than that. -/

namespace QualityGate.Json

theorem lenient_of_commented {σ : Type} [OfPoints σ] {tree : Json σ} {t : List Char} (h : Spelled .commented tree t) :
    Spelled .lenient tree t :=
  h.mono Dialect.commented_le_lenient

section reading

variable {σ : Type} [OfPoints σ] [DecidableEq σ] [Limits] {t : List Char} {tree v : Json σ}

theorem readCommented_ok_iff :
    readCommented t σ = .ok v ↔ ∃ tree, Spelled .lenient tree t ∧ InBounds tree ∧ merged tree = v := by
  rw [readCommented_eq, read_ok_iff, readChars_ok_iff]
  simp only [spelled_cleaned_iff]

/-- What a text spells decides what is read, also with comments. -/
theorem readCommented_settles (h : Spelled .lenient tree t) :
    (InBounds tree → readCommented t σ = .ok (merged tree)) ∧
      (¬ InBounds tree → ∃ f, readCommented t σ = .error f ∧ f.problem.isSyntax = false) := by
  obtain ⟨hok, herror⟩ := readChars_settles (spelled_cleaned h)
  refine ⟨fun hbounds => ?_, fun hbounds => ?_⟩
  · rw [readCommented_eq, read_ok_iff, hok hbounds]
  · obtain ⟨f, hread, hf⟩ := herror hbounds
    refine ⟨f.locate (cleaned false t), ?_, hf⟩
    rw [readCommented_eq, read_error_iff]
    exact ⟨f, hread, rfl⟩

/-- A text that is read without comments is read in the same way with them. -/
theorem readCommented_of_read (h : read t σ = .ok v) : readCommented t σ = .ok v := by
  obtain ⟨tree, htree, hbounds, rfl⟩ := readChars_ok_iff.mp (read_ok_iff.mp h)
  have hcommented : Spelled .commented tree t := htree.mono Dialect.plain_le_commented
  exact (readCommented_settles (lenient_of_commented hcommented)).1 hbounds

theorem readCommented_blames {f : LocatedFault} (h : readCommented t σ = .error f) :
    f.problem.isSyntax = true ∨ Crowded 0 t := by
  rw [readCommented_eq, read_error_iff] at h
  obtain ⟨g, hread, rfl⟩ := h
  exact (readChars_blames hread).mono cleaned_sublist

/-- A whole number of too many digits is refused for that. -/
theorem readCommented_unspellable {n : Nat} (h : ¬ Spellable n) :
    ∃ f, readCommented (Nat.toDigits 10 n) σ = .error f ∧ f.problem.isSyntax = false := by
  have hspelled : Spelled .commented (int n : Json σ) (Nat.toDigits 10 n) :=
    ⟨[], _, [], by simp [minusText], .nil, .scalar (.int false n) rfl, .gap .nil⟩
  have hbounds : ¬ InBounds (int n : Json σ) := fun hbounds => h (short_int.mp hbounds.2)
  exact (readCommented_settles (lenient_of_commented hspelled)).2 hbounds

end reading

/-! What is promised. -/

/-- Comments, blanks and trailing commas do not change what is read, and nothing inside of a string is taken for
one of them. A tree beyond the bounds of the reader is refused for these bounds, wherever they lie. -/
theorem readCommented_spelled {σ : Type} [OfPoints σ] [DecidableEq σ] [Limits] (tree v : Json σ) (t : List Char) :
    (Spelled .commented tree t →
      (InBounds tree → readCommented t σ = .ok (merged tree)) ∧
        (¬ InBounds tree → ∃ f, readCommented t σ = .error f ∧ f.problem.isSyntax = false)) ∧
      (read t σ = .ok v → readCommented t σ = .ok v) :=
  ⟨fun h => readCommented_settles (lenient_of_commented h), readCommented_of_read⟩

theorem readCommented_spelled_mixed :
    Spelled .commented (arr [int 1, str [47, 47, 0xd800]]) "[1/*,*/,\"//\\ud800\",]".toList ∧
      InBounds (arr [int 1, str [47, 47, 0xd800]]) ∧
      readCommented "[1/*,*/,\"//\\ud800\",]".toList (List Nat) = .ok (arr [int 1, str [47, 47, 0xd800]]) := by
  let one : Item (List Nat) := ⟨[], int 1, ['1'], ['/', '*', ',', '*', '/']⟩
  let slashes : Item (List Nat) := ⟨[], str [47, 47, 0xd800], "\"//\\ud800\"".toList, []⟩
  have hcomment : Gap one.after := .comment (@Comment.block [','] (by decide)) .nil
  have hone : Spelling .commented one.value one.text := .scalar (.int false 1) rfl
  have hslashes : Spelling .commented slashes.value slashes.text :=
    .str (@Quoted.intro (List Nat) _ [.plain '/', .plain '/', .unit 'd' '8' '0' '0' 0xd800]
      (by simp [Piece.Valid, codeUnit?, Text.hexValue?]))
  have harray : Spelling .commented (arr [int 1, str [47, 47, 0xd800]]) "[1/*,*/,\"//\\ud800\",]".toList :=
    @Spelling.arrayOf (List Nat) _ .commented [one, slashes] [','] (by simp)
      (by simpa using ⟨⟨.nil, hcomment, hone⟩, ⟨.nil, .nil, hslashes⟩⟩) (.inr ⟨[], .nil, rfl⟩)
  have hspelled : Spelled .commented (arr [int 1, str [47, 47, 0xd800]]) "[1/*,*/,\"//\\ud800\",]".toList :=
    ⟨[], _, [], by simp, .nil, harray, .gap .nil⟩
  have hbounds : InBounds (arr [int 1, str [47, 47, 0xd800]]) :=
    ⟨by simp [Nested, NestedItems, mostNested], by simp [spellable_of_lt]⟩
  exact ⟨hspelled, hbounds, ((readCommented_spelled _ null _).1 hspelled).1 hbounds⟩

/-- A long number is a text of the dialect, and it is refused. -/
theorem readCommented_tooLong :
    Spelled .commented (int (asciiNat ('1' :: List.replicate Numeral.mostDigits '0')) : Json)
        ('1' :: List.replicate Numeral.mostDigits '0') ∧
      ∀ v, readCommented ('1' :: List.replicate Numeral.mostDigits '0') ≠ .ok v := by
  generalize hds : '1' :: List.replicate Numeral.mostDigits '0' = ds
  have hdigits : ∀ d ∈ ds, isAsciiDigit d = true := by
    rw [← hds]
    simp only [List.mem_cons, List.mem_replicate]
    rintro d (rfl | ⟨-, rfl⟩) <;> rfl
  have htext : Nat.toDigits 10 (asciiNat ds) = ds := by
    subst hds
    exact toDigits_asciiNat hdigits (by decide)
  have hlong : Numeral.mostDigits < (Nat.toDigits 10 (asciiNat ds)).length := by
    rw [htext, ← hds, List.length_cons, List.length_replicate]
    exact Nat.lt_succ_self _
  have hspelled : Spelled .commented (int (asciiNat ds) : Json) ds := by
    refine ⟨[], ds, [], by simp, .nil, ?_, .gap .nil⟩
    have htoken := Token.int (σ := String) false (asciiNat ds)
    rw [minusText, htext] at htoken
    exact .scalar htoken rfl
  refine ⟨hspelled, fun v hread => ?_⟩
  have hbounds : ¬ InBounds (int (asciiNat ds) : Json) := by
    rintro ⟨-, hshort⟩
    rw [short_int, Spellable, ← Nat.not_le, ← toDigits_tooMany_iff] at hshort
    exact hshort hlong
  obtain ⟨f, herror, -⟩ := (readCommented_settles (lenient_of_commented hspelled)).2 hbounds
  rw [herror] at hread
  cases hread

/-- Exactly the texts of the lenient dialect within the bounds are read. Every other text is refused for what is
wrong with it, unless it has enough digits or brackets to be refused for the bounds first. -/
theorem readCommented_accepts (t : List Char) :
    (∀ v, readCommented t = .ok v ↔ ∃ tree, Spelled .lenient tree t ∧ InBounds tree ∧ merged tree = v) ∧
      ∀ f, readCommented t = .error f → f.problem.isSyntax = true ∨ Crowded 0 t :=
  ⟨fun _ => readCommented_ok_iff, fun _ => readCommented_blames⟩

theorem eq_of_merged_singleton {tree : Json} {n : Int} (h : merged tree = arr [int n]) : tree = arr [int n] := by
  cases tree with
  | arr items =>
    rw [merged, mergedItems_eq_map, arr.injEq, List.map_eq_singleton_iff] at h
    obtain ⟨v, rfl, hv⟩ := h
    cases v <;> simp_all [merged]
  | _ => simp [merged] at h

section whole

variable {σ : Type} [OfPoints σ] {d : Dialect} {n : Nat} {t : List Char}

/-- The digits of a whole number stand together where nothing may stand inside of a token. -/
theorem digits_stay_int (hd : ∀ w t, d.token w t → t = w) (h : Spelling d (int n : Json σ) t) :
    Nat.toDigits 10 n <:+: t := by
  generalize hv : (int n : Json σ) = v at h
  cases h with
  | scalar h ht =>
    obtain rfl := hd _ _ ht
    subst hv
    generalize hv : (int n : Json σ) = v at h
    cases h with
    | word hw =>
      subst hv
      simp [words] at hw
    | int negative m =>
      have hm : n = m := by cases negative <;> simp [Numeral.withSign] at hv <;> omega
      subst hm
      exact ⟨minusText negative, [], by simp⟩
    | float => cases hv
  | _ => cases hv

theorem digits_stay (hd : ∀ w t, d.token w t → t = w) (h : Spelling d (arr [int n] : Json σ) t) :
    Nat.toDigits 10 n <:+: t := by
  generalize hv : (arr [int n] : Json σ) = v at h
  cases h with
  | scalar h =>
    subst hv
    cases h with
    | word hw => simp [words] at hw
  | @array items c _ _ hitems _ =>
    obtain ⟨i, rfl, hi⟩ := List.map_eq_singleton_iff.mp (arr.inj hv).symm
    have hspelling := hitems i List.mem_cons_self
    rw [hi] at hspelling
    obtain ⟨front, back, htext⟩ := digits_stay_int hd hspelling
    refine ⟨'[' :: (i.before ++ front), back ++ (i.after ++ (c ++ [']'])), ?_⟩
    rw [joined_singleton, Item.chars, ← htext]
    simp
  | _ => cases hv

end whole

/-- A comment inside of a number is taken out, which no text of the commented dialect allows. -/
theorem readCommented_joined :
    readCommented "[1/**/2]".toList = .ok (arr [int 12]) ∧
      ∀ tree : Json, ¬ Spelled .commented tree "[1/**/2]".toList := by
  let twelve : Item := ⟨[], int 12, ['1', '/', '*', '*', '/', '2'], []⟩
  have htwelve : Spelling .lenient twelve.value twelve.text :=
    .scalar (.int false 12) (.cons '1' (@Inline.comment [] [] (by decide) (by decide) .nil) (.single '2'))
  have hlenient : Spelled .lenient (arr [int 12]) "[1/**/2]".toList :=
    ⟨[], _, [], rfl, .nil, @Spelling.arrayOf String _ .lenient [twelve] [] (by simp)
      (by simpa using ⟨.nil, .nil, htwelve⟩) (.inl rfl), .inl (.gap .nil)⟩
  have hbounds : InBounds (arr [int 12] : Json) := ⟨by simp [Nested, NestedItems, mostNested], by simp [spellable_of_lt]⟩
  have hread : readCommented "[1/**/2]".toList = .ok (arr [int 12]) := (readCommented_settles hlenient).1 hbounds
  refine ⟨hread, fun tree htree => ?_⟩
  obtain ⟨hok, herror⟩ := readCommented_settles (lenient_of_commented htree)
  have hmerged : merged tree = arr [int 12] := by
    by_cases hin : InBounds tree
    · rw [hread] at hok
      exact (Except.ok.inj (hok hin)).symm
    · obtain ⟨f, hf, -⟩ := herror hin
      rw [hread] at hf
      cases hf
  rw [eq_of_merged_singleton hmerged] at htree
  obtain ⟨front, text, back, hsplit, -, hspelling, -⟩ := htree
  have htwelve : ['1', '2'] <:+: "[1/**/2]".toList := by
    rw [hsplit]
    exact (digits_stay (n := 12) (fun _ _ h => h) hspelling).trans ⟨front, back, by simp⟩
  exact absurd htwelve (by decide)

end QualityGate.Json
