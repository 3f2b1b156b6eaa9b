import Mathlib
import QualityGate.Console.Markup
import QualityGate.Policy.Basic
import QualityGate.Proofs.Run

/-! Texts with tags that are shown whatever they say: the tags that were written
close each other, and none begins in a text that was escaped. -/

namespace QualityGate.Console

/-! Where a tag begins. -/

/-- The first bracket of a text closes. -/
def closes : List Char → Bool
  | [] => false
  | c :: r => if c == ']' then true else if c == '[' then false else closes r

/-- A tag begins at the head of a text, perhaps after backslashes. -/
def opens (cs : List Char) : Bool := (tagAt? cs).isSome

def Bracketless (cs : List Char) : Prop := ∀ c ∈ cs, c ≠ ']' ∧ c ≠ '['

instance (cs : List Char) : Decidable (Bracketless cs) := inferInstanceAs (Decidable (∀ c ∈ cs, c ≠ ']' ∧ c ≠ '['))

def AllSlashes (cs : List Char) : Prop := ∀ c ∈ cs, c = '\\'

section tags

variable {c : Char} {cs r content rest : List Char} {n : Nat}

theorem tagAfter?_of_content (hcontent : Bracketless content) (hbegins : content.head?.any beginsTag = true) :
    tagAfter? (content ++ ']' :: rest) = some (content, rest) := by
  have hplain : ∀ c ∈ content, (c != ']' && c != '[') = true := by
    intro c hc
    simpa using hcontent c hc
  have htake : (content ++ ']' :: rest).takeWhile (fun c => c != ']' && c != '[') = content := by
    rw [List.takeWhile_append_of_pos hplain]
    simp
  simp [tagAfter?, htake, hbegins]

theorem tagAfter?_eq_some (h : tagAfter? cs = some (content, rest)) :
    cs = content ++ ']' :: rest ∧ Bracketless content ∧ content.head?.any beginsTag = true := by
  rw [tagAfter?] at h
  split at h
  case h_2 => cases h
  case h_1 r hdrop =>
    split at h
    case isFalse => cases h
    case isTrue hbegins =>
      cases h
      refine ⟨?_, fun c hc => ?_, hbegins⟩
      · rw [← hdrop]
        exact (List.prefix_iff_eq_append.mp (List.takeWhile_prefix _)).symm
      · simpa using List.mem_takeWhile_imp hc

theorem closes_append (h : Bracketless content) : closes (content ++ rest) = closes rest := by
  induction content with
  | nil => rfl
  | cons c content ih =>
    obtain ⟨⟨hclose, hopen⟩, hcontent⟩ := List.forall_mem_cons.mp h
    rw [List.cons_append, closes, if_neg (by simpa using hclose), if_neg (by simpa using hopen), ih hcontent]

theorem exists_of_closes (h : closes cs = true) : ∃ content rest, cs = content ++ ']' :: rest ∧ Bracketless content := by
  induction cs with
  | nil => cases h
  | cons c r ih =>
    rw [closes] at h
    split at h
    case isTrue hclose =>
      obtain rfl := eq_of_beq hclose
      exact ⟨[], r, rfl, List.forall_mem_nil _⟩
    case isFalse hclose =>
      split at h
      case isTrue => cases h
      case isFalse hopen =>
        obtain ⟨content, rest, rfl, hcontent⟩ := ih h
        exact ⟨c :: content, rest, rfl,
          List.forall_mem_cons.mpr ⟨⟨by simpa using hclose, by simpa using hopen⟩, hcontent⟩⟩

theorem tagAfter?_isSome (cs : List Char) : (tagAfter? cs).isSome = (cs.head?.any beginsTag && closes cs) := by
  rw [Bool.eq_iff_iff, Bool.and_eq_true]
  constructor
  · intro h
    obtain ⟨⟨content, rest⟩, htag⟩ := Option.isSome_iff_exists.mp h
    obtain ⟨rfl, hcontent, hbegins⟩ := tagAfter?_eq_some htag
    refine ⟨?_, by rw [closes_append hcontent]; rfl⟩
    cases content with
    | nil => cases hbegins
    | cons c content => exact hbegins
  · rintro ⟨hbegins, hcloses⟩
    obtain ⟨content, rest, rfl, hcontent⟩ := exists_of_closes hcloses
    cases content with
    | nil => cases hbegins
    | cons c content => rw [tagAfter?_of_content hcontent hbegins, Option.isSome_some]

theorem tagAt?_slash (cs : List Char) : tagAt? ('\\' :: cs) = (tagAt? cs).map fun t => (t.1 + 1, t.2) := by
  simp only [tagAt?, List.takeWhile_cons, beq_self_eq_true, if_true, List.length_cons, List.drop_succ_cons]
  split
  case h_1 => rw [Option.map_map]; rfl
  case h_2 => rfl

theorem tagAt?_bracket (cs : List Char) : tagAt? ('[' :: cs) = (tagAfter? cs).map fun t => (0, t) := rfl

theorem opens_slash (cs : List Char) : opens ('\\' :: cs) = opens cs := by
  rw [opens, tagAt?_slash, Option.isSome_map, opens]

theorem opens_bracket (cs : List Char) : opens ('[' :: cs) = (cs.head?.any beginsTag && closes cs) := by
  rw [opens, tagAt?_bracket, Option.isSome_map, tagAfter?_isSome]

theorem opens_other (hslash : c ≠ '\\') (hbracket : c ≠ '[') (cs : List Char) : opens (c :: cs) = false := by
  simp [opens, tagAt?, hslash, hbracket]

theorem opens_slashes {slashes : List Char} (h : AllSlashes slashes) (cs : List Char) :
    opens (slashes ++ cs) = opens cs := by
  induction slashes with
  | nil => rfl
  | cons c slashes ih =>
    obtain ⟨rfl, hslashes⟩ := List.forall_mem_cons.mp h
    rw [List.cons_append, opens_slash, ih hslashes]

theorem tagAt?_slashes (n : Nat) (cs : List Char) :
    tagAt? (List.replicate n '\\' ++ cs) = (tagAt? cs).map fun t => (t.1 + n, t.2) := by
  induction n with
  | zero => simp
  | succ n ih =>
    rw [List.replicate_succ, List.cons_append, tagAt?_slash, ih, Option.map_map]
    rfl

theorem tagAt?_of_content (n : Nat) (hcontent : Bracketless content) (hbegins : content.head?.any beginsTag = true)
    (rest : List Char) :
    tagAt? (List.replicate n '\\' ++ '[' :: content ++ ']' :: rest) = some (n, content, rest) := by
  rw [List.append_assoc, List.cons_append, tagAt?_slashes, tagAt?_bracket, tagAfter?_of_content hcontent hbegins]
  simp

theorem tagAt?_eq_some (h : tagAt? cs = some (n, content, rest)) :
    cs = List.replicate n '\\' ++ '[' :: content ++ ']' :: rest ∧ Bracketless content ∧
      content.head?.any beginsTag = true := by
  induction cs generalizing n with
  | nil => cases h
  | cons c r ih =>
    by_cases hslash : c = '\\'
    · subst hslash
      rw [tagAt?_slash] at h
      obtain ⟨⟨m, content', rest'⟩, htag, he⟩ := Option.map_eq_some_iff.mp h
      cases he
      obtain ⟨rfl, hcontent⟩ := ih htag
      exact ⟨rfl, hcontent⟩
    by_cases hbracket : c = '['
    · subst hbracket
      rw [tagAt?_bracket] at h
      obtain ⟨⟨content', rest'⟩, htag, he⟩ := Option.map_eq_some_iff.mp h
      cases he
      obtain ⟨rfl, hcontent⟩ := tagAfter?_eq_some htag
      exact ⟨rfl, hcontent⟩
    · have hnone := opens_other hslash hbracket r
      rw [opens, h] at hnone
      cases hnone

end tags

/-! What is shown. -/

/-- The rest of a text is shown on every console while some styles are open, whatever stands before it. -/
def Shows (opened : List String) (cs : List Char) : Prop :=
  ∀ terminal fuel plain, cs.length < fuel → ∃ t, shownPieces terminal opened (piecesFrom fuel plain cs) = .ok t

section shows

variable {terminal : Terminal} {opened : List String} {c : Char} {cs r content rest : List Char} {n : Nat}

theorem shownPieces_text (cs : List Char) {ps : List Piece} (h : ∃ t, shownPieces terminal opened ps = .ok t) :
    ∃ t, shownPieces terminal opened (.text cs :: ps) = .ok t := by
  obtain ⟨t, ht⟩ := h
  exact ⟨_, by rw [shownPieces, ht]; rfl⟩

/-- What stands before the rest is shown as it is. -/
theorem shownPieces_before (b : Bool) (cs : List Char) {ps : List Piece} (h : ∃ t, shownPieces terminal opened ps = .ok t) :
    ∃ t, shownPieces terminal opened ((if b then [] else [.text cs]) ++ ps) = .ok t := by
  cases b with
  | true => exact h
  | false => exact shownPieces_text cs h

theorem piecesFrom_tag {fuel : Nat} {plain : List Char} (h : tagAt? cs = some (n, content, rest)) :
    piecesFrom (fuel + 1) plain cs =
      (if plain.isEmpty then [] else [.text plain.reverse]) ++ (tagPieces n content ++ piecesFrom fuel [] rest) := by
  rw [piecesFrom.eq_def, ← List.append_assoc]
  simp only [h]

theorem piecesFrom_char {fuel : Nat} {plain : List Char} (h : opens (c :: r) = false) :
    piecesFrom (fuel + 1) plain (c :: r) =
      let slashes := r.takeWhile fun d => c == '\\' && d == '\\'
      piecesFrom fuel (slashes ++ c :: plain) (r.drop slashes.length) := by
  have htag : tagAt? (c :: r) = none := by simpa [opens] using h
  rw [piecesFrom.eq_def]
  simp only [htag]

theorem shows_nil (opened : List String) : Shows opened [] := by
  intro terminal fuel plain hfuel
  obtain ⟨fuel, rfl⟩ := Nat.exists_eq_add_one_of_ne_zero (Nat.ne_of_gt hfuel)
  have hpieces : piecesFrom (fuel + 1) plain [] = (if plain.isEmpty then [] else [.text plain.reverse]) ++ [] := by
    rw [List.append_nil]
    rfl
  rw [hpieces]
  exact shownPieces_before _ _ ⟨[], by rw [shownPieces]⟩

theorem shows_tag {opened' : List String} (htag : tagAt? cs = some (0, content, rest))
    (hstyles : styles opened content = .ok opened') (h : Shows opened' rest) : Shows opened cs := by
  intro terminal fuel plain hfuel
  obtain ⟨rfl, -⟩ := tagAt?_eq_some htag
  obtain ⟨fuel, rfl⟩ := Nat.exists_eq_add_one_of_ne_zero (Nat.ne_of_gt (Nat.zero_lt_of_lt hfuel))
  obtain ⟨t, ht⟩ := h terminal fuel [] (by simp at hfuel; omega)
  rw [piecesFrom_tag htag]
  refine shownPieces_before _ _ ⟨t, ?_⟩
  show shownPieces terminal opened (.tag content :: piecesFrom fuel [] rest) = .ok t
  rw [shownPieces, Outcome.bind_of_ok hstyles, ht]

theorem shows_escaped (htag : tagAt? cs = some (2 * n + 1, content, rest)) (h : Shows opened rest) : Shows opened cs := by
  intro terminal fuel plain hfuel
  obtain ⟨rfl, -⟩ := tagAt?_eq_some htag
  obtain ⟨fuel, rfl⟩ := Nat.exists_eq_add_one_of_ne_zero (Nat.ne_of_gt (Nat.zero_lt_of_lt hfuel))
  have hrest := h terminal fuel [] (by simp at hfuel; omega)
  have hodd : ((2 * n + 1) % 2 == 1) = true := by
    rw [beq_iff_eq]
    omega
  rw [piecesFrom_tag htag, tagPieces, hodd, if_pos rfl, List.append_assoc]
  refine shownPieces_before _ _ ?_
  by_cases hfew : 2 * n + 1 < 2
  · rw [if_pos hfew]
    exact shownPieces_text _ hrest
  · rw [if_neg hfew]
    exact shownPieces_text _ (shownPieces_text _ hrest)

theorem shows_char (hnone : opens (c :: r) = false)
    (h : Shows opened (r.drop (r.takeWhile fun d => c == '\\' && d == '\\').length)) : Shows opened (c :: r) := by
  intro terminal fuel plain hfuel
  obtain ⟨fuel, rfl⟩ := Nat.exists_eq_add_one_of_ne_zero (Nat.ne_of_gt (Nat.zero_lt_of_lt hfuel))
  rw [piecesFrom_char hnone]
  exact h terminal fuel _ (by simp at hfuel ⊢; omega)

theorem shows_slashes (h : AllSlashes cs) : Shows opened cs := by
  cases cs with
  | nil => exact shows_nil opened
  | cons c r =>
    obtain ⟨rfl, hr⟩ := List.forall_mem_cons.mp h
    have htake : r.takeWhile (fun d => '\\' == '\\' && d == '\\') = r :=
      List.takeWhile_eq_self_iff.mpr fun d hd => by simpa using hr d hd
    refine shows_char ?_ ?_
    · rw [← List.append_nil r, ← List.cons_append, opens_slashes h]
      rfl
    · rw [htake, List.drop_length]
      exact shows_nil opened

/-- A text in which no bracket and no backslash stands. -/
def Untagged (cs : List Char) : Prop := ∀ c ∈ cs, c ≠ '\\' ∧ c ≠ '['

instance (cs : List Char) : Decidable (Untagged cs) := inferInstanceAs (Decidable (∀ c ∈ cs, c ≠ '\\' ∧ c ≠ '['))

theorem Untagged.append (h : Untagged cs) (hrest : Untagged rest) : Untagged (cs ++ rest) :=
  List.forall_mem_append.mpr ⟨h, hrest⟩

theorem shows_untagged (h : Untagged cs) (hrest : Shows opened rest) : Shows opened (cs ++ rest) := by
  induction cs with
  | nil => exact hrest
  | cons c cs ih =>
    obtain ⟨⟨hslash, hbracket⟩, hcs⟩ := List.forall_mem_cons.mp h
    refine shows_char (opens_other hslash hbracket _) ?_
    rw [List.takeWhile_eq_nil_iff.mpr (by simp [hslash])]
    exact ih hcs

end shows

/-! Escaped texts. -/

section escaped

variable {opened : List String} {c : Char} {cs r content rest tail slashes : List Char} {fuel n : Nat}

theorem closes_slashes (h : AllSlashes slashes) (rest : List Char) : closes (slashes ++ rest) = closes rest :=
  closes_append fun c hc => by
    rw [h c hc]
    decide

theorem allSlashes_replicate (n : Nat) : AllSlashes (List.replicate n '\\') := fun _ hc => (List.mem_replicate.mp hc).2

/-- A character is read together with the backslashes after it, if it is one itself. -/
theorem slashes_after (c : Char) (r : List Char) :
    let slashes := r.takeWhile fun d => c == '\\' && d == '\\'
    AllSlashes slashes ∧ slashes ++ r.drop slashes.length = r ∧ (c ≠ '\\' → slashes = []) ∧
      (c = '\\' → (r.drop slashes.length).head? ≠ some '\\') := by
  refine ⟨fun d hd => ?_, List.prefix_iff_eq_append.mp (List.takeWhile_prefix _), fun hc => ?_, ?_⟩
  · have hboth := List.mem_takeWhile_imp hd
    simp only [Bool.and_eq_true, beq_iff_eq] at hboth
    exact hboth.2
  · exact List.takeWhile_eq_nil_iff.mpr (by simp [hc])
  · rintro rfl
    induction r with
    | nil => simp
    | cons d r ih =>
      by_cases hd : d = '\\'
      · simpa [hd] using ih
      · simp [hd]

theorem go_nil (fuel : Nat) : escape.go fuel [] = [] := by
  cases fuel <;> rfl

theorem go_tag (h : tagAt? cs = some (n, content, rest)) :
    escape.go (fuel + 1) cs =
      List.replicate (2 * n + 1) '\\' ++ '[' :: content ++ ']' :: escape.go fuel rest := by
  rw [escape.go.eq_def]
  simp only [h]

theorem go_char (h : opens (c :: r) = false) :
    escape.go (fuel + 1) (c :: r) =
      let slashes := r.takeWhile fun d => c == '\\' && d == '\\'
      c :: slashes ++ escape.go fuel (r.drop slashes.length) := by
  have htag : tagAt? (c :: r) = none := by simpa [opens] using h
  rw [escape.go.eq_def]
  simp only [htag]

/-- Escaping goes along a text by whole tags and by characters. -/
theorem go_induction {P : (fuel : Nat) → (cs : List Char) → cs.length ≤ fuel → Prop}
    (nil : ∀ fuel h, P fuel [] h)
    (tag : ∀ fuel n content rest h h', Bracketless content → content.head?.any beginsTag = true → P fuel rest h →
      P (fuel + 1) (List.replicate n '\\' ++ '[' :: content ++ ']' :: rest) h')
    (char : ∀ fuel c r h h', opens (c :: r) = false →
      P fuel (r.drop (r.takeWhile fun d => c == '\\' && d == '\\').length) h → P (fuel + 1) (c :: r) h')
    (fuel : Nat) (cs : List Char) (h : cs.length ≤ fuel) : P fuel cs h := by
  induction fuel generalizing cs with
  | zero =>
    obtain rfl := List.length_eq_zero_iff.mp (Nat.le_zero.mp h)
    exact nil 0 h
  | succ fuel ih =>
    cases htag : tagAt? cs with
    | some t =>
      obtain ⟨n, content, rest⟩ := t
      obtain ⟨rfl, hcontent, hbegins⟩ := tagAt?_eq_some htag
      exact tag fuel n content rest (by simp at h; omega) h hcontent hbegins (ih rest _)
    | none =>
      cases cs with
      | nil => exact nil _ h
      | cons c r => exact char fuel c r (by simp at h ⊢; omega) h (by rw [opens, htag, Option.isSome_none]) (ih _ _)

/-- Escaping a text changes neither whether its first bracket closes, nor what its first character begins, nor whether
a tag begins at its head. -/
theorem go_keeps (htail : AllSlashes tail) (h : cs.length ≤ fuel) :
    closes (escape.go fuel cs ++ tail) = closes cs ∧
      (escape.go fuel cs ++ tail).head?.any beginsTag = cs.head?.any beginsTag ∧
      opens (escape.go fuel cs ++ tail) = opens cs := by
  induction fuel, cs, h using go_induction with
  | nil fuel h =>
    rw [go_nil, List.nil_append, ← List.append_nil tail, closes_slashes htail, opens_slashes htail]
    refine ⟨rfl, ?_, rfl⟩
    cases tail with
    | nil => rfl
    | cons c tail =>
      obtain rfl := htail c List.mem_cons_self
      rfl
  | tag fuel n content rest h h' hcontent hbegins ih =>
    have htag := tagAt?_of_content n hcontent hbegins rest
    have hescaped := tagAt?_of_content (2 * n + 1) hcontent hbegins (escape.go fuel rest ++ tail)
    rw [go_tag htag]
    simp only [List.append_assoc, List.cons_append] at htag hescaped ⊢
    refine ⟨?_, ?_, by rw [opens, opens, htag, hescaped, Option.isSome_some, Option.isSome_some]⟩
    · rw [closes_slashes (allSlashes_replicate _), closes_slashes (allSlashes_replicate _)]
      rfl
    · have hmark : beginsTag '\\' = false ∧ beginsTag '[' = false := by decide
      cases n <;> simp [List.replicate_succ, hmark]
  | char fuel c r h h' hnone ih =>
    obtain ⟨hcloses, hhead, hopens⟩ := ih
    obtain ⟨hslashes, hr, hother, -⟩ := slashes_after c r
    rw [go_char hnone]
    dsimp only at hslashes hr hother hcloses hhead hopens ⊢
    generalize (r.takeWhile fun d => c == '\\' && d == '\\') = slashes at *
    generalize r.drop slashes.length = rest at *
    subst hr
    have hclosed : closes (slashes ++ (escape.go fuel rest ++ tail)) = closes (slashes ++ rest) := by
      rw [closes_slashes hslashes, closes_slashes hslashes, hcloses]
    rw [List.cons_append, List.cons_append, List.append_assoc]
    refine ⟨by rw [closes, closes, hclosed], rfl, ?_⟩
    by_cases hslash : c = '\\'
    · rw [hslash, opens_slash, opens_slash, opens_slashes hslashes, opens_slashes hslashes, hopens]
    obtain rfl := hother hslash
    by_cases hbracket : c = '['
    · rw [hbracket, opens_bracket, opens_bracket, List.nil_append, List.nil_append, hhead, hcloses]
    · rw [opens_other hslash hbracket, opens_other hslash hbracket]

/-- No tag begins in an escaped text. -/
theorem shows_go (htail : AllSlashes tail) (h : cs.length ≤ fuel) : Shows opened (escape.go fuel cs ++ tail) := by
  induction fuel, cs, h using go_induction with
  | nil fuel h =>
    rw [go_nil]
    exact shows_slashes htail
  | tag fuel n content rest h h' hcontent hbegins ih =>
    rw [go_tag (tagAt?_of_content n hcontent hbegins rest)]
    have hescaped := tagAt?_of_content (2 * n + 1) hcontent hbegins (escape.go fuel rest ++ tail)
    simp only [List.append_assoc, List.cons_append] at hescaped ⊢
    exact shows_escaped hescaped ih
  | char fuel c r h h' hnone ih =>
    have hopens := (go_keeps htail h').2.2.trans hnone
    obtain ⟨hslashes, hr, hother, hend⟩ := slashes_after c r
    rw [go_char hnone, List.cons_append, List.cons_append, List.append_assoc] at hopens ⊢
    generalize (r.takeWhile fun d => c == '\\' && d == '\\') = slashes at *
    generalize r.drop slashes.length = rest at *
    subst hr
    refine shows_char hopens ?_
    by_cases hslash : c = '\\'
    · subst hslash
      have hrun : slashes.all (fun d => '\\' == '\\' && d == '\\') = true := by simpa [AllSlashes] using hslashes
      rw [List.takeWhile_append_of_pos (List.all_eq_true.mp hrun), List.length_append, List.drop_length_add_append]
      -- The backslashes of the text have an end, or the text ends with them.
      cases rest with
      | nil =>
        rw [go_nil, List.nil_append]
        exact shows_slashes fun d hd => htail d (List.mem_of_mem_drop hd)
      | cons d rest =>
        have hd : d ≠ '\\' := by simpa using hend rfl
        have hopens' : opens (d :: rest) = false := by rwa [opens_slash, opens_slashes hslashes] at hnone
        obtain ⟨fuel, rfl⟩ := Nat.exists_eq_add_one_of_ne_zero (Nat.ne_of_gt (Nat.zero_lt_of_lt h))
        rw [go_char hopens', List.cons_append, List.cons_append] at ih ⊢
        rwa [List.takeWhile_cons_of_neg (by simpa using hd), List.length_nil, List.drop_zero]
    · obtain rfl := hother hslash
      rwa [List.nil_append, List.takeWhile_eq_nil_iff.mpr (by simp [hslash]), List.length_nil, List.drop_zero]

theorem shows_escape (s : String) : Shows opened (escape s).toList := by
  rw [escape, String.toList_ofList]
  split
  · exact shows_go (by simp [AllSlashes]) (Nat.le_succ _)
  · rw [← List.append_nil (escape.go _ _)]
    exact shows_go (List.forall_mem_nil _) (Nat.le_succ _)

end escaped

/-! Texts in a style. -/

theorem shown_of_shows {s : String} (h : Shows [] s.toList) (terminal : Terminal) : ∃ t, shown terminal s = .ok t := by
  obtain ⟨t, ht⟩ := h terminal _ [] (Nat.lt_succ_self _)
  exact ⟨_, by rw [shown, pieces, Outcome.bind_of_ok ht]⟩

/-- What names a style in a tag, and after a slash in the tag that closes it. -/
structure IsStyle (style : List Char) : Prop where
  bracketless : Bracketless style
  begins : style.head?.any beginsTag = true
  opening : style.head? ≠ some '/'
  plain : ∀ c ∈ style, (c != '=') = true
  visible : style.all Text.isBlank = false

variable {opened : List String} {style text rest : List Char}

theorem IsStyle.styles_opening (h : IsStyle style) : styles opened style = .ok (Style.nameOf style :: opened) := by
  rw [styles, List.takeWhile_eq_self_iff.mpr h.plain]
  split
  · exact absurd rfl h.opening
  · rfl

theorem IsStyle.styles_closing (h : IsStyle style) : styles (Style.nameOf style :: opened) ('/' :: style) = .ok opened := by
  have hplain : ∀ c ∈ '/' :: style, (c != '=') = true := List.forall_mem_cons.mpr ⟨rfl, h.plain⟩
  rw [styles, List.takeWhile_eq_self_iff.mpr hplain]
  simp [h.visible]

/-- A text in a style is shown, and what comes after it as if it stood alone. -/
theorem shows_styled (h : IsStyle style) (htext : Untagged text) (hrest : Shows opened rest) :
    Shows opened ('[' :: style ++ ']' :: (text ++ ('[' :: '/' :: style ++ ']' :: rest))) := by
  have hclosing : Bracketless ('/' :: style) := List.forall_mem_cons.mpr ⟨by decide, h.bracketless⟩
  refine shows_tag (tagAt?_of_content 0 h.bracketless h.begins _) h.styles_opening (shows_untagged htext ?_)
  exact shows_tag (tagAt?_of_content 0 hclosing rfl rest) h.styles_closing hrest

theorem shown_styled (style text : String) {s : String}
    (hs : s.toList = '[' :: style.toList ++ ']' :: (text.toList ++ ('[' :: '/' :: style.toList ++ ']' :: rest)))
    (h : IsStyle style.toList) (htext : Untagged text.toList) (hrest : Shows [] rest) (terminal : Terminal) :
    ∃ t, shown terminal s = .ok t :=
  shown_of_shows (hs ▸ shows_styled h htext hrest) terminal

end QualityGate.Console
