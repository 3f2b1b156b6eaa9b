import QualityGate.Proofs.Json.Passes
import QualityGate.Proofs.Json.Reading

/-! A text spells a tree in the lenient dialect exactly when its cleaned text spells the tree in the plain one. -/

namespace QualityGate.Json

/-! The end of a text. -/

section ending

variable {s t : List Char}

theorem cleaned_ending (h : Dialect.lenient.ending t) : AllBlank (cleaned false t) := by
  have hgap {g u : List Char} (hg : Gap g) (hu : AllBlank (uncommented false u)) : AllBlank (cleaned false (g ++ u)) := by
    obtain ⟨blanks, hblanks, hrest⟩ := uncommented_gap hg
    have hall := hblanks.append hu
    have hkept := untrailed_blanks hall.isBlank []
    rw [copying_untrailed.nil, List.append_nil] at hkept
    rwa [cleaned, hrest, hkept]
  rcases h with (hg | ⟨hg, hbody⟩) | ⟨g, body, hg, hbody, rfl⟩
  · simpa using hgap hg (u := []) (by simp [uncommented, AllBlank])
  · exact hgap hg (by simp [uncommented_lastLine hbody, AllBlank])
  · refine hgap hg ?_
    rw [uncommented_openBlock hbody]
    exact allBlank_filter body

theorem Dialect.lenient_ending_append {g : List Char} (hg : Gap g) (h : Dialect.lenient.ending t) :
    Dialect.lenient.ending (g ++ t) := by
  rcases h with (ht | ⟨ht, hbody⟩) | ⟨g', body, hg', hbody, rfl⟩
  · exact .inl (.gap (hg.append ht))
  · rw [← List.append_assoc]
    exact .inl (.line (hg.append ht) hbody)
  · exact .inr ⟨g ++ g', body, hg.append hg', hbody, by simp⟩

theorem ending_of_uncommented (h : AllBlank (uncommented false t)) : Dialect.lenient.ending t := by
  induction hn : t.length using Nat.strong_induction_on generalizing t with
  | h n ih =>
  cases front t with
  | nil => exact .inl (.gap .nil)
  | quote r =>
    rw [uncommented] at h
    exact absurd (h _ List.mem_cons_self) (by decide)
  | @comment k hk r =>
    obtain ⟨blanks, -, hleft, -⟩ := uncommented_comment hk
    have hpos : 0 < k.length := List.length_pos_iff.mpr hk.ne_nil
    rw [hleft] at h
    rw [List.length_append] at hn
    have hr := ih r.length (by omega) (List.forall_mem_append.mp h).2 rfl
    simpa using Dialect.lenient_ending_append (.comment hk .nil) hr
  | lastLine hbody => exact .inl (.line .nil hbody)
  | openBlock hbody => exact .inr ⟨[], _, .nil, hbody, rfl⟩
  | @other b r hquote hleft =>
    rw [hleft] at h
    obtain ⟨hspace, hr⟩ := List.forall_mem_cons.mp h
    rw [List.length_cons] at hn
    have hrest := ih r.length (by omega) hr rfl
    simpa using Dialect.lenient_ending_append (.blank hspace .nil) hrest

theorem untrailed_of_allBlank (h : AllBlank (untrailed false s)) : untrailed false s = s := by
  induction s with
  | nil => exact copying_untrailed.nil false
  | cons c r ih =>
    by_cases hquote : c = '"'
    · subst hquote
      rw [untrailed] at h
      exact absurd (h _ List.mem_cons_self) (by decide)
    by_cases hcomma : c = ','
    · subst hcomma
      rw [untrailed] at h
      split at h
      case isFalse => exact absurd (h _ List.mem_cons_self) (by decide)
      case isTrue hcloses =>
      -- The closer that took the comma away is left.
      rw [ih h] at h
      obtain ⟨b, c, r, -, rfl, hc, -⟩ := exists_of_closesNext hcloses
      have hblank := h.isBlank c (by simp)
      rw [hc] at hblank
      cases hblank
    · rw [untrailed_other hquote hcomma] at h ⊢
      rw [ih (List.forall_mem_cons.mp h).2]

theorem ending_of_cleaned (h : AllBlank (cleaned false t)) : Dialect.lenient.ending t := by
  rw [cleaned] at h
  have hkept := untrailed_of_allBlank h
  rw [hkept] at h
  exact ending_of_uncommented h

end ending

/-! Tokens and names. -/

section tokens

variable {c : Char} {g k out t w : List Char}

theorem cleaned_inline (h : Inline k) (r : List Char) : cleaned false (k ++ r) = cleaned false r := by
  rw [cleaned, uncommented_inline h, cleaned]

theorem cleaned_tokenChar (hc : isTokenChar c = true) (r : List Char) : cleaned false (c :: r) = c :: cleaned false r :=
  cleaned_other (ne_of_isTokenChar hc rfl) (ne_of_isTokenChar hc rfl) (ne_of_isTokenChar hc rfl) r

theorem cleaned_woven (hw : ∀ c ∈ w, isTokenChar c = true) (h : Woven w t) (r : List Char) :
    cleaned false (t ++ r) = w ++ cleaned false r := by
  induction h with
  | single c => exact cleaned_tokenChar (hw c List.mem_cons_self) r
  | cons c hk _ ih =>
    obtain ⟨hc, hw⟩ := List.forall_mem_cons.mp hw
    rw [List.cons_append, List.append_assoc, cleaned_tokenChar hc, cleaned_inline hk, ih hw, List.cons_append]

theorem isBlank_of_isTokenChar (hc : isTokenChar c = true) : Text.isBlank c = false := by
  obtain ⟨hlow, hhigh⟩ := toNat_of_isTokenChar hc
  simp only [Text.isBlank, Bool.or_eq_false_iff, Bool.and_eq_false_iff, decide_eq_false_iff_not, beq_eq_false_iff_ne]
  omega

theorem isCloser_of_isTokenChar (hc : isTokenChar c = true) : isCloser c = false := by
  simp [isCloser, ne_of_isTokenChar (b := '\x7d') hc rfl, ne_of_isTokenChar (b := ']') hc rfl]

/-- Before a character that closes nothing stood a gap only. -/
theorem cleaned_inv_gap (hg : AllBlank g) (hc : Text.isBlank c = false) (hcloser : isCloser c = false)
    (h : cleaned false t = g ++ c :: out) :
    ∃ k t', t = k ++ c :: t' ∧ cleaned (c == '"') t' = out ∧ Gap k ∧ (g = [] → Inline k) := by
  obtain ⟨k, t', ht, hout, hgap | ⟨hcloses, -⟩⟩ := cleaned_inv hg hc h
  · exact ⟨k, t', ht, hout, hgap⟩
  · rw [hcloser] at hcloses
    cases hcloses

theorem exists_woven (hne : w ≠ []) (hw : ∀ c ∈ w, isTokenChar c = true) (hg : AllBlank g)
    (h : cleaned false t = g ++ (w ++ out)) :
    ∃ k u r, t = k ++ (u ++ r) ∧ Gap k ∧ (g = [] → Inline k) ∧ Woven w u ∧ cleaned false r = out := by
  induction w generalizing t g with
  | nil => exact absurd rfl hne
  | cons c w ih =>
    obtain ⟨hc, hw⟩ := List.forall_mem_cons.mp hw
    obtain ⟨k, t', rfl, ht', hk, hinline⟩ :=
      cleaned_inv_gap hg (isBlank_of_isTokenChar hc) (isCloser_of_isTokenChar hc) h
    have hquote : (c == '"') = false := beq_eq_false_iff_ne.mpr (ne_of_isTokenChar hc rfl)
    rw [hquote] at ht'
    cases w with
    | nil => exact ⟨k, [c], t', rfl, hk, hinline, .single c, ht'⟩
    | cons b w =>
      obtain ⟨k', u, r, rfl, -, hinline', hwoven, hr⟩ := ih (by simp) hw (show AllBlank [] from nofun) ht'
      exact ⟨k, c :: (k' ++ u), r, by simp, hk, hinline, .cons c (hinline' rfl) hwoven, hr⟩

theorem exists_quoted {σ : Type} [OfPoints σ] {name : σ} (hw : Quoted name w) (hg : AllBlank g)
    (h : cleaned false t = g ++ (w ++ out)) :
    ∃ k r, t = k ++ (w ++ r) ∧ Gap k ∧ cleaned false r = out := by
  obtain ⟨cs, hcs⟩ : ∃ cs, w = '"' :: cs := by
    cases hw
    exact ⟨_, rfl⟩
  have hfirst : cleaned false t = g ++ '"' :: (cs ++ out) := by rw [h, hcs, List.cons_append]
  obtain ⟨k, t', rfl, ht', hk, -⟩ := cleaned_inv_gap hg (by decide) (by decide) hfirst
  have hstring : '"' :: cleaned true t' = w ++ out := by rw [hcs]; exact congrArg _ ht'
  obtain ⟨r, hr, hout⟩ := copying_cleaned.exists_of_quoted hw hstring
  exact ⟨k, r, by rw [hr], hk, hout⟩

end tokens

/-! Parts of arrays and objects. -/

section parts

variable {c : Char} {g k out t : List Char}

theorem ne_of_isCloser {b : Char} (h : isCloser c = true) (hb : isCloser b = false) : c ≠ b := by
  rintro rfl
  simp [hb] at h

theorem isBlank_of_isCloser (h : isCloser c = true) : Text.isBlank c = false := by
  have hc : c = '\x7d' ∨ c = ']' := by simpa [isCloser] using h
  rcases hc with rfl | rfl <;> rfl

theorem cleaned_closer (h : isCloser c = true) (r : List Char) : cleaned false (c :: r) = c :: cleaned false r :=
  cleaned_other (ne_of_isCloser h rfl) (ne_of_isCloser h rfl) (ne_of_isCloser h rfl) r

theorem cleaned_closing (hk : Dialect.lenient.closing k) (hc : isCloser c = true) :
    ∃ blanks, AllBlank blanks ∧ ∀ r, cleaned false (k ++ c :: r) = blanks ++ c :: cleaned false r := by
  obtain rfl | ⟨g, hg, rfl⟩ := hk
  · exact ⟨[], nofun, cleaned_closer hc⟩
  · obtain ⟨blanks, hblanks, hrest⟩ := cleaned_gap hg
    refine ⟨blanks, hblanks, fun r => ?_⟩
    rw [List.cons_append, cleaned_comma hg (isBlank_of_isCloser hc) (ne_of_isCloser hc rfl), if_pos hc, hrest,
      cleaned_closer hc]

theorem cleaned_hollow (hk : Dialect.lenient.hollow k) (hc : isCloser c = true) :
    ∃ blanks, AllBlank blanks ∧ ∀ r, cleaned false (k ++ c :: r) = blanks ++ c :: cleaned false r := by
  obtain hg | ⟨g, g', hg, hg', rfl⟩ := hk
  · obtain ⟨blanks, hblanks, hrest⟩ := cleaned_gap hg
    exact ⟨blanks, hblanks, fun r => by rw [hrest, cleaned_closer hc]⟩
  · obtain ⟨before, hbefore, hrest⟩ := cleaned_gap hg
    obtain ⟨after, hafter, hclosing⟩ := cleaned_closing (.inr ⟨g', hg', rfl⟩) hc
    refine ⟨before ++ after, hbefore.append hafter, fun r => ?_⟩
    rw [List.append_assoc, hrest, hclosing, List.append_assoc]

theorem exists_hollow (hg : AllBlank g) (hc : isCloser c = true) (h : cleaned false t = g ++ c :: out) :
    ∃ k r, t = k ++ c :: r ∧ Dialect.lenient.hollow k ∧ cleaned false r = out := by
  have hquote : (c == '"') = false := beq_eq_false_iff_ne.mpr (ne_of_isCloser hc rfl)
  obtain ⟨k, r, rfl, hr, hk⟩ := cleaned_inv hg (isBlank_of_isCloser hc) h
  rw [hquote] at hr
  obtain ⟨hk, -⟩ | ⟨-, k₁, k₂, hk₁, hk₂, rfl⟩ := hk
  · exact ⟨k, r, rfl, .inl hk, hr⟩
  · exact ⟨_, r, rfl, .inr ⟨k₁, k₂, hk₁, hk₂, rfl⟩, hr⟩

/-- What a part can begin with after its gap. -/
def Begins (t : List Char) : Prop :=
  ∃ g c r, t = g ++ c :: r ∧ Gap g ∧ Text.isBlank c = false ∧ c ≠ '/' ∧ isCloser c = false

theorem Begins.append (h : Begins t) (r : List Char) : Begins (t ++ r) := by
  obtain ⟨g, c, s, rfl, hg, hc⟩ := h
  exact ⟨g, c, s ++ r, by simp, hg, hc⟩

theorem Begins.after (hg : Gap g) (h : Begins t) : Begins (g ++ t) := by
  obtain ⟨g', c, s, rfl, hg', hc⟩ := h
  exact ⟨g ++ g', c, s, by simp, hg.append hg', hc⟩

theorem Begins.comma (h : Begins t) : cleaned false (',' :: t) = ',' :: cleaned false t := by
  obtain ⟨g, c, r, rfl, hg, hblank, hslash, hcloser⟩ := h
  rw [cleaned_comma hg hblank hslash, if_neg (by simp [hcloser])]

variable {α γ : Type} {chars : α → List Char} {f : α → γ} {P Q : α → Prop}

/-- Parts that are cleaned one by one are cleaned with the commas between them, and the last may be followed by
blanks. -/
theorem cleaned_parts (hpart : ∀ a, P a → ∀ g, AllBlank g → ∃ b, f b = f a ∧ Q b ∧
      ∀ x y, cleaned false x = g ++ y → cleaned false (chars a ++ x) = chars b ++ y)
    (hbegins : ∀ a, P a → Begins (chars a)) {as : List α} (has : ∀ a ∈ as, P a) (hne : as ≠ []) (hg : AllBlank g) :
    ∃ bs, bs ≠ [] ∧ bs.map f = as.map f ∧ (∀ b ∈ bs, Q b) ∧
      ∀ x y, cleaned false x = g ++ y → cleaned false (joined (as.map chars) ++ x) = joined (bs.map chars) ++ y := by
  induction as with
  | nil => exact absurd rfl hne
  | cons a as ih =>
    obtain ⟨ha, has⟩ := List.forall_mem_cons.mp has
    cases as with
    | nil =>
      obtain ⟨b, hf, hb, hrest⟩ := hpart a ha g hg
      refine ⟨[b], by simp, by simp [hf], by simpa using hb, fun x y hxy => ?_⟩
      rw [joined_singleton, joined_singleton, hrest x y hxy]
    | cons a' as =>
      obtain ⟨b, hf, hb, hrest⟩ := hpart a ha [] nofun
      obtain ⟨bs, hbs, hmap, hall, hmore⟩ := ih has (by simp)
      obtain ⟨b', bs, rfl⟩ := List.exists_cons_of_ne_nil hbs
      refine ⟨b :: b' :: bs, by simp, by simp [hf, ← hmap], List.forall_mem_cons.mpr ⟨hb, hall⟩, fun x y hxy => ?_⟩
      have hnext : Begins (joined ((a' :: as).map chars) ++ x) := by
        have ha' := hbegins a' (has a' List.mem_cons_self)
        cases as with
        | nil =>
          rw [joined_singleton]
          exact ha'.append x
        | cons a'' as =>
          rw [joined_cons_cons, List.append_assoc]
          exact ha'.append _
      rw [joined_cons_cons, joined_cons_cons, List.append_assoc, List.append_assoc]
      refine hrest _ _ ?_
      rw [List.cons_append, hnext.comma, hmore x y hxy, List.nil_append, List.cons_append]

/-- Where the cleaned text of parts stands, parts stood, and the last may have been followed by a comma. -/
theorem exists_parts (hpart : ∀ a, P a → ∀ {t c out}, c = ',' ∨ isCloser c = true →
      cleaned false t = chars a ++ c :: out → ∃ b k r, f b = f a ∧ Q b ∧ t = chars b ++ (k ++ c :: r) ∧
        cleaned false r = out ∧ (k = [] ∨ isCloser c = true ∧ Dialect.lenient.closing k))
    {as : List α} (has : ∀ a ∈ as, P a) (hne : as ≠ []) (hc : isCloser c = true)
    (h : cleaned false t = joined (as.map chars) ++ c :: out) :
    ∃ bs k r, bs ≠ [] ∧ bs.map f = as.map f ∧ (∀ b ∈ bs, Q b) ∧ t = joined (bs.map chars) ++ (k ++ c :: r) ∧
      Dialect.lenient.closing k ∧ cleaned false r = out := by
  induction as generalizing t with
  | nil => exact absurd rfl hne
  | cons a as ih =>
    obtain ⟨ha, has⟩ := List.forall_mem_cons.mp has
    cases as with
    | nil =>
      rw [joined_singleton] at h
      obtain ⟨b, k, r, hf, hb, rfl, hr, hk⟩ := hpart a ha (.inr hc) h
      refine ⟨[b], k, r, by simp, by simp [hf], by simpa using hb, by rw [joined_singleton], ?_, hr⟩
      exact hk.elim .inl And.right
    | cons a' as =>
      rw [joined_cons_cons, List.append_assoc] at h
      obtain ⟨b, k, r, hf, hb, rfl, hr, rfl | ⟨hcomma, -⟩⟩ := hpart a ha (.inl rfl) h
      · obtain ⟨bs, k, r', hbs, hmap, hall, rfl, hk, hr'⟩ := ih has (by simp) hr
        obtain ⟨b', bs, rfl⟩ := List.exists_cons_of_ne_nil hbs
        refine ⟨b :: b' :: bs, k, r', by simp, by simp [hf, ← hmap], List.forall_mem_cons.mpr ⟨hb, hall⟩, ?_, hk, hr'⟩
        rw [joined_cons_cons, List.append_assoc]
        simp
      · cases hcomma

end parts

/-! Trees. -/

section trees

variable {σ : Type} [OfPoints σ]

/-- An item in a dialect. -/
structure Item.In (d : Dialect) (i : Item σ) : Prop where
  before : d.gap i.before
  after : d.gap i.after
  spelling : Spelling d i.value i.text

structure Entry.In (d : Dialect) (e : Entry σ) : Prop where
  before : d.gap e.before
  name : Quoted e.name e.nameText
  after : d.gap e.after
  item : e.item.In d

theorem Spelling.arrayOf {d : Dialect} {items : List (Item σ)} {c : List Char} (hne : items ≠ [])
    (h : ∀ i ∈ items, i.In d) (hc : d.closing c) :
    Spelling d (arr (items.map Item.value)) ('[' :: (joined (items.map Item.chars) ++ (c ++ [']']))) :=
  .array hne (fun i hi => ⟨(h i hi).before, (h i hi).after⟩) (fun i hi => (h i hi).spelling) hc

theorem Spelling.objectOf {d : Dialect} {entries : List (Entry σ)} {c : List Char} (hne : entries ≠ [])
    (h : ∀ e ∈ entries, e.In d) (hc : d.closing c) :
    Spelling d (obj (entries.map Entry.field)) ('\x7b' :: (joined (entries.map Entry.chars) ++ (c ++ ['\x7d']))) :=
  .object hne (fun e he => ⟨(h e he).before, (h e he).name, (h e he).after⟩)
    (fun e he => ⟨(h e he).item.before, (h e he).item.after⟩) (fun e he => (h e he).item.spelling) hc

/-- A text that becomes a text of the same tree, whatever follows. -/
def Cleans (v : Json σ) (t : List Char) : Prop :=
  ∃ w, Spelling .plain v w ∧ ∀ r, cleaned false (t ++ r) = w ++ cleaned false r

section forward

variable {g t : List Char} {v : Json σ} {name : σ}

theorem begins_quoted (h : Quoted name t) : Begins t := by
  cases h
  exact ⟨[], '"', _, rfl, .nil, by decide, by decide, by decide⟩

theorem begins_of_spelling (h : Spelling .lenient v t) : Begins t := by
  cases h with
  | @scalar _ w _ h ht =>
    have hfirst : ∃ c r, t = c :: r ∧ c ∈ w := by
      obtain c | ⟨c, hk, h⟩ : Woven w t := ht
      · exact ⟨c, [], rfl, List.mem_cons_self⟩
      · exact ⟨c, _, rfl, List.mem_cons_self⟩
    obtain ⟨c, r, rfl, hmem⟩ := hfirst
    have hc := h.isTokenChar c hmem
    exact ⟨[], c, r, rfl, .nil, isBlank_of_isTokenChar hc, ne_of_isTokenChar hc rfl, isCloser_of_isTokenChar hc⟩
  | str h => exact begins_quoted h
  | emptyArray => exact ⟨[], '[', _, rfl, .nil, by decide, by decide, by decide⟩
  | array => exact ⟨[], '[', _, rfl, .nil, by decide, by decide, by decide⟩
  | emptyObject => exact ⟨[], '\x7b', _, rfl, .nil, by decide, by decide, by decide⟩
  | object => exact ⟨[], '\x7b', _, rfl, .nil, by decide, by decide, by decide⟩

theorem cleaned_item {i : Item σ} (hi : i.In .lenient) (hclean : Cleans i.value i.text) (hg : AllBlank g) :
    ∃ j : Item σ, j.value = i.value ∧ j.In .plain ∧
      ∀ x y, cleaned false x = g ++ y → cleaned false (i.chars ++ x) = j.chars ++ y := by
  obtain ⟨before, hbefore, hfront⟩ := cleaned_gap hi.before
  obtain ⟨after, hafter, hback⟩ := cleaned_gap hi.after
  obtain ⟨w, hw, htext⟩ := hclean
  refine ⟨⟨before, i.value, w, after ++ g⟩, rfl, ⟨hbefore, hafter.append hg, hw⟩, fun x y hxy => ?_⟩
  simp only [Item.chars, List.append_assoc]
  rw [hfront, htext, hback, hxy]

theorem cleaned_entry {e : Entry σ} (he : e.In .lenient) (hclean : Cleans e.item.value e.item.text) (hg : AllBlank g) :
    ∃ e' : Entry σ, e'.field = e.field ∧ e'.In .plain ∧
      ∀ x y, cleaned false x = g ++ y → cleaned false (e.chars ++ x) = e'.chars ++ y := by
  obtain ⟨before, hbefore, hfront⟩ := cleaned_gap he.before
  obtain ⟨after, hafter, hback⟩ := cleaned_gap he.after
  obtain ⟨j, hj, hplain, hitem⟩ := cleaned_item he.item hclean hg
  refine ⟨⟨before, e.name, e.nameText, after, j⟩, by rw [Entry.field, hj, Entry.field],
    ⟨hbefore, he.name, hafter, hplain⟩, fun x y hxy => ?_⟩
  simp only [Entry.chars, List.append_assoc, List.cons_append]
  rw [hfront, copying_cleaned.quoted he.name, hback, cleaned_other (by decide) (by decide) (by decide),
    hitem x y hxy]

theorem cleans_of_spelling (h : Spelling .lenient v t) : Cleans v t := by
  induction h with
  | scalar h ht => exact ⟨_, .scalar h rfl, cleaned_woven h.isTokenChar ht⟩
  | str h => exact ⟨_, .str h, copying_cleaned.quoted h⟩
  | emptyArray hg =>
    obtain ⟨blanks, hblanks, hrest⟩ := cleaned_hollow hg (c := ']') rfl
    refine ⟨_, .emptyArray hblanks, fun r => ?_⟩
    simp [cleaned_other, hrest]
  | emptyObject hg =>
    obtain ⟨blanks, hblanks, hrest⟩ := cleaned_hollow hg (c := '\x7d') rfl
    refine ⟨_, .emptyObject hblanks, fun r => ?_⟩
    simp [cleaned_other, hrest]
  | @array items k hne hgaps hitems hk ih =>
    obtain ⟨blanks, hblanks, hrest⟩ := cleaned_closing hk (c := ']') rfl
    obtain ⟨js, hjs, hmap, hplain, hjoined⟩ :=
      cleaned_parts (f := Item.value) (P := fun i => i.In .lenient ∧ Cleans i.value i.text)
        (fun i hi g hg => cleaned_item hi.1 hi.2 hg)
        (fun i hi => .after hi.1.before ((begins_of_spelling hi.1.spelling).append i.after))
        (fun i hi => ⟨⟨(hgaps i hi).1, (hgaps i hi).2, hitems i hi⟩, ih i hi⟩) hne hblanks
    rw [← hmap]
    refine ⟨_, .arrayOf hjs hplain rfl, fun r => ?_⟩
    have hparts := hjoined (k ++ ']' :: r) (']' :: cleaned false r) (hrest r)
    simp [cleaned_other, hparts]
  | @object entries k hne hnames hgaps hitems hk ih =>
    obtain ⟨blanks, hblanks, hrest⟩ := cleaned_closing hk (c := '\x7d') rfl
    obtain ⟨es, hes, hmap, hplain, hjoined⟩ :=
      cleaned_parts (f := Entry.field) (P := fun e => e.In .lenient ∧ Cleans e.item.value e.item.text)
        (fun e he g hg => cleaned_entry he.1 he.2 hg)
        (fun e he => .after he.1.before ((begins_quoted he.1.name).append _))
        (fun e he => ⟨⟨(hnames e he).1, (hnames e he).2.1, (hnames e he).2.2, (hgaps e he).1, (hgaps e he).2,
          hitems e he⟩, ih e he⟩) hne hblanks
    rw [← hmap]
    refine ⟨_, .objectOf hes hplain rfl, fun r => ?_⟩
    have hparts := hjoined (k ++ '\x7d' :: r) ('\x7d' :: cleaned false r) (hrest r)
    simp [cleaned_other, hparts]

theorem spelled_cleaned (h : Spelled .lenient v t) : Spelled .plain v (cleaned false t) := by
  obtain ⟨front, text, back, rfl, hfront, htext, hback⟩ := h
  obtain ⟨blanks, hblanks, hrest⟩ := cleaned_gap hfront
  obtain ⟨w, hw, hclean⟩ := cleans_of_spelling htext
  exact ⟨blanks, w, _, by rw [hrest, hclean], hblanks, hw, cleaned_ending hback⟩

end forward

/-- Wherever a text stands in a cleaned text, a text of the same tree stood. -/
def Recovers (v : Json σ) (w : List Char) : Prop :=
  ∀ {t g out : List Char}, AllBlank g → cleaned false t = g ++ (w ++ out) →
    ∃ k u r, t = k ++ (u ++ r) ∧ Gap k ∧ Spelling .lenient v u ∧ cleaned false r = out

section backward

variable {c : Char} {t w out : List Char} {v : Json σ}

theorem exists_item {i : Item σ} (hbefore : AllBlank i.before) (hafter : AllBlank i.after)
    (htext : Recovers i.value i.text) (hc : c = ',' ∨ isCloser c = true) (h : cleaned false t = i.chars ++ c :: out) :
    ∃ (j : Item σ) (k r : List Char), j.value = i.value ∧ j.In .lenient ∧ t = j.chars ++ (k ++ c :: r) ∧
      cleaned false r = out ∧ (k = [] ∨ isCloser c = true ∧ Dialect.lenient.closing k) := by
  have hfacts : Text.isBlank c = false ∧ (c == '"') = false := by
    rcases hc with rfl | hc
    · decide
    · exact ⟨isBlank_of_isCloser hc, beq_eq_false_iff_ne.mpr (ne_of_isCloser hc rfl)⟩
  obtain ⟨hblank, hquote⟩ := hfacts
  rw [Item.chars, List.append_assoc, List.append_assoc] at h
  obtain ⟨k, u, r, rfl, hk, hu, hr⟩ := htext hbefore h
  obtain ⟨k', r', rfl, hr', hk'⟩ := cleaned_inv hafter hblank hr
  rw [hquote] at hr'
  obtain ⟨hk', -⟩ | ⟨hcloser, k₁, k₂, hk₁, hk₂, rfl⟩ := hk'
  · exact ⟨⟨k, i.value, u, k'⟩, [], r', rfl, ⟨hk, hk', hu⟩, by simp [Item.chars], hr', .inl rfl⟩
  · exact ⟨⟨k, i.value, u, k₁⟩, ',' :: k₂, r', rfl, ⟨hk, hk₁, hu⟩, by simp [Item.chars], hr',
      .inr ⟨hcloser, .inr ⟨k₂, hk₂, rfl⟩⟩⟩

theorem exists_entry {e : Entry σ} (hbefore : AllBlank e.before) (hname : Quoted e.name e.nameText)
    (hafter : AllBlank e.after) (hitem : AllBlank e.item.before ∧ AllBlank e.item.after)
    (htext : Recovers e.item.value e.item.text) (hc : c = ',' ∨ isCloser c = true)
    (h : cleaned false t = e.chars ++ c :: out) :
    ∃ (e' : Entry σ) (k r : List Char), e'.field = e.field ∧ e'.In .lenient ∧ t = e'.chars ++ (k ++ c :: r) ∧
      cleaned false r = out ∧ (k = [] ∨ isCloser c = true ∧ Dialect.lenient.closing k) := by
  simp only [Entry.chars, List.append_assoc, List.cons_append] at h
  obtain ⟨k, r, rfl, hk, hr⟩ := exists_quoted hname hbefore h
  obtain ⟨k', r', rfl, hr', hk', -⟩ := cleaned_inv_gap hafter (by decide) (by decide) hr
  obtain ⟨j, closing, r, hj, hin, rfl, hr, hclosing⟩ := exists_item hitem.1 hitem.2 htext hc hr'
  exact ⟨⟨k, e.name, e.nameText, k', j⟩, closing, r, by rw [Entry.field, hj, Entry.field], ⟨hk, hname, hk', hin⟩,
    by simp [Entry.chars], hr, hclosing⟩

theorem recovers_of_spelling (h : Spelling .plain v w) : Recovers v w := by
  induction h with
  | scalar h ht =>
    obtain rfl : _ = _ := ht
    intro t g out hg htext
    obtain ⟨k, u, r, ht, hk, -, hu, hr⟩ := exists_woven h.ne_nil h.isTokenChar hg htext
    exact ⟨k, u, r, ht, hk, .scalar h hu, hr⟩
  | str h =>
    intro t g out hg htext
    obtain ⟨k, r, ht, hk, hr⟩ := exists_quoted h hg htext
    exact ⟨k, _, r, ht, hk, .str h, hr⟩
  | emptyArray hblank =>
    intro t g out hg htext
    rw [List.cons_append, List.append_assoc] at htext
    obtain ⟨k, r, rfl, hr, hk, -⟩ := cleaned_inv_gap hg (by decide) (by decide) htext
    obtain ⟨k', r, rfl, hk', hr⟩ := exists_hollow hblank (by decide) hr
    exact ⟨k, _, r, by simp, hk, .emptyArray hk', hr⟩
  | emptyObject hblank =>
    intro t g out hg htext
    rw [List.cons_append, List.append_assoc] at htext
    obtain ⟨k, r, rfl, hr, hk, -⟩ := cleaned_inv_gap hg (by decide) (by decide) htext
    obtain ⟨k', r, rfl, hk', hr⟩ := exists_hollow hblank (by decide) hr
    exact ⟨k, _, r, by simp, hk, .emptyObject hk', hr⟩
  | array hne hgaps _ hc ih =>
    obtain rfl : _ = [] := hc
    intro t g out hg htext
    rw [List.cons_append, List.append_assoc] at htext
    obtain ⟨k, r, rfl, hr, hk, -⟩ := cleaned_inv_gap hg (by decide) (by decide) htext
    obtain ⟨js, closing, r, hjs, hmap, hin, rfl, hclosing, hr⟩ :=
      exists_parts (f := Item.value) (P := fun i => (AllBlank i.before ∧ AllBlank i.after) ∧ Recovers i.value i.text)
        (fun i hi => exists_item hi.1.1 hi.1.2 hi.2) (fun i hi => ⟨hgaps i hi, ih i hi⟩) hne (by decide) hr
    rw [← hmap]
    exact ⟨k, _, r, by simp, hk, .arrayOf hjs hin hclosing, hr⟩
  | object hne hnames hgaps _ hc ih =>
    obtain rfl : _ = [] := hc
    intro t g out hg htext
    rw [List.cons_append, List.append_assoc] at htext
    obtain ⟨k, r, rfl, hr, hk, -⟩ := cleaned_inv_gap hg (by decide) (by decide) htext
    obtain ⟨es, closing, r, hes, hmap, hin, rfl, hclosing, hr⟩ :=
      exists_parts (f := Entry.field)
        (P := fun e => (AllBlank e.before ∧ Quoted e.name e.nameText ∧ AllBlank e.after) ∧
          (AllBlank e.item.before ∧ AllBlank e.item.after) ∧ Recovers e.item.value e.item.text)
        (fun e he => exists_entry he.1.1 he.1.2.1 he.1.2.2 he.2.1 he.2.2)
        (fun e he => ⟨hnames e he, hgaps e he, ih e he⟩) hne (by decide) hr
    rw [← hmap]
    exact ⟨k, _, r, by simp, hk, .objectOf hes hin hclosing, hr⟩

theorem spelled_of_cleaned (h : Spelled .plain v (cleaned false t)) : Spelled .lenient v t := by
  obtain ⟨front, text, back, ht, hfront, htext, hback⟩ := h
  obtain ⟨k, u, r, rfl, hk, hu, hr⟩ := recovers_of_spelling htext hfront ht
  refine ⟨k, u, r, rfl, hk, hu, ending_of_cleaned ?_⟩
  rw [hr]
  exact hback

end backward

/-- Comments and trailing commas are what the lenient dialect adds. -/
theorem spelled_cleaned_iff {v : Json σ} {t : List Char} :
    Spelled .plain v (cleaned false t) ↔ Spelled .lenient v t :=
  ⟨spelled_of_cleaned, spelled_cleaned⟩

end trees

/-! Nothing is added to a text. -/

section size

variable {quoted : Bool} {s : List Char}

theorem uncommented_sublist : (uncommented quoted s).Sublist s := by
  fun_induction uncommented quoted s with
  | case1 => exact List.Sublist.refl []
  | case2 c r ih => exact (ih.cons_cons c).cons_cons '\\'
  | case3 c r _ ih => exact ih.cons_cons c
  | case4 r ih => exact ih.cons_cons '"'
  | case5 r ih => exact ((ih.trans (List.drop_sublist _ r)).cons '/').cons '/'
  | case6 r n ih =>
    have hparts := (List.filter_sublist (p := (· == '\n')) (l := r.take n)).append ih
    rw [List.take_append_drop] at hparts
    exact (hparts.cons '*').cons '/'
  | case7 c r _ _ _ ih => exact ih.cons_cons c

theorem untrailed_sublist : (untrailed quoted s).Sublist s := by
  fun_induction untrailed quoted s with
  | case1 => exact List.Sublist.refl []
  | case2 c r ih => exact (ih.cons_cons c).cons_cons '\\'
  | case3 c r _ ih => exact ih.cons_cons c
  | case4 r ih => exact ih.cons_cons '"'
  | case5 r _ ih => exact ih.cons ','
  | case6 r _ ih => exact ih.cons_cons ','
  | case7 c r _ _ ih => exact ih.cons_cons c

theorem cleaned_sublist : (cleaned quoted s).Sublist s := untrailed_sublist.trans uncommented_sublist

end size

end QualityGate.Json
