import Mathlib
import QualityGate.Json.Reader
import QualityGate.Proofs.Json.WholeNumber
import QualityGate.Proofs.Text.Numeral

/-! The reader inverts the writer: a value is read back from its text, whatever
blanks the writer puts between the parts. Excepted are floats and values that
are beyond the reader's bounds. -/

namespace QualityGate.Json

/-! Every string is read back from its quoted form. -/

theorem hexValue_digitChar {d : Nat} (h : d < 16) : Text.hexValue? d.digitChar = some d := by
  interval_cases d <;> rfl

theorem codeUnit_digits {n : Nat} (h : n < 65536) :
    codeUnit? (n / 4096).digitChar (n / 256 % 16).digitChar (n / 16 % 16).digitChar (n % 16).digitChar = some n := by
  have h1 := hexValue_digitChar (d := n / 4096) (by omega)
  have h2 := hexValue_digitChar (d := n / 256 % 16) (by omega)
  have h3 := hexValue_digitChar (d := n / 16 % 16) (by omega)
  have h4 := hexValue_digitChar (d := n % 16) (by omega)
  have hsum : ((n / 4096 * 16 + n / 256 % 16) * 16 + n / 16 % 16) * 16 + n % 16 = n := by omega
  simp only [codeUnit?, h1, h2, h3, h4, Option.bind_eq_bind, Option.bind_some, hsum]

section strings

variable {σ : Type} [OfPoints σ]

/-- An escaped unit that is no surrogate stands for its character, whatever text follows. -/
theorem stringFrom_codeUnit {c : Char} (h : c.toNat < 65536) (start index : Nat) {rest : List Char}
    (hrest : rest ≠ []) (acc : List Nat) :
    (stringFrom start index (codeUnitEscape c.toNat ++ rest) acc : Except Fault (Step σ)) =
      stringFrom start (index + 6) rest (c.toNat :: acc) := by
  have hvalid : c.toNat < 0xd800 ∨ 0xdfff < c.toNat ∧ c.toNat < 0x110000 := c.valid
  have hhigh : isHighSurrogate c.toNat = false := by simp [isHighSurrogate]; omega
  have hempty : rest.isEmpty = false := by simpa using hrest
  rw [codeUnitEscape, hexDigits_four h]
  simp only [List.cons_append, List.nil_append]
  rw [stringFrom]
  simp only [hempty, codeUnit_digits h, hhigh, Bool.false_eq_true, if_false, Bool.false_and]
  split <;> rfl

theorem pairPoint_halves {n : Nat} (h : 65536 ≤ n) :
    pairPoint (0xd800 + (n - 0x10000) / 0x400) (0xdc00 + (n - 0x10000) % 0x400) = n := by
  unfold pairPoint
  omega

theorem stringFrom_unitPair {a b c d a' b' c' d' : Char} {high low start index : Nat} {rest : List Char} {acc : List Nat}
    (hh : codeUnit? a b c d = some high) (hl : codeUnit? a' b' c' d' = some low)
    (hpair : (isHighSurrogate high && isLowSurrogate low) = true) (hrest : rest ≠ []) :
    (stringFrom start index ('\\' :: 'u' :: a :: b :: c :: d :: '\\' :: 'u' :: a' :: b' :: c' :: d' :: rest) acc :
        Except Fault (Step σ)) =
      stringFrom start (index + 12) rest (pairPoint high low :: acc) := by
  have hempty : rest.isEmpty = false := by simpa using hrest
  obtain ⟨hhigh, hlow⟩ : isHighSurrogate high = true ∧ isLowSurrogate low = true := by simpa using hpair
  rw [stringFrom]
  simp only [List.isEmpty_cons, hempty, hh, hl, hhigh, hlow, Bool.false_eq_true, if_false, Bool.not_false,
    Bool.and_self, if_true]

/-- A pair of escaped surrogates stands for one character. -/
theorem stringFrom_pair {c : Char} (h : 65536 ≤ c.toNat) (start index : Nat) {rest : List Char}
    (hrest : rest ≠ []) (acc : List Nat) :
    (stringFrom start index (codeUnitEscape (0xd800 + (c.toNat - 0x10000) / 0x400) ++
        codeUnitEscape (0xdc00 + (c.toNat - 0x10000) % 0x400) ++ rest) acc : Except Fault (Step σ)) =
      stringFrom start (index + 12) rest (c.toNat :: acc) := by
  have hvalid : c.toNat < 0xd800 ∨ 0xdfff < c.toNat ∧ c.toNat < 0x110000 := c.valid
  have hpoint := pairPoint_halves h
  obtain ⟨high, hh⟩ : ∃ n, n = 0xd800 + (c.toNat - 0x10000) / 0x400 := ⟨_, rfl⟩
  obtain ⟨low, hl⟩ : ∃ n, n = 0xdc00 + (c.toNat - 0x10000) % 0x400 := ⟨_, rfl⟩
  have hhigh : isHighSurrogate high = true := by simp [isHighSurrogate]; omega
  have hlow : isLowSurrogate low = true := by simp [isLowSurrogate]; omega
  have hhighDigits := codeUnit_digits (show high < 65536 by omega)
  have hlowDigits := codeUnit_digits (show low < 65536 by omega)
  rw [← hh, ← hl] at hpoint ⊢
  rw [codeUnitEscape, codeUnitEscape, hexDigits_four (by omega), hexDigits_four (by omega), ← hpoint]
  exact stringFrom_unitPair hhighDigits hlowDigits (by rw [hhigh, hlow, Bool.and_self]) hrest

theorem stringFrom_plain {c : Char} (hquote : c ≠ '"') (hslash : c ≠ '\\') (hcontrol : 32 ≤ c.toNat)
    (start index : Nat) (rest : List Char) (acc : List Nat) :
    (stringFrom start index (c :: rest) acc : Except Fault (Step σ)) =
      stringFrom start (index + 1) rest (c.toNat :: acc) := by
  rw [stringFrom]
  · exact if_neg (by omega)
  all_goals simp_all

theorem stringFrom_escapeChar (c : Char) (start index : Nat) {rest : List Char} (hrest : rest ≠ [])
    (acc : List Nat) :
    ∃ index', (stringFrom start index (escapeChar c ++ rest) acc : Except Fault (Step σ)) =
      stringFrom start index' rest (c.toNat :: acc) := by
  unfold escapeChar
  split
  case h_8 hquote hslash _ _ _ _ _ =>
    dsimp only
    split
    case isTrue h =>
      have hcontrol : 32 ≤ c.toNat := by simp at h; omega
      exact ⟨_, stringFrom_plain hquote hslash hcontrol start index rest acc⟩
    split
    case isTrue h => exact ⟨_, stringFrom_codeUnit h start index hrest acc⟩
    case isFalse h => exact ⟨_, stringFrom_pair (by omega) start index hrest acc⟩
  all_goals
    refine ⟨index + 2, ?_⟩
    rw [List.cons_append, List.singleton_append, stringFrom]
    · rfl
    · decide

theorem stringFrom_escaped (cs : List Char) (start index : Nat) (rest : List Char) (acc : List Nat) :
    ∃ index', (stringFrom start index (cs.flatMap escapeChar ++ '"' :: rest) acc : Except Fault (Step σ)) =
      .ok ⟨ofPoints (acc.reverse ++ cs.map Char.toNat), index', rest⟩ := by
  induction cs generalizing index acc with
  | nil => exact ⟨index + 1, by simp [stringFrom]⟩
  | cons c cs ih =>
    have hrest : cs.flatMap escapeChar ++ '"' :: rest ≠ [] := by simp
    obtain ⟨next, hnext⟩ := @stringFrom_escapeChar σ _ c start index _ hrest acc
    obtain ⟨index', h⟩ := ih next (c.toNat :: acc)
    refine ⟨index', ?_⟩
    rw [List.flatMap_cons, List.append_assoc, hnext, h]
    simp

end strings

/-- A character is the one of its code point. -/
theorem pointChar_toNat (c : Char) : pointChar c.toNat = c := by
  have hvalid : c.toNat < 0xd800 ∨ 0xdfff < c.toNat ∧ c.toNat < 0x110000 := c.valid
  have hhigh : isHighSurrogate c.toNat = false := by simp [isHighSurrogate]; omega
  have hlow : isLowSurrogate c.toNat = false := by simp [isLowSurrogate]; omega
  simp [pointChar, hhigh, hlow]

theorem ofPoints_toNat (cs : List Char) : (ofPoints (cs.map Char.toNat) : String) = String.ofList cs := by
  simp [ofPoints, Function.comp_def, pointChar_toNat]

/-- The text of a string, from after its opening quote. -/
theorem stringFrom_quoted (cs : List Char) (start index : Nat) (rest : List Char) :
    ∃ index', stringFrom start index (cs.flatMap escapeChar ++ '"' :: rest) [] =
      .ok ⟨String.ofList cs, index', rest⟩ := by
  obtain ⟨index', h⟩ := @stringFrom_escaped String _ cs start index rest []
  rw [List.reverse_nil, List.nil_append, ofPoints_toNat] at h
  exact ⟨index', h⟩

/-! Blanks. -/

def AllBlank (cs : List Char) : Prop := ∀ c ∈ cs, isSpace c = true

/-- Nothing but blanks, one comma and one colon stands between the parts of a value. -/
structure Spacing.Blank (sp : Spacing) : Prop where
  opening (depth : Nat) : AllBlank (sp.opening depth).toList
  closing (depth : Nat) : AllBlank (sp.closing depth).toList
  between (depth : Nat) : ∃ cs, (sp.between depth).toList = ',' :: cs ∧ AllBlank cs
  colon : ∃ cs, sp.colon.toList = ':' :: cs ∧ AllBlank cs

theorem allBlank_newline (width depth : Nat) : AllBlank (newline width depth).toList := by
  intro c hc
  simp only [newline, String.toList_ofList, List.mem_cons, List.mem_replicate] at hc
  rcases hc with rfl | ⟨-, rfl⟩ <;> decide

theorem indented_blank (width : Nat) : (indented width).Blank where
  opening depth := allBlank_newline width (depth + 1)
  closing depth := allBlank_newline width depth
  between depth := ⟨_, by simp [indented], allBlank_newline width (depth + 1)⟩
  colon := ⟨[' '], by simp [indented], by simp [AllBlank, isSpace]⟩

theorem compact_blank : compact.Blank where
  opening _ := nofun
  closing _ := nofun
  between _ := ⟨[], by simp [compact], nofun⟩
  colon := ⟨[], by simp [compact], nofun⟩

/-- A text that begins neither with a blank nor with the end of a group, and has no mark in front. -/
def Starts (text : List Char) : Prop :=
  ∃ c cs, text = c :: cs ∧ isSpace c = false ∧ c ≠ ']' ∧ c ≠ '\x7d' ∧ c ≠ '\ufeff'

theorem Starts.append {text : List Char} (h : Starts text) (rest : List Char) : Starts (text ++ rest) := by
  obtain ⟨c, cs, rfl, hc⟩ := h
  exact ⟨c, cs ++ rest, rfl, hc⟩

theorem Starts.fuel {text : List Char} (h : Starts text) {fuel : Nat} (hfuel : text.length ≤ fuel) :
    ∃ n, fuel = n + 1 := by
  obtain ⟨c, cs, rfl, -⟩ := h
  rw [List.length_cons] at hfuel
  exact ⟨fuel - 1, by omega⟩

theorem skipSpace_blanks {blanks : List Char} (h : AllBlank blanks) (index : Nat) {c : Char}
    (hc : isSpace c = false) (rest : List Char) :
    ∃ index', skipSpace index (blanks ++ c :: rest) = (index', c :: rest) := by
  induction blanks generalizing index with
  | nil => exact ⟨index, by simp [skipSpace, hc]⟩
  | cons b blanks ih =>
    obtain ⟨index', hskip⟩ := ih (fun c hc => h c (List.mem_cons_of_mem b hc)) (index + 1)
    exact ⟨index', by simp [skipSpace, h b List.mem_cons_self, hskip]⟩

theorem skipSpace_starts {blanks text : List Char} (h : AllBlank blanks) (ht : Starts text) (index : Nat) :
    ∃ index', skipSpace index (blanks ++ text) = (index', text) := by
  obtain ⟨c, cs, rfl, hc, -⟩ := ht
  exact skipSpace_blanks h index hc cs

theorem endsNumber_blanks {blanks : List Char} (h : AllBlank blanks) {c : Char}
    (hc : c = ']' ∨ c = '\x7d') (rest : List Char) : EndsNumber (blanks ++ c :: rest) := by
  cases blanks with
  | nil =>
    rintro _ ⟨⟩
    rcases hc with rfl | rfl <;> decide
  | cons b blanks =>
    rintro _ ⟨⟩
    have hb : ((b = ' ' ∨ b = '\t') ∨ b = '\n') ∨ b = '\r' := by
      simpa [isSpace] using h b List.mem_cons_self
    rcases hb with ((rfl | rfl) | rfl) | rfl <;> decide

theorem endsNumber_comma (rest : List Char) : EndsNumber (',' :: rest) := by
  rintro _ ⟨⟩
  decide

/-! All values. -/

mutual

/-- There is `room` for the brackets of a value, and no name stands twice in an object. Floats are left out. -/
def Formed (room : Nat) : Json → Prop
  | null | bool _ | int _ | str _ => True
  | float _ => False
  | arr items => 0 < room ∧ FormedItems (room - 1) items
  | obj fields => 0 < room ∧ (fields.map Prod.fst).Nodup ∧ FormedFields (room - 1) fields

def FormedItems (room : Nat) : List Json → Prop
  | [] => True
  | v :: vs => Formed room v ∧ FormedItems room vs

def FormedFields (room : Nat) : List (String × Json) → Prop
  | [] => True
  | (_, v) :: fs => Formed room v ∧ FormedFields room fs

end

theorem formedItems_iff {room : Nat} {items : List Json} :
    FormedItems room items ↔ ∀ v ∈ items, Formed room v := by
  induction items with
  | nil => simp [FormedItems]
  | cons v vs ih => simp [FormedItems, ih]

theorem formedFields_iff {room : Nat} {fields : List (String × Json)} :
    FormedFields room fields ↔ ∀ f ∈ fields, Formed room f.2 := by
  induction fields with
  | nil => simp [FormedFields]
  | cons f fs ih => simp [FormedFields, ih]

mutual

/-- The whole numbers in a value. -/
def numbers {σ : Type} : Json σ → List Int
  | null | bool _ | float _ | str _ => []
  | int n => [n]
  | arr items => itemNumbers items
  | obj fields => fieldNumbers fields

def itemNumbers {σ : Type} : List (Json σ) → List Int
  | [] => []
  | v :: vs => numbers v ++ itemNumbers vs

def fieldNumbers {σ : Type} : List (σ × Json σ) → List Int
  | [] => []
  | (_, v) :: fs => numbers v ++ fieldNumbers fs

end

/-- Whether a number has no more digits than whole numbers may be written with. -/
def Spellable (n : Nat) : Prop := n < 10 ^ Numeral.mostDigits

theorem Spellable.mono {m n : Nat} (h : Spellable n) (hmn : m ≤ n) : Spellable m := Nat.lt_of_le_of_lt hmn h

theorem spellable_of_lt {n : Nat} (h : n < 10 ^ 20) : Spellable n :=
  Nat.lt_of_lt_of_le h (Nat.pow_le_pow_right (by decide) (by decide))

/-- No whole number in a value is too long. -/
def Short {σ : Type} (v : Json σ) : Prop := ∀ n ∈ numbers v, Spellable n.natAbs

section short

variable {σ : Type}

@[simp]
theorem short_null : Short (null : Json σ) := fun _ h => absurd h List.not_mem_nil

@[simp]
theorem short_bool (b : Bool) : Short (bool b : Json σ) := fun _ h => absurd h List.not_mem_nil

@[simp]
theorem short_str (s : σ) : Short (str s) := fun _ h => absurd h List.not_mem_nil

@[simp]
theorem short_int {n : Int} : Short (int n : Json σ) ↔ Spellable n.natAbs := by simp [Short, numbers]

@[simp]
theorem short_arr {items : List (Json σ)} : Short (arr items) ↔ ∀ v ∈ items, Short v := by
  simp only [Short, numbers]
  induction items with
  | nil => simp [itemNumbers]
  | cons v vs ih => simp [itemNumbers, or_imp, forall_and, ih]

@[simp]
theorem short_obj {fields : List (σ × Json σ)} : Short (obj fields) ↔ ∀ f ∈ fields, Short f.2 := by
  simp only [Short, numbers]
  induction fields with
  | nil => simp [fieldNumbers]
  | cons f fs ih => simp [fieldNumbers, or_imp, forall_and, ih]

end short

theorem quoted_toList (s : String) : (quoted s).toList = '"' :: (s.toList.flatMap escapeChar ++ ['"']) := by
  simp [quoted]

theorem int_eq_cons (n : Int) : ∃ c cs, (toString n).toList = c :: cs ∧ (c = '-' ∨ isAsciiDigit c = true) := by
  rw [int_toList]
  split
  · obtain ⟨d, ds, hd, hdigit⟩ := toDigits_eq_cons n.natAbs
    exact ⟨d, ds, hd, .inr hdigit⟩
  · exact ⟨'-', Nat.toDigits 10 n.natAbs, rfl, .inl rfl⟩

theorem group_toList (sp : Spacing) (depth : Nat) (opener closer : String) {items : List String} (h : items ≠ []) :
    (group sp depth opener closer items).toList = opener.toList ++ ((sp.opening depth).toList ++
      (((sp.between depth).intercalate items).toList ++ ((sp.closing depth).toList ++ closer.toList))) := by
  have hempty : items.isEmpty = false := by simpa using h
  simp [group, hempty]

theorem quoted_starts (s : String) : Starts (quoted s).toList :=
  ⟨_, _, quoted_toList s, by decide⟩

theorem group_starts (sp : Spacing) (depth : Nat) {opener : String} (h : Starts opener.toList) (closer : String)
    (items : List String) : Starts (group sp depth opener closer items).toList := by
  unfold group
  split
  · rw [String.toList_append]
    exact h.append _
  · simp only [String.toList_append, List.append_assoc]
    exact h.append _

theorem int_starts (n : Int) : Starts (toString n).toList := by
  obtain ⟨c, cs, htext, hc⟩ := int_eq_cons n
  have hne {b : Char} (hb : b ≠ '-' ∧ isAsciiDigit b = false) : c ≠ b := by
    rintro rfl
    simp [hb] at hc
  have hspace : isSpace c = false := by
    simp [isSpace, hne (b := ' ') (by decide), hne (b := '\t') (by decide), hne (b := '\n') (by decide),
      hne (b := '\r') (by decide)]
  exact ⟨c, cs, htext, hspace, hne (by decide), hne (by decide), hne (by decide)⟩

theorem valueFrom_scalar [Limits] {σ : Type} [OfPoints σ] [DecidableEq σ] {c : Char} {cs : List Char} (hquote : c ≠ '"')
    (hbracket : c ≠ '[') (hbrace : c ≠ '\x7b') (fuel depth index : Nat) :
    valueFrom (σ := σ) (fuel + 1) depth index (c :: cs) = scalar index (c :: cs) := by
  rw [valueFrom]
  all_goals simp_all

theorem valueFrom_word {w : String} {v : Json} (h : (w, v) = ("null", null) ∨ (w, v) = ("true", bool true) ∨
    (w, v) = ("false", bool false)) (fuel depth index : Nat) (rest : List Char) :
    valueFrom (fuel + 1) depth index (w.toList ++ rest) = .ok ⟨v, index + w.length, rest⟩ := by
  have hscalar : scalar index (w.toList ++ rest) = .ok ⟨v, index + w.length, rest⟩ := by
    rcases h with h | h | h <;> cases h <;> rfl
  rw [← hscalar]
  rcases h with h | h | h <;> cases h <;> exact valueFrom_scalar (by decide) (by decide) (by decide) fuel depth index

theorem valueFrom_int (n : Int) (fuel depth index : Nat) {rest : List Char} (h : EndsNumber rest) :
    ∃ index', (valueFrom (fuel + 1) depth index ((toString n).toList ++ rest) : Except Fault (Step Json)) =
      if 10 ^ Numeral.mostDigits ≤ n.natAbs then
        .error ⟨.tooManyDigits (Nat.toDigits 10 n.natAbs).length, index⟩
      else .ok ⟨int n, index', rest⟩ := by
  obtain ⟨index', hread⟩ := scalar_int n index h
  obtain ⟨c, cs, htext, hc⟩ := int_eq_cons n
  have hne {b : Char} (hb : b ≠ '-' ∧ isAsciiDigit b = false) : c ≠ b := by
    rintro rfl
    simp [hb] at hc
  refine ⟨index', ?_⟩
  rw [htext, List.cons_append] at hread ⊢
  rw [valueFrom_scalar (hne (by decide)) (hne (by decide)) (hne (by decide)), hread]

/-- The brackets of a group with something in it lead to what stands between them. -/
theorem valueFrom_array {blanks text : List Char} (hblanks : AllBlank blanks) (htext : Starts text)
    {fuel depth : Nat} (hdepth : depth < mostNested) (index : Nat) :
    ∃ index', (valueFrom (fuel + 1) depth index ('[' :: (blanks ++ text)) : Except Fault (Step Json)) =
      itemsFrom fuel (depth + 1) index' text [] := by
  obtain ⟨index', hskip⟩ := skipSpace_starts hblanks htext (index + 1)
  obtain ⟨c, cs, rfl, -, hclose, -⟩ := htext
  refine ⟨index', ?_⟩
  rw [valueFrom, if_neg (by omega), hskip]
  simp [hclose]

theorem valueFrom_object {blanks text : List Char} (hblanks : AllBlank blanks) (htext : Starts text)
    {fuel depth : Nat} (hdepth : depth < mostNested) (index : Nat) :
    ∃ index', (valueFrom (fuel + 1) depth index ('\x7b' :: (blanks ++ text)) : Except Fault (Step Json)) =
      fieldsFrom fuel (depth + 1) index' text [] := by
  obtain ⟨index', hskip⟩ := skipSpace_starts hblanks htext (index + 1)
  obtain ⟨c, cs, rfl, -, -, hclose, -⟩ := htext
  refine ⟨index', ?_⟩
  rw [valueFrom, if_neg (by omega), hskip]
  simp [hclose]

section steps

variable {fuel depth : Nat} {text blanks rest : List Char} {v : Json}

/-- Whether `text` is read as `v` when `rest` follows it. -/
def ReadsAs (fuel depth : Nat) (text rest : List Char) (v : Json) : Prop :=
  ∀ index, ∃ index', valueFrom fuel depth index (text ++ rest) = .ok ⟨v, index', rest⟩

theorem itemsFrom_last (h : ReadsAs fuel depth text (blanks ++ ']' :: rest) v) (hblanks : AllBlank blanks)
    (index : Nat) (acc : List Json) :
    ∃ index', itemsFrom (fuel + 1) depth index (text ++ (blanks ++ ']' :: rest)) acc =
      .ok ⟨arr (acc.reverse ++ [v]), index', rest⟩ := by
  obtain ⟨next, hread⟩ := h index
  obtain ⟨index', hskip⟩ := skipSpace_blanks hblanks next (c := ']') (by decide) rest
  exact ⟨index' + 1, by simp [itemsFrom, hread, bind, Except.bind, hskip]⟩

theorem itemsFrom_more (h : ReadsAs fuel depth text (',' :: (blanks ++ rest)) v) (hblanks : AllBlank blanks)
    (hrest : Starts rest) (index : Nat) (acc : List Json) :
    ∃ index', itemsFrom (fuel + 1) depth index (text ++ ',' :: (blanks ++ rest)) acc =
      itemsFrom fuel depth index' rest (v :: acc) := by
  obtain ⟨next, hread⟩ := h index
  obtain ⟨index', hskip⟩ := skipSpace_starts hblanks hrest (next + 1)
  exact ⟨index', by simp [itemsFrom, hread, bind, Except.bind, skipSpace, isSpace, hskip]⟩

/-- The text of a field, with the blanks between its colon and its value. -/
def fieldText (name : String) (gap text : List Char) : List Char :=
  '"' :: (name.toList.flatMap escapeChar ++ '"' :: ':' :: (gap ++ text))

theorem fieldText_append (name : String) (gap : List Char) :
    fieldText name gap text ++ rest =
      '"' :: (name.toList.flatMap escapeChar ++ '"' :: ':' :: (gap ++ (text ++ rest))) := by
  simp [fieldText]

theorem length_lt_fieldText (name : String) (gap text : List Char) :
    text.length < (fieldText name gap text).length := by
  simp only [fieldText, List.length_cons, List.length_append]
  omega

theorem fieldsFrom_last {gap : List Char} (h : ReadsAs fuel depth text (blanks ++ '\x7d' :: rest) v)
    (hgap : AllBlank gap) (htext : Starts text) (hblanks : AllBlank blanks) (name : String) (index : Nat)
    (acc : List (String × Json)) :
    ∃ index', fieldsFrom (fuel + 1) depth index (fieldText name gap text ++ (blanks ++ '\x7d' :: rest)) acc =
      .ok ⟨obj (Fields.ofPairs (acc.reverse ++ [(name, v)])), index', rest⟩ := by
  obtain ⟨afterName, hname⟩ := stringFrom_quoted name.toList index (index + 1)
    (':' :: (gap ++ (text ++ (blanks ++ '\x7d' :: rest))))
  obtain ⟨start, hcolon⟩ := skipSpace_starts hgap (htext.append (blanks ++ '\x7d' :: rest)) (afterName + 1)
  obtain ⟨next, hread⟩ := h start
  obtain ⟨index', hskip⟩ := skipSpace_blanks hblanks next (c := '\x7d') (by decide) rest
  refine ⟨index' + 1, ?_⟩
  rw [fieldText_append]
  simp [fieldsFrom, hname, bind, Except.bind, skipSpace, isSpace, hcolon, hread, hskip]

theorem fieldsFrom_more {gap : List Char} (h : ReadsAs fuel depth text (',' :: (blanks ++ rest)) v)
    (hgap : AllBlank gap) (htext : Starts text) (hblanks : AllBlank blanks) (hrest : Starts rest) (name : String)
    (index : Nat) (acc : List (String × Json)) :
    ∃ index', fieldsFrom (fuel + 1) depth index (fieldText name gap text ++ ',' :: (blanks ++ rest)) acc =
      fieldsFrom fuel depth index' rest ((name, v) :: acc) := by
  obtain ⟨afterName, hname⟩ := stringFrom_quoted name.toList index (index + 1)
    (':' :: (gap ++ (text ++ ',' :: (blanks ++ rest))))
  obtain ⟨start, hcolon⟩ := skipSpace_starts hgap (htext.append (',' :: (blanks ++ rest))) (afterName + 1)
  obtain ⟨next, hread⟩ := h start
  obtain ⟨index', hskip⟩ := skipSpace_starts hblanks hrest (next + 1)
  refine ⟨index', ?_⟩
  rw [fieldText_append]
  simp [fieldsFrom, hname, bind, Except.bind, skipSpace, isSpace, hcolon, hread, hskip]

end steps

theorem foldl_put (fields acc : Fields) (h : ((acc ++ fields).map Prod.fst).Nodup) :
    fields.foldl (fun acc f => acc.put f.1 f.2) acc = acc ++ fields := by
  induction fields generalizing acc with
  | nil => simp
  | cons f fields ih =>
    have hnew : acc.any (·.1 == f.1) = false := by
      rw [List.map_append, List.nodup_append] at h
      refine List.any_eq_false.mpr fun g hg he => ?_
      exact h.2.2 g.1 (List.mem_map_of_mem hg) f.1 (by simp) (by simpa using he)
    rw [List.foldl_cons, Fields.put, hnew, if_neg Bool.false_ne_true, ih _ (by simpa using h)]
    simp

theorem ofPairs_of_nodup {fields : Fields} (h : (fields.map Prod.fst).Nodup) : Fields.ofPairs fields = fields := by
  simpa [Fields.ofPairs] using foldl_put fields [] (by simpa using h)

/-- The text of the items of an array or object. -/
def itemsText (sp : Spacing) (depth : Nat) (items : List String) : List Char :=
  ((sp.between depth).intercalate items).toList

theorem itemsText_cons_cons {sp : Spacing} (hsp : sp.Blank) (depth : Nat) (a b : String) (l : List String) :
    ∃ blanks, AllBlank blanks ∧
      itemsText sp depth (a :: b :: l) = a.toList ++ ',' :: (blanks ++ itemsText sp depth (b :: l)) := by
  obtain ⟨blanks, hcomma, hblanks⟩ := hsp.between depth
  exact ⟨blanks, hblanks, by simp [itemsText, String.intercalate_cons_cons, hcomma]⟩

theorem itemsText_starts (sp : Spacing) (depth : Nat) {a : String} (h : Starts a.toList) (l : List String) :
    Starts (itemsText sp depth (a :: l)) := by
  cases l with
  | nil => simpa [itemsText] using h
  | cons b l =>
    simp only [itemsText, String.intercalate_cons_cons, String.toList_append, List.append_assoc]
    exact h.append _

theorem field_starts (sp : Spacing) (depth : Nat) (name : String) (v : Json) :
    Starts (quoted name ++ sp.colon ++ write sp depth v).toList := by
  rw [String.append_assoc, String.toList_append]
  exact (quoted_starts name).append _

theorem field_toList {sp : Spacing} {gap : List Char} (h : sp.colon.toList = ':' :: gap) (depth : Nat) (name : String)
    (v : Json) :
    (quoted name ++ sp.colon ++ write sp depth v).toList = fieldText name gap (write sp depth v).toList := by
  simp [fieldText, quoted_toList, h]

theorem write_arr_cons (sp : Spacing) (depth : Nat) (v : Json) (vs : List Json) :
    (write sp depth (arr (v :: vs))).toList = '[' :: ((sp.opening depth).toList ++
      (itemsText sp depth (writeItems sp (depth + 1) (v :: vs)) ++ ((sp.closing depth).toList ++ [']']))) := by
  rw [write, group_toList _ _ _ _ (by simp [writeItems])]
  rfl

theorem write_obj_cons (sp : Spacing) (depth : Nat) (f : String × Json) (fs : List (String × Json)) :
    (write sp depth (obj (f :: fs))).toList = '\x7b' :: ((sp.opening depth).toList ++
      (itemsText sp depth (writeFields sp (depth + 1) (f :: fs)) ++ ((sp.closing depth).toList ++ ['\x7d']))) := by
  rw [write, group_toList _ _ _ _ (by simp [writeFields])]
  rfl

/-- Whether every text of `v` at depth `d` is read as `v` inside of `depth` brackets. -/
def Reads (sp : Spacing) (d depth : Nat) (v : Json) : Prop :=
  Starts (write sp d v).toList ∧ ∀ {fuel : Nat} {rest : List Char}, (write sp d v).toList.length ≤ fuel →
    EndsNumber rest → ReadsAs fuel depth (write sp d v).toList rest v

theorem reads_items {sp : Spacing} (hsp : sp.Blank) {items : List Json} (hitems : items ≠ [])
    {fuel depth d e : Nat} {blanks rest : List Char} (hreads : ∀ v ∈ items, Reads sp d depth v)
    (hfuel : (itemsText sp e (writeItems sp d items)).length < fuel) (hblanks : AllBlank blanks) (index : Nat)
    (acc : List Json) :
    ∃ index', itemsFrom fuel depth index (itemsText sp e (writeItems sp d items) ++ (blanks ++ ']' :: rest)) acc =
      .ok ⟨arr (acc.reverse ++ items), index', rest⟩ := by
  induction items generalizing fuel index acc with
  | nil => exact absurd rfl hitems
  | cons v vs ih =>
    obtain ⟨fuel, rfl⟩ : ∃ n, fuel = n + 1 := ⟨fuel - 1, by omega⟩
    obtain ⟨hstarts, hread⟩ := hreads v List.mem_cons_self
    cases vs with
    | nil =>
      have htext : itemsText sp e (writeItems sp d [v]) = (write sp d v).toList := by
        rw [writeItems, writeItems, itemsText, String.intercalate_singleton]
      rw [htext] at hfuel ⊢
      exact itemsFrom_last (hread (by omega) (endsNumber_blanks hblanks (.inl rfl) rest)) hblanks index acc
    | cons w ws =>
      obtain ⟨between, hbetween, htext⟩ :=
        itemsText_cons_cons hsp e (write sp d v) (write sp d w) (writeItems sp d ws)
      obtain ⟨hnextStarts, -⟩ := hreads w (by simp)
      have hrestStarts := itemsText_starts sp e hnextStarts (writeItems sp d ws)
      simp only [writeItems] at hfuel ih ⊢
      rw [htext] at hfuel ⊢
      simp only [List.length_append, List.length_cons] at hfuel
      simp only [List.append_assoc, List.cons_append]
      obtain ⟨next, hmore⟩ := itemsFrom_more (hread (show _ ≤ fuel by omega) (endsNumber_comma _)) hbetween
        (hrestStarts.append (blanks ++ ']' :: rest)) index acc
      obtain ⟨index', hrest⟩ := ih (by simp) (fun u hu => hreads u (List.mem_cons_of_mem v hu))
        (show _ < fuel by omega) next (v :: acc)
      exact ⟨index', by rw [hmore, hrest]; simp⟩

theorem reads_fields {sp : Spacing} (hsp : sp.Blank) {fields : List (String × Json)} (hfields : fields ≠ [])
    {fuel depth d e : Nat} {blanks rest : List Char} (hreads : ∀ f ∈ fields, Reads sp d depth f.2)
    (hfuel : (itemsText sp e (writeFields sp d fields)).length < fuel) (hblanks : AllBlank blanks) (index : Nat)
    (acc : List (String × Json)) :
    ∃ index', fieldsFrom fuel depth index
        (itemsText sp e (writeFields sp d fields) ++ (blanks ++ '\x7d' :: rest)) acc =
      .ok ⟨obj (Fields.ofPairs (acc.reverse ++ fields)), index', rest⟩ := by
  obtain ⟨gap, hcolon, hgap⟩ := hsp.colon
  induction fields generalizing fuel index acc with
  | nil => exact absurd rfl hfields
  | cons f fs ih =>
    obtain ⟨name, v⟩ := f
    obtain ⟨fuel, rfl⟩ : ∃ n, fuel = n + 1 := ⟨fuel - 1, by omega⟩
    obtain ⟨hstarts, hread⟩ : Reads sp d depth v := hreads (name, v) List.mem_cons_self
    have hlength := length_lt_fieldText name gap (write sp d v).toList
    cases fs with
    | nil =>
      have htext : itemsText sp e (writeFields sp d [(name, v)]) = fieldText name gap (write sp d v).toList := by
        rw [← field_toList hcolon, writeFields, writeFields, itemsText, String.intercalate_singleton]
      rw [htext] at hfuel ⊢
      exact fieldsFrom_last (hread (by omega) (endsNumber_blanks hblanks (.inr rfl) rest)) hgap hstarts hblanks name
        index acc
    | cons g gs =>
      obtain ⟨between, hbetween, htext⟩ := itemsText_cons_cons hsp e (quoted name ++ sp.colon ++ write sp d v)
        (quoted g.1 ++ sp.colon ++ write sp d g.2) (writeFields sp d gs)
      have hrestStarts := itemsText_starts sp e (field_starts sp d g.1 g.2) (writeFields sp d gs)
      simp only [writeFields] at hfuel ih ⊢
      rw [htext, field_toList hcolon] at hfuel ⊢
      simp only [List.length_append, List.length_cons] at hfuel
      simp only [List.append_assoc, List.cons_append]
      obtain ⟨next, hmore⟩ := fieldsFrom_more (hread (show _ ≤ fuel by omega) (endsNumber_comma _)) hgap hstarts
        hbetween (hrestStarts.append (blanks ++ '\x7d' :: rest)) name index acc
      obtain ⟨index', hrest⟩ := ih (by simp) (fun u hu => hreads u (List.mem_cons_of_mem _ hu))
        (show _ < fuel by omega) next ((name, v) :: acc)
      exact ⟨index', by rw [hmore, hrest]; simp⟩

theorem reads_array {sp : Spacing} (hsp : sp.Blank) {items : List Json} {depth d : Nat} (hdepth : depth < mostNested)
    (hreads : ∀ v ∈ items, Reads sp (d + 1) (depth + 1) v) : Reads sp d depth (arr items) := by
  have hopener : Starts (write sp d (arr items)).toList := by
    rw [write]
    exact group_starts sp d ⟨'[', [], rfl, by decide⟩ _ _
  refine ⟨hopener, fun {fuel rest} hfuel _ index => ?_⟩
  obtain ⟨fuel, rfl⟩ := hopener.fuel hfuel
  cases items with
  | nil =>
    exact ⟨index + 1 + 1, by simp [write, writeItems, group, valueFrom, skipSpace, isSpace, Nat.not_le.mpr hdepth]⟩
  | cons v vs =>
    rw [write_arr_cons] at hfuel ⊢
    simp only [List.length_cons, List.length_append] at hfuel
    have hstarts := itemsText_starts sp d (hreads v List.mem_cons_self).1 (writeItems sp (d + 1) vs)
    obtain ⟨next, hopen⟩ := valueFrom_array (hsp.opening d) (hstarts.append ((sp.closing d).toList ++ ']' :: rest))
      hdepth index
    obtain ⟨index', hread⟩ :=
      reads_items hsp (by simp) (e := d) hreads (show _ < fuel by omega) (hsp.closing d) next []
    refine ⟨index', ?_⟩
    simp only [writeItems, List.cons_append, List.append_assoc, List.nil_append] at hread ⊢
    rw [hopen, hread]
    rfl

theorem reads_object {sp : Spacing} (hsp : sp.Blank) {fields : List (String × Json)} {depth d : Nat}
    (hdepth : depth < mostNested) (hnames : (fields.map Prod.fst).Nodup)
    (hreads : ∀ f ∈ fields, Reads sp (d + 1) (depth + 1) f.2) : Reads sp d depth (obj fields) := by
  have hopener : Starts (write sp d (obj fields)).toList := by
    rw [write]
    exact group_starts sp d ⟨'\x7b', [], rfl, by decide⟩ _ _
  refine ⟨hopener, fun {fuel rest} hfuel _ index => ?_⟩
  obtain ⟨fuel, rfl⟩ := hopener.fuel hfuel
  cases fields with
  | nil =>
    exact ⟨index + 1 + 1, by simp [write, writeFields, group, valueFrom, skipSpace, isSpace, Nat.not_le.mpr hdepth]⟩
  | cons f fs =>
    rw [write_obj_cons] at hfuel ⊢
    simp only [List.length_cons, List.length_append] at hfuel
    have hstarts := itemsText_starts sp d (field_starts sp (d + 1) f.1 f.2) (writeFields sp (d + 1) fs)
    obtain ⟨next, hopen⟩ := valueFrom_object (hsp.opening d)
      (hstarts.append ((sp.closing d).toList ++ '\x7d' :: rest)) hdepth index
    obtain ⟨index', hread⟩ :=
      reads_fields hsp (by simp) (e := d) hreads (show _ < fuel by omega) (hsp.closing d) next []
    refine ⟨index', ?_⟩
    simp only [writeFields, List.cons_append, List.append_assoc, List.nil_append] at hread ⊢
    rw [hopen, hread, List.reverse_nil, List.nil_append, ofPairs_of_nodup hnames]

theorem reads_string (sp : Spacing) (s : String) (d depth : Nat) : Reads sp d depth (str s) := by
  rw [Reads, write]
  refine ⟨quoted_starts s, fun {fuel rest} hfuel _ index => ?_⟩
  obtain ⟨fuel, rfl⟩ := (quoted_starts s).fuel hfuel
  obtain ⟨index', hread⟩ := stringFrom_quoted s.toList index (index + 1) rest
  refine ⟨index', ?_⟩
  rw [quoted_toList, List.cons_append, List.append_assoc, List.singleton_append, valueFrom, hread]
  simp [bind, Except.bind]

theorem reads_word {sp : Spacing} {d : Nat} {w : String} {v : Json} (hword : write sp d v = w)
    (h : (w, v) = ("null", null) ∨ (w, v) = ("true", bool true) ∨ (w, v) = ("false", bool false)) (depth : Nat) :
    Reads sp d depth v := by
  rw [Reads, hword]
  have hstarts : Starts w.toList := by
    rcases h with h | h | h <;> cases h
    · exact ⟨'n', "ull".toList, rfl, by decide⟩
    · exact ⟨'t', "rue".toList, rfl, by decide⟩
    · exact ⟨'f', "alse".toList, rfl, by decide⟩
  refine ⟨hstarts, fun {fuel rest} hfuel _ index => ?_⟩
  obtain ⟨fuel, rfl⟩ := hstarts.fuel hfuel
  exact ⟨_, valueFrom_word h fuel depth index rest⟩

theorem reads_int (sp : Spacing) {n : Int} (hn : Short (int n : Json)) (d depth : Nat) : Reads sp d depth (int n) := by
  rw [Reads, write]
  refine ⟨int_starts n, fun {fuel rest} hfuel hrest index => ?_⟩
  obtain ⟨fuel, rfl⟩ := (int_starts n).fuel hfuel
  obtain ⟨index', hread⟩ := valueFrom_int n fuel depth index hrest
  exact ⟨index', hread.trans (if_neg (Nat.not_le.mpr (short_int.mp hn)))⟩

/-- The recursion follows the room for brackets, which a value uses up before its parts come. -/
theorem reads_of_short {sp : Spacing} (hsp : sp.Blank) {v : Json} {room : Nat} (d : Nat) {depth : Nat}
    (hv : Formed room v) (hshort : Short v) (hroom : depth + room ≤ mostNested) : Reads sp d depth v := by
  match v with
  | null => exact reads_word (by rw [write]) (.inl rfl) depth
  | bool true => exact reads_word (by rw [write]; rfl) (.inr (.inl rfl)) depth
  | bool false => exact reads_word (by rw [write]; rfl) (.inr (.inr rfl)) depth
  | int n => exact reads_int sp hshort d depth
  | float x => exact absurd hv (by simp [Formed])
  | str s => exact reads_string sp s d depth
  | arr items =>
    obtain ⟨hpos, hitems⟩ := hv
    have hparts (w : Json) (hw : w ∈ items) : Reads sp (d + 1) (depth + 1) w :=
      reads_of_short hsp (d + 1) (formedItems_iff.mp hitems w hw) (short_arr.mp hshort w hw) (by omega)
    exact reads_array hsp (by omega) hparts
  | obj fields =>
    obtain ⟨hpos, hnames, hfields⟩ := hv
    have hparts (f : String × Json) (hf : f ∈ fields) : Reads sp (d + 1) (depth + 1) f.2 :=
      reads_of_short hsp (d + 1) (formedFields_iff.mp hfields f hf) (short_obj.mp hshort f hf) (by omega)
    exact reads_object hsp (by omega) hnames hparts
termination_by room
decreasing_by all_goals omega

/-- A whole text is read as its value is, and nothing may follow. -/
theorem readChars_write {sp : Spacing} {v : Json} (hstarts : Starts (write sp 0 v).toList) :
    ∃ fuel start, ∃ finish : Step Json → Except Fault Json, (write sp 0 v).toList.length ≤ fuel ∧
      (∀ w index, finish ⟨w, index, []⟩ = .ok w) ∧
      readChars (write sp 0 v).toList = valueFrom fuel 0 start (write sp 0 v).toList >>= finish := by
  obtain ⟨start, hskip⟩ := skipSpace_starts (show AllBlank [] from nofun) hstarts 0
  obtain ⟨c, cs, htext, -, -, -, hmark⟩ := hstarts
  rw [List.nil_append] at hskip
  rw [htext] at hskip ⊢
  rw [readChars]
  · generalize skipSpace 0 (c :: cs) = found at hskip
    subst hskip
    refine ⟨2 * (c :: cs).length + 2, start, _, by omega, ?_, rfl⟩
    exact fun _ _ => rfl
  · exact fun r he => hmark (List.cons.inj he).1

/-- What is within the reader's bounds is read back from each of its texts. -/
theorem read_text {sp : Spacing} (hsp : sp.Blank) {v : Json} (hv : Formed mostNested v) (hshort : Short v) :
    read (v.text sp).toList = .ok v := by
  obtain ⟨hstarts, hread⟩ := reads_of_short hsp 0 hv hshort (Nat.zero_add mostNested).le
  obtain ⟨fuel, start, finish, hfuel, hfinish, hchars⟩ := readChars_write hstarts
  obtain ⟨index', hvalue⟩ := hread hfuel (show EndsNumber [] from nofun) start
  rw [List.append_nil] at hvalue
  rw [read, text, hchars, hvalue]
  show (finish ⟨v, index', []⟩).mapError _ = _
  rw [hfinish]
  rfl

end QualityGate.Json
