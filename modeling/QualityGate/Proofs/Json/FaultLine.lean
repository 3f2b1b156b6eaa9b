import QualityGate.Proofs.Json.Cleaning

/-! The line of a fault. Cleaning takes characters other than line feeds out of a text and changes nothing else, so
that a fault is reported on the line on which its character stands in the text itself. -/

namespace QualityGate.Json

/-! What is left of a text. -/

/-- A text and what is left of it when some characters other than line feeds are taken out. -/
inductive Thinned : List Char → List Char → Prop where
  | nil : Thinned [] []
  | keep (c : Char) {t s : List Char} (h : Thinned t s) : Thinned (c :: t) (c :: s)
  | drop {c : Char} {t s : List Char} (hc : c ≠ '\n') (h : Thinned t s) : Thinned (c :: t) s

section thinned

variable {t s t' s' r : List Char}

theorem Thinned.append (h : Thinned t s) (h' : Thinned t' s') : Thinned (t ++ t') (s ++ s') := by
  induction h with
  | nil => exact h'
  | keep c _ ih => exact .keep c ih
  | drop hc _ ih => exact .drop hc ih

theorem Thinned.trans (h : Thinned t s) (h' : Thinned s r) : Thinned t r := by
  induction h generalizing r with
  | nil => exact h'
  | keep c _ ih =>
    cases h' with
    | keep _ h' => exact .keep c (ih h')
    | drop hc h' => exact .drop hc (ih h')
  | drop hc _ ih => exact .drop hc (ih h')

theorem Thinned.count (h : Thinned t s) : s.count '\n' = t.count '\n' := by
  induction h with
  | nil => rfl
  | keep c _ ih => rw [List.count_cons, List.count_cons, ih]
  | drop hc _ ih => rw [List.count_cons_of_ne hc, ih]

theorem thinned_filter (s : List Char) : Thinned s (s.filter (· == '\n')) := by
  induction s with
  | nil => exact .nil
  | cons c s ih =>
    by_cases hc : c = '\n'
    · subst hc
      exact .keep '\n' ih
    · rw [List.filter_cons_of_neg (by simpa using hc)]
      exact .drop hc ih

theorem thinned_nil (h : '\n' ∉ s) : Thinned s [] := by
  have hnone : s.filter (· == '\n') = [] := by
    simpa [List.filter_eq_nil_iff] using fun c hc => ne_of_mem_of_not_mem hc h
  rw [← hnone]
  exact thinned_filter s

/-- Every place in what is left is one in the text: there stands the same character, or both end. -/
theorem Thinned.split (h : Thinned t s) (n : Nat) :
    ∃ front back, t = front ++ back ∧ Thinned front (s.take n) ∧ Thinned back (s.drop n) ∧ back.head? = s[n]? := by
  induction h generalizing n with
  | nil => exact ⟨[], [], rfl, by simpa using .nil, by simpa using .nil, by simp⟩
  | @keep c t s h ih =>
    cases n with
    | zero => exact ⟨[], c :: t, rfl, .nil, .keep c h, rfl⟩
    | succ n =>
      obtain ⟨front, back, rfl, hfront, hback, hhead⟩ := ih n
      exact ⟨c :: front, back, rfl, .keep c hfront, hback, by simpa using hhead⟩
  | drop hc _ ih =>
    obtain ⟨front, back, rfl, hfront, hback, hhead⟩ := ih n
    exact ⟨_ :: front, back, rfl, .drop hc hfront, hback, hhead⟩

theorem newline_notMem_lineRest (r : List Char) : '\n' ∉ r.take (lineRest r) := by
  have htake : r.take (lineRest r) = r.takeWhile (· != '\n') :=
    (List.prefix_iff_eq_take.mp (List.takeWhile_prefix _)).symm
  rw [htake]
  intro hmem
  simpa using List.mem_takeWhile_imp hmem

/-- Of a line comment nothing is left, of a block comment its line feeds. -/
theorem thinned_uncommented (quoted : Bool) (s : List Char) : Thinned s (uncommented quoted s) := by
  fun_induction uncommented quoted s with
  | case1 => exact .nil
  | case2 c r ih => exact .keep '\\' (.keep c ih)
  | case3 c r _ ih => exact .keep c ih
  | case4 r ih => exact .keep '"' ih
  | case5 r ih =>
    have hrest := (thinned_nil (newline_notMem_lineRest r)).append ih
    rw [List.take_append_drop] at hrest
    exact .drop (by decide) (.drop (by decide) hrest)
  | case6 r n ih =>
    have hrest := (thinned_filter (r.take n)).append ih
    rw [List.take_append_drop] at hrest
    exact .drop (by decide) (.drop (by decide) hrest)
  | case7 c r _ _ _ ih => exact .keep c ih

theorem thinned_untrailed (quoted : Bool) (s : List Char) : Thinned s (untrailed quoted s) := by
  fun_induction untrailed quoted s with
  | case1 => exact .nil
  | case2 c r ih => exact .keep '\\' (.keep c ih)
  | case3 c r _ ih => exact .keep c ih
  | case4 r ih => exact .keep '"' ih
  | case5 r _ ih => exact .drop (by decide) ih
  | case6 r _ ih => exact .keep ',' ih
  | case7 c r _ _ ih => exact .keep c ih

theorem thinned_cleaned (t : List Char) : Thinned t (withoutTrailingCommas (withoutComments t)) := by
  have hcleaned : withoutTrailingCommas (withoutComments t) = cleaned false t := by
    simp [withoutComments, withoutTrailingCommas, withoutComments_go, withoutTrailingCommas_go, cleaned]
  rw [hcleaned]
  exact (thinned_uncommented false t).trans (thinned_untrailed false _)

end thinned

/-! Where the reader stops. -/

/-- The reader of a text that ends at the index `stop` is where the rest of the text begins, or complains about a
place in the text or about its end. -/
def Within {α : Type} (stop : Nat) : Except Fault (Step α) → Prop
  | .ok st => st.index + st.rest.length = stop
  | .error f => f.index ≤ stop

section within

variable {α β σ : Type} {stop start index index' : Nat} {s r : List Char}

theorem Within.bind {o : Except Fault (Step α)} {f : Step α → Except Fault (Step β)} (ho : Within stop o)
    (hf : ∀ st : Step α, st.index + st.rest.length = stop → Within stop (f st)) : Within stop (o >>= f) := by
  cases o with
  | error => exact ho
  | ok st => exact hf st ho

theorem within_skipSpace (hstop : index + s.length = stop) (h : skipSpace index s = (index', r)) :
    index' + r.length = stop := by
  induction s generalizing index with
  | nil =>
    cases h
    exact hstop
  | cons c s ih =>
    rw [skipSpace] at h
    split at h
    · exact ih (by rw [List.length_cons] at hstop; omega) h
    · cases h
      exact hstop

theorem within_stringFrom [OfPoints σ] {acc : List Nat} (hstop : index + s.length = stop) (hstart : start ≤ stop) :
    Within stop (stringFrom (σ := σ) start index s acc) := by
  fun_induction @stringFrom σ _ start index s acc <;> simp only [List.length_cons, List.length_nil] at hstop
  case case2 => exact (Nat.add_right_comm _ _ _).trans hstop
  case case7 ih | case10 ih | case12 ih | case15 ih => exact ih (by omega)
  case case8 ih | case9 ih => exact ih (by simp only [List.length_cons]; omega)
  all_goals
    simp only [Within]
    omega

theorem within_number {negative : Bool} (hstop : index + s.length = stop) (hstart : start ≤ stop) :
    Within stop (number (σ := σ) start negative index s) := by
  by_cases hs : wholeDigits s = []
  · rw [number_eq, hs]
    exact hstart
  · obtain ⟨f, ds, x, r, e, hsplit, hf, -, hds, hx⟩ := exists_number_parts s
    have hw : wholeDigits (wholeDigits s ++ (f ++ (x ++ r))) = wholeDigits s := by rw [← hsplit]
    have hlength := congrArg List.length hsplit
    simp only [List.length_append] at hlength
    rw [hsplit, number_parts start negative index hs hw hf hds hx]
    split
    case isTrue hnone =>
      obtain ⟨rfl, rfl⟩ := List.append_eq_nil_iff.mp hnone
      split
      · exact hstart
      · simp only [Within, List.length_nil] at hlength ⊢
        omega
    case isFalse =>
      simp only [Within]
      omega

theorem within_word {st : Step (Json σ)} (hstop : index + s.length = stop) (h : word? index s = some st) :
    st.index + st.rest.length = stop := by
  obtain ⟨⟨w, v⟩, -, hfound⟩ := List.exists_of_findSome?_eq_some h
  dsimp only at hfound
  split at hfound
  case isTrue hprefix =>
    cases hfound
    have hlength := (List.isPrefixOf_iff_prefix.mp hprefix).length_le
    rw [String.length_toList] at hlength
    simp only [List.length_drop]
    omega
  case isFalse => cases hfound

theorem within_scalar (hstop : index + s.length = stop) : Within stop (scalar (σ := σ) index s) := by
  unfold scalar
  split
  case h_1 st hword => exact within_word hstop hword
  case h_2 r _ =>
    rw [List.length_cons] at hstop
    exact within_number (by omega) (by omega)
  case h_3 => exact within_number hstop (by omega)

end within

section readers

variable {σ : Type} [OfPoints σ] [DecidableEq σ] [Limits] {stop index fuel depth : Nat} {s : List Char}

theorem within_itemsFrom {acc : List (Json σ)}
    (hvalue : ∀ {index s}, index + s.length = stop → Within stop (valueFrom (σ := σ) fuel depth index s))
    (hitems : ∀ {index s acc}, index + s.length = stop → Within stop (itemsFrom (σ := σ) fuel depth index s acc))
    (hstop : index + s.length = stop) : Within stop (itemsFrom (σ := σ) (fuel + 1) depth index s acc) := by
  rw [itemsFrom]
  refine (hvalue hstop).bind fun v hv => ?_
  split
  case h_1 r hskip =>
    have hrest := within_skipSpace hv hskip
    rw [List.length_cons] at hrest
    simp only [Within]
    omega
  case h_2 r hskip =>
    have hrest := within_skipSpace hv hskip
    rw [List.length_cons] at hrest
    exact hitems (within_skipSpace (by omega) rfl)
  case h_3 hskip =>
    have hrest := within_skipSpace hv hskip
    simp only [Within]
    omega

theorem within_fieldsFrom {acc : List (σ × Json σ)}
    (hvalue : ∀ {index s}, index + s.length = stop → Within stop (valueFrom (σ := σ) fuel depth index s))
    (hfields : ∀ {index s acc}, index + s.length = stop → Within stop (fieldsFrom (σ := σ) fuel depth index s acc))
    (hstop : index + s.length = stop) : Within stop (fieldsFrom (σ := σ) (fuel + 1) depth index s acc) := by
  unfold fieldsFrom
  split
  case h_2 =>
    simp only [Within]
    omega
  case h_1 r =>
  rw [List.length_cons] at hstop
  refine (within_stringFrom (by omega) (by omega)).bind fun name hname => ?_
  split
  case h_2 hskip =>
    have hrest := within_skipSpace hname hskip
    simp only [Within]
    omega
  case h_1 colon hskip =>
  have hcolon := within_skipSpace hname hskip
  rw [List.length_cons] at hcolon
  refine (hvalue (within_skipSpace (by omega) rfl)).bind fun v hv => ?_
  split
  case h_1 r hskip =>
    have hrest := within_skipSpace hv hskip
    rw [List.length_cons] at hrest
    simp only [Within]
    omega
  case h_2 r hskip =>
    have hrest := within_skipSpace hv hskip
    rw [List.length_cons] at hrest
    exact hfields (within_skipSpace (by omega) rfl)
  case h_3 hskip =>
    have hrest := within_skipSpace hv hskip
    simp only [Within]
    omega

theorem within_valueFrom
    (hitems : ∀ {index s acc}, index + s.length = stop → Within stop (itemsFrom (σ := σ) fuel (depth + 1) index s acc))
    (hfields : ∀ {index s acc}, index + s.length = stop →
      Within stop (fieldsFrom (σ := σ) fuel (depth + 1) index s acc))
    (hstop : index + s.length = stop) : Within stop (valueFrom (σ := σ) (fuel + 1) depth index s) := by
  have hopening := opening (σ := σ) fuel depth index s
  generalize valueFrom (σ := σ) (fuel + 1) depth index s = o at hopening
  have hinside {c : Char} {r : List Char} {close : Nat} {rest : List Char} (hs : index + (c :: r).length = stop)
      (hskip : skipSpace (index + 1) r = (close, rest)) : close + rest.length = stop :=
    within_skipSpace (by rw [List.length_cons] at hs; omega) hskip
  cases hopening with
  | string r =>
    rw [List.length_cons] at hstop
    exact (within_stringFrom (by omega) (by omega)).bind fun _ hname => hname
  | tooDeep =>
    simp only [Within]
    omega
  | emptyArray _ hskip | emptyObject _ hskip =>
    have hrest := hinside hstop hskip
    rw [List.length_cons] at hrest
    simp only [Within]
    omega
  | array _ hskip => exact hitems (hinside hstop hskip)
  | object _ hskip => exact hfields (hinside hstop hskip)
  | scalar => exact within_scalar hstop

theorem readers_within (stop fuel : Nat) :
    (∀ {depth index s}, index + s.length = stop → Within stop (valueFrom (σ := σ) fuel depth index s)) ∧
      (∀ {depth index s acc}, index + s.length = stop → Within stop (itemsFrom (σ := σ) fuel depth index s acc)) ∧
      ∀ {depth index s acc}, index + s.length = stop → Within stop (fieldsFrom (σ := σ) fuel depth index s acc) := by
  induction fuel with
  | zero =>
    refine ⟨fun h => ?_, fun h => ?_, fun h => ?_⟩
    · rw [valueFrom]
      exact Nat.le.intro h
    · rw [itemsFrom]
      exact Nat.le.intro h
    · rw [fieldsFrom]
      exact Nat.le.intro h
  | succ fuel ih =>
    obtain ⟨hvalue, hitems, hfields⟩ := ih
    exact ⟨within_valueFrom hitems hfields, within_itemsFrom hvalue hitems, within_fieldsFrom hvalue hfields⟩

/-- A fault is about a character of the text, or about its end. -/
theorem index_le_of_readChars {f : Fault} (h : readChars s σ = .error f) : f.index ≤ s.length := by
  by_cases hmark : ∃ r, s = '\ufeff' :: r
  · obtain ⟨r, rfl⟩ := hmark
    cases h
    exact Nat.zero_le _
  obtain ⟨start, text, hstart⟩ : ∃ start text, skipSpace 0 s = (start, text) := ⟨_, _, rfl⟩
  have htext : start + text.length = s.length := within_skipSpace (Nat.zero_add _) hstart
  rw [readChars_eq (not_exists.mp hmark) hstart] at h
  have hvalue : Within s.length (valueFrom (σ := σ) (2 * s.length + 2) 0 start text) :=
    (readers_within s.length _).1 htext
  obtain h | ⟨st, hst, h⟩ := error_of_bind h
  · rwa [h] at hvalue
  · rw [hst] at hvalue
    split at h
    · cases h
    case h_2 hskip =>
      cases h
      exact Nat.le.intro (within_skipSpace hvalue hskip)

end readers

/-! The line in the text itself. -/

/-- What is read is the text without some characters other than line feeds. A fault is about the character that
stands after `front` in the text, or about its end, and its line is that of this place. -/
theorem readCommented_fault_line [Limits] (t : List Char) :
    ∃ s, s = withoutTrailingCommas (withoutComments t) ∧ Thinned t s ∧ readCommented t = read s ∧
      ∀ f, readCommented t = .error f → f.index ≤ s.length ∧
        ∃ front back, t = front ++ back ∧ Thinned front (s.take f.index) ∧ Thinned back (s.drop f.index) ∧
          back.head? = s[f.index]? ∧ f.line = Text.lineOf t front.length := by
  refine ⟨_, rfl, thinned_cleaned t, rfl, fun f hf => ?_⟩
  have hthinned := thinned_cleaned t
  rw [readCommented] at hf
  generalize withoutTrailingCommas (withoutComments t) = s at hthinned hf ⊢
  obtain ⟨fault, hfault, rfl⟩ := read_error_iff.mp hf
  obtain ⟨front, back, rfl, hfront, hback, hhead⟩ := hthinned.split fault.index
  refine ⟨index_le_of_readChars hfault, front, back, rfl, hfront, hback, hhead, ?_⟩
  simp only [Fault.locate, Text.lineOf, List.take_left]
  rw [hfront.count]

end QualityGate.Json
