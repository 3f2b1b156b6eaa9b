import Mathlib
import QualityGate.Proofs.Json.RoundTrip

/-! The reader refuses every text of a value in which a number has too many digits,
however deep it stands. So the texts that are read back are those without one. -/

namespace QualityGate.Json

section steps

variable {fuel depth : Nat} {text rest : List Char}

/-- Whether what begins with `text` is refused when `rest` follows it. -/
def Refused (fuel depth : Nat) (text rest : List Char) : Prop :=
  ∀ index, ∃ f, (valueFrom fuel depth index (text ++ rest) : Except Fault (Step Json)) = .error f

theorem itemsFrom_refused (h : Refused fuel depth text rest) (index : Nat) (acc : List Json) :
    ∃ f, itemsFrom (fuel + 1) depth index (text ++ rest) acc = .error f := by
  obtain ⟨f, hf⟩ := h index
  exact ⟨f, by simp [itemsFrom, hf, bind, Except.bind]⟩

theorem fieldsFrom_refused {gap : List Char} (h : Refused fuel depth text rest) (hgap : AllBlank gap)
    (htext : Starts text) (name : String) (index : Nat) (acc : List (String × Json)) :
    ∃ f, fieldsFrom (fuel + 1) depth index (fieldText name gap text ++ rest) acc = .error f := by
  obtain ⟨afterName, hname⟩ := stringFrom_quoted name.toList index (index + 1) (':' :: (gap ++ (text ++ rest)))
  obtain ⟨start, hcolon⟩ := skipSpace_starts hgap (htext.append rest) (afterName + 1)
  obtain ⟨f, hf⟩ := h start
  refine ⟨f, ?_⟩
  rw [fieldText_append]
  simp [fieldsFrom, hname, bind, Except.bind, skipSpace, isSpace, hcolon, hf]

end steps

/-- Whether every text of `v` at depth `d` is refused inside of `depth` brackets. -/
def Refuses (sp : Spacing) (d depth : Nat) (v : Json) : Prop :=
  Starts (write sp d v).toList ∧ ∀ {fuel : Nat} {rest : List Char}, (write sp d v).toList.length ≤ fuel →
    EndsNumber rest → Refused fuel depth (write sp d v).toList rest

/-- What follows the first of several items does not belong to a number. -/
theorem itemsText_cons {sp : Spacing} (hsp : sp.Blank) (depth : Nat) (a : String) (l : List String)
    {blanks : List Char} (hblanks : AllBlank blanks) {c : Char} (hc : c = ']' ∨ c = '\x7d') (rest : List Char) :
    ∃ more, itemsText sp depth (a :: l) = a.toList ++ more ∧ EndsNumber (more ++ (blanks ++ c :: rest)) := by
  cases l with
  | nil => exact ⟨[], by simp [itemsText], endsNumber_blanks hblanks hc rest⟩
  | cons b l =>
    obtain ⟨between, -, htext⟩ := itemsText_cons_cons hsp depth a b l
    exact ⟨_, htext, endsNumber_comma _⟩

theorem refuses_items {sp : Spacing} (hsp : sp.Blank) {items : List Json} {fuel depth d e : Nat}
    {blanks : List Char} (hitems : ∀ v ∈ items, Reads sp d depth v ∨ Refuses sp d depth v)
    (hrefused : ∃ v ∈ items, Refuses sp d depth v)
    (hfuel : (itemsText sp e (writeItems sp d items)).length < fuel) (hblanks : AllBlank blanks)
    (rest : List Char) (index : Nat) (acc : List Json) :
    ∃ f, itemsFrom fuel depth index (itemsText sp e (writeItems sp d items) ++ (blanks ++ ']' :: rest)) acc =
      .error f := by
  induction items generalizing fuel index acc with
  | nil => simp at hrefused
  | cons v vs ih =>
    obtain ⟨fuel, rfl⟩ : ∃ n, fuel = n + 1 := ⟨fuel - 1, by omega⟩
    obtain ⟨hv, hvs⟩ := List.forall_mem_cons.mp hitems
    by_cases hfirst : Refuses sp d depth v
    · obtain ⟨more, htext, hmore⟩ :=
        itemsText_cons hsp e (write sp d v) (writeItems sp d vs) hblanks (.inl rfl) rest
      rw [writeItems, htext, List.length_append] at hfuel
      rw [writeItems, htext, List.append_assoc]
      exact itemsFrom_refused (hfirst.2 (by omega) hmore) index acc
    obtain ⟨hstarts, hread⟩ := hv.resolve_right hfirst
    have hlater : ∃ u ∈ vs, Refuses sp d depth u := by
      obtain ⟨u, hu, hrefuses⟩ := hrefused
      rcases List.mem_cons.mp hu with rfl | hu
      · exact absurd hrefuses hfirst
      · exact ⟨u, hu, hrefuses⟩
    cases vs with
    | nil => simp at hlater
    | cons w ws =>
      obtain ⟨between, hbetween, htext⟩ :=
        itemsText_cons_cons hsp e (write sp d v) (write sp d w) (writeItems sp d ws)
      have hnext : Starts (write sp d w).toList := (hvs w List.mem_cons_self).elim And.left And.left
      have hrestStarts := itemsText_starts sp e hnext (writeItems sp d ws)
      simp only [writeItems] at hfuel ih ⊢
      rw [htext] at hfuel ⊢
      simp only [List.length_append, List.length_cons] at hfuel
      simp only [List.append_assoc, List.cons_append]
      obtain ⟨next, hmore⟩ := itemsFrom_more (hread (show _ ≤ fuel by omega) (endsNumber_comma _)) hbetween
        (hrestStarts.append (blanks ++ ']' :: rest)) index acc
      rw [hmore]
      exact ih hvs hlater (show _ < fuel by omega) next (v :: acc)

theorem refuses_fields {sp : Spacing} (hsp : sp.Blank) {fields : List (String × Json)} {fuel depth d e : Nat}
    {blanks : List Char} (hfields : ∀ f ∈ fields, Reads sp d depth f.2 ∨ Refuses sp d depth f.2)
    (hrefused : ∃ f ∈ fields, Refuses sp d depth f.2)
    (hfuel : (itemsText sp e (writeFields sp d fields)).length < fuel) (hblanks : AllBlank blanks)
    (rest : List Char) (index : Nat) (acc : List (String × Json)) :
    ∃ f, fieldsFrom fuel depth index
        (itemsText sp e (writeFields sp d fields) ++ (blanks ++ '\x7d' :: rest)) acc = .error f := by
  obtain ⟨gap, hcolon, hgap⟩ := hsp.colon
  induction fields generalizing fuel index acc with
  | nil => simp at hrefused
  | cons f fs ih =>
    obtain ⟨name, v⟩ := f
    obtain ⟨fuel, rfl⟩ : ∃ n, fuel = n + 1 := ⟨fuel - 1, by omega⟩
    have hv : Reads sp d depth v ∨ Refuses sp d depth v := hfields (name, v) List.mem_cons_self
    have hlength := length_lt_fieldText name gap (write sp d v).toList
    by_cases hfirst : Refuses sp d depth v
    · obtain ⟨more, htext, hmore⟩ := itemsText_cons hsp e (quoted name ++ sp.colon ++ write sp d v)
        (writeFields sp d fs) hblanks (.inr rfl) rest
      rw [field_toList hcolon] at htext
      rw [writeFields, htext, List.length_append] at hfuel
      rw [writeFields, htext, List.append_assoc]
      exact fieldsFrom_refused (hfirst.2 (by omega) hmore) hgap hfirst.1 name index acc
    obtain ⟨hstarts, hread⟩ := hv.resolve_right hfirst
    have hlater : ∃ g ∈ fs, Refuses sp d depth g.2 := by
      obtain ⟨g, hg, hrefuses⟩ := hrefused
      rcases List.mem_cons.mp hg with rfl | hg
      · exact absurd hrefuses hfirst
      · exact ⟨g, hg, hrefuses⟩
    cases fs with
    | nil => simp at hlater
    | cons g gs =>
      obtain ⟨between, hbetween, htext⟩ := itemsText_cons_cons hsp e (quoted name ++ sp.colon ++ write sp d v)
        (quoted g.1 ++ sp.colon ++ write sp d g.2) (writeFields sp d gs)
      have hrestStarts := itemsText_starts sp e (field_starts sp d g.1 g.2) (writeFields sp d gs)
      simp only [writeFields] at hfuel ih ⊢
      rw [htext, field_toList hcolon] at hfuel ⊢
      simp only [List.length_append, List.length_cons] at hfuel
      simp only [List.append_assoc, List.cons_append]
      obtain ⟨next, hmore⟩ := fieldsFrom_more (hread (show _ ≤ fuel by omega) (endsNumber_comma _)) hgap hstarts
        hbetween (hrestStarts.append (blanks ++ '\x7d' :: rest)) name index acc
      rw [hmore]
      exact ih (fun h hh => hfields h (List.mem_cons_of_mem _ hh)) hlater (show _ < fuel by omega) next
        ((name, v) :: acc)

theorem refuses_array {sp : Spacing} (hsp : sp.Blank) {items : List Json} {depth d : Nat} (hdepth : depth < mostNested)
    (hitems : ∀ v ∈ items, Reads sp (d + 1) (depth + 1) v ∨ Refuses sp (d + 1) (depth + 1) v)
    (hrefused : ∃ v ∈ items, Refuses sp (d + 1) (depth + 1) v) : Refuses sp d depth (arr items) := by
  have hopener : Starts (write sp d (arr items)).toList := by
    rw [write]
    exact group_starts sp d ⟨'[', [], rfl, by decide⟩ _ _
  refine ⟨hopener, fun {fuel rest} hfuel _ index => ?_⟩
  obtain ⟨fuel, rfl⟩ := hopener.fuel hfuel
  cases items with
  | nil => simp at hrefused
  | cons v vs =>
    rw [write_arr_cons] at hfuel ⊢
    simp only [List.length_cons, List.length_append] at hfuel
    have hstarts := itemsText_starts sp d ((hitems v List.mem_cons_self).elim And.left And.left)
      (writeItems sp (d + 1) vs)
    obtain ⟨next, hopen⟩ := valueFrom_array (hsp.opening d) (hstarts.append ((sp.closing d).toList ++ ']' :: rest))
      hdepth index
    obtain ⟨f, hf⟩ :=
      refuses_items hsp hitems hrefused (e := d) (show _ < fuel by omega) (hsp.closing d) rest next []
    refine ⟨f, ?_⟩
    simp only [writeItems, List.cons_append, List.append_assoc, List.nil_append] at hf ⊢
    rw [hopen, hf]

theorem refuses_object {sp : Spacing} (hsp : sp.Blank) {fields : List (String × Json)} {depth d : Nat}
    (hdepth : depth < mostNested)
    (hfields : ∀ f ∈ fields, Reads sp (d + 1) (depth + 1) f.2 ∨ Refuses sp (d + 1) (depth + 1) f.2)
    (hrefused : ∃ f ∈ fields, Refuses sp (d + 1) (depth + 1) f.2) : Refuses sp d depth (obj fields) := by
  have hopener : Starts (write sp d (obj fields)).toList := by
    rw [write]
    exact group_starts sp d ⟨'\x7b', [], rfl, by decide⟩ _ _
  refine ⟨hopener, fun {fuel rest} hfuel _ index => ?_⟩
  obtain ⟨fuel, rfl⟩ := hopener.fuel hfuel
  cases fields with
  | nil => simp at hrefused
  | cons g gs =>
    rw [write_obj_cons] at hfuel ⊢
    simp only [List.length_cons, List.length_append] at hfuel
    have hstarts := itemsText_starts sp d (field_starts sp (d + 1) g.1 g.2) (writeFields sp (d + 1) gs)
    obtain ⟨next, hopen⟩ := valueFrom_object (hsp.opening d)
      (hstarts.append ((sp.closing d).toList ++ '\x7d' :: rest)) hdepth index
    obtain ⟨f, hf⟩ :=
      refuses_fields hsp hfields hrefused (e := d) (show _ < fuel by omega) (hsp.closing d) rest next []
    refine ⟨f, ?_⟩
    simp only [writeFields, List.cons_append, List.append_assoc, List.nil_append] at hf ⊢
    rw [hopen, hf]

theorem refuses_int (sp : Spacing) {n : Int} (hn : ¬ Short (int n : Json)) (d depth : Nat) : Refuses sp d depth (int n) := by
  rw [Refuses, write]
  refine ⟨int_starts n, fun {fuel rest} hfuel hrest index => ?_⟩
  obtain ⟨fuel, rfl⟩ := (int_starts n).fuel hfuel
  obtain ⟨_, hread⟩ := valueFrom_int n fuel depth index hrest
  exact ⟨_, hread.trans (if_pos (Nat.not_lt.mp (short_int.not.mp hn)))⟩

/-- The recursion follows the room for brackets, as that for values that are read. -/
theorem refuses_of_long {sp : Spacing} (hsp : sp.Blank) {v : Json} {room : Nat} (d : Nat) {depth : Nat}
    (hv : Formed room v) (hlong : ¬ Short v) (hroom : depth + room ≤ mostNested) : Refuses sp d depth v := by
  match v with
  | null => exact absurd short_null hlong
  | bool b => exact absurd (short_bool b) hlong
  | int n => exact refuses_int sp hlong d depth
  | float x => exact absurd hv (by simp [Formed])
  | str s => exact absurd (short_str s) hlong
  | arr items =>
    obtain ⟨hpos, hitems⟩ := hv
    have hparts (w : Json) (hw : w ∈ items) (hwlong : ¬ Short w) : Refuses sp (d + 1) (depth + 1) w :=
      refuses_of_long hsp (d + 1) (formedItems_iff.mp hitems w hw) hwlong (by omega)
    refine refuses_array hsp (by omega) (fun w hw => ?_) ?_
    · by_cases hshort : Short w
      · exact .inl (reads_of_short hsp (d + 1) (formedItems_iff.mp hitems w hw) hshort (by omega))
      · exact .inr (hparts w hw hshort)
    · simp only [short_arr, not_forall] at hlong
      obtain ⟨w, hw, hwlong⟩ := hlong
      exact ⟨w, hw, hparts w hw hwlong⟩
  | obj fields =>
    obtain ⟨hpos, -, hfields⟩ := hv
    have hparts (f : String × Json) (hf : f ∈ fields) (hflong : ¬ Short f.2) : Refuses sp (d + 1) (depth + 1) f.2 :=
      refuses_of_long hsp (d + 1) (formedFields_iff.mp hfields f hf) hflong (by omega)
    refine refuses_object hsp (by omega) (fun f hf => ?_) ?_
    · by_cases hshort : Short f.2
      · exact .inl (reads_of_short hsp (d + 1) (formedFields_iff.mp hfields f hf) hshort (by omega))
      · exact .inr (hparts f hf hshort)
    · simp only [short_obj, not_forall] at hlong
      obtain ⟨f, hf, hflong⟩ := hlong
      exact ⟨f, hf, hparts f hf hflong⟩
termination_by room
decreasing_by all_goals omega

/-- No text of a value with a number that is too long is read. -/
theorem read_text_of_long {sp : Spacing} (hsp : sp.Blank) {v : Json} (hv : Formed mostNested v) (hlong : ¬ Short v) :
    ∃ f, read (v.text sp).toList = .error f := by
  obtain ⟨hstarts, hrefused⟩ := refuses_of_long hsp 0 hv hlong (Nat.zero_add mostNested).le
  obtain ⟨fuel, start, finish, hfuel, -, hchars⟩ := readChars_write hstarts
  obtain ⟨f, hf⟩ := hrefused hfuel (show EndsNumber [] from nofun) start
  rw [List.append_nil] at hf
  refine ⟨f.locate (v.text sp).toList, ?_⟩
  rw [read, text, hchars, hf]
  rfl

end QualityGate.Json
