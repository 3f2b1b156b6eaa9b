import QualityGate.Proofs.Json.Tokens

/-! The reader reads exactly the texts that spell a tree in the plain dialect, and reads them as what the tree
stands for, unless the tree is beyond its bounds. -/

namespace QualityGate.Json

/-! Blanks and parts. -/

theorem exists_blanks_of_skipSpace {index index' : Nat} {s r : List Char} (h : skipSpace index s = (index', r)) :
    ∃ blanks, AllBlank blanks ∧ s = blanks ++ r := by
  induction s generalizing index with
  | nil =>
    cases h
    exact ⟨[], nofun, rfl⟩
  | cons c s ih =>
    rw [skipSpace] at h
    split at h
    case isTrue hc =>
      obtain ⟨blanks, hblanks, rfl⟩ := ih h
      exact ⟨c :: blanks, List.forall_mem_cons.mpr ⟨hc, hblanks⟩, rfl⟩
    case isFalse =>
      cases h
      exact ⟨[], nofun, rfl⟩

theorem skipSpace_allBlank {blanks : List Char} (h : AllBlank blanks) (index : Nat) :
    (skipSpace index blanks).2 = [] := by
  induction blanks generalizing index with
  | nil => rfl
  | cons c blanks ih =>
    obtain ⟨hc, hblanks⟩ := List.forall_mem_cons.mp h
    rw [skipSpace, if_pos hc, ih hblanks]

theorem endsNumber_allBlank {blanks : List Char} (h : AllBlank blanks) {rest : List Char} (hrest : EndsNumber rest) :
    EndsNumber (blanks ++ rest) := by
  cases blanks with
  | nil => exact hrest
  | cons b blanks =>
    rintro _ ⟨⟩
    have hb : ((b = ' ' ∨ b = '\t') ∨ b = '\n') ∨ b = '\r' := by
      simpa [isSpace] using h b List.mem_cons_self
    rcases hb with ((rfl | rfl) | rfl) | rfl <;> decide

theorem joined_singleton {α : Type} (chars : α → List Char) (a : α) : joined ([a].map chars) = chars a :=
  List.intercalate_singleton

theorem joined_cons_cons {α : Type} (chars : α → List Char) (a b : α) (as : List α) :
    joined ((a :: b :: as).map chars) = chars a ++ ',' :: joined ((b :: as).map chars) := by
  simp [joined, List.intercalate_cons_cons]

theorem starts_of_spelling {σ : Type} [OfPoints σ] {v : Json σ} {t : List Char} (h : Spelling .plain v t) : Starts t := by
  cases h with
  | scalar h ht =>
    obtain rfl : t = _ := ht
    exact h.starts
  | str h =>
    cases h
    exact ⟨'"', _, rfl, by decide⟩
  | _ => exact ⟨_, _, rfl, by decide⟩

section values

variable {σ : Type}

/-! How a value is begun. -/

def isOpener (c : Char) : Bool := c == '[' || c == '\x7b'

section opening

variable [OfPoints σ] [DecidableEq σ] [Limits] {fuel depth index : Nat}

/-- What the first characters of a value decide. -/
inductive Opening (fuel depth index : Nat) : List Char → Except Fault (Step (Json σ)) → Prop where
  | string (r : List Char) : Opening fuel depth index ('"' :: r)
      (stringFrom index (index + 1) r [] >>= fun t => .ok ⟨str t.value, t.index, t.rest⟩)
  | tooDeep (c : Char) (r : List Char) (container : String) (hc : isOpener c = true) (hdepth : mostNested ≤ depth) :
    Opening fuel depth index (c :: r) (.error ⟨.tooDeep container, index⟩)
  | emptyArray {r rest : List Char} {close : Nat} (hdepth : depth < mostNested)
    (h : skipSpace (index + 1) r = (close, ']' :: rest)) :
    Opening fuel depth index ('[' :: r) (.ok ⟨arr [], close + 1, rest⟩)
  | array {r s : List Char} {start : Nat} (hdepth : depth < mostNested) (h : skipSpace (index + 1) r = (start, s)) :
    Opening fuel depth index ('[' :: r) (itemsFrom fuel (depth + 1) start s [])
  | emptyObject {r rest : List Char} {close : Nat} (hdepth : depth < mostNested)
    (h : skipSpace (index + 1) r = (close, '\x7d' :: rest)) :
    Opening fuel depth index ('\x7b' :: r) (.ok ⟨obj [], close + 1, rest⟩)
  | object {r s : List Char} {start : Nat} (hdepth : depth < mostNested) (h : skipSpace (index + 1) r = (start, s)) :
    Opening fuel depth index ('\x7b' :: r) (fieldsFrom fuel (depth + 1) start s [])
  | scalar (s : List Char) : Opening fuel depth index s (Json.scalar index s)

theorem valueFrom_bracket (fuel : Nat) (hdepth : depth < mostNested) {start : Nat} {r s : List Char}
    (h : skipSpace (index + 1) r = (start, s)) (hclose : ∀ rest, s ≠ ']' :: rest) :
    valueFrom (fuel + 1) depth index ('[' :: r) = itemsFrom (σ := σ) fuel (depth + 1) start s [] := by
  rw [valueFrom, if_neg (Nat.not_le.mpr hdepth), h]
  cases s with
  | nil => rfl
  | cons c s =>
    have hc : c ≠ ']' := fun he => hclose s (by rw [he])
    simp

theorem valueFrom_brace (fuel : Nat) (hdepth : depth < mostNested) {start : Nat} {r s : List Char}
    (h : skipSpace (index + 1) r = (start, s)) (hclose : ∀ rest, s ≠ '\x7d' :: rest) :
    valueFrom (fuel + 1) depth index ('\x7b' :: r) = fieldsFrom (σ := σ) fuel (depth + 1) start s [] := by
  rw [valueFrom, if_neg (Nat.not_le.mpr hdepth), h]
  cases s with
  | nil => rfl
  | cons c s =>
    have hc : c ≠ '\x7d' := fun he => hclose s (by rw [he])
    simp

theorem opening_bracket (r : List Char) :
    Opening (σ := σ) fuel depth index ('[' :: r) (valueFrom (fuel + 1) depth index ('[' :: r)) := by
  by_cases hdepth : mostNested ≤ depth
  · rw [valueFrom, if_pos hdepth]
    exact .tooDeep '[' r _ rfl hdepth
  rw [Nat.not_le] at hdepth
  obtain ⟨start, s, hs⟩ : ∃ start s, skipSpace (index + 1) r = (start, s) := ⟨_, _, rfl⟩
  by_cases hclose : ∃ rest, s = ']' :: rest
  · obtain ⟨rest, rfl⟩ := hclose
    rw [valueFrom, if_neg (Nat.not_le.mpr hdepth), hs]
    exact .emptyArray hdepth hs
  · rw [valueFrom_bracket fuel hdepth hs (not_exists.mp hclose)]
    exact .array hdepth hs

theorem opening_brace (r : List Char) :
    Opening (σ := σ) fuel depth index ('\x7b' :: r) (valueFrom (fuel + 1) depth index ('\x7b' :: r)) := by
  by_cases hdepth : mostNested ≤ depth
  · rw [valueFrom, if_pos hdepth]
    exact .tooDeep '\x7b' r _ rfl hdepth
  rw [Nat.not_le] at hdepth
  obtain ⟨start, s, hs⟩ : ∃ start s, skipSpace (index + 1) r = (start, s) := ⟨_, _, rfl⟩
  by_cases hclose : ∃ rest, s = '\x7d' :: rest
  · obtain ⟨rest, rfl⟩ := hclose
    rw [valueFrom, if_neg (Nat.not_le.mpr hdepth), hs]
    exact .emptyObject hdepth hs
  · rw [valueFrom_brace fuel hdepth hs (not_exists.mp hclose)]
    exact .object hdepth hs

theorem opening (fuel depth index : Nat) (s : List Char) :
    Opening (σ := σ) fuel depth index s (valueFrom (fuel + 1) depth index s) := by
  cases s with
  | nil =>
    have hscalar : valueFrom (σ := σ) (fuel + 1) depth index [] = Json.scalar index [] := by simp [valueFrom]
    rw [hscalar]
    exact .scalar []
  | cons c r =>
    by_cases hquote : c = '"'
    · subst hquote
      rw [valueFrom]
      exact .string r
    by_cases hbracket : c = '['
    · subst hbracket
      exact opening_bracket r
    by_cases hbrace : c = '\x7b'
    · subst hbrace
      exact opening_brace r
    rw [valueFrom_scalar hquote hbracket hbrace]
    exact .scalar (c :: r)

end opening

/-! What is spelled is read. -/

/-- An outcome is a value with the text after it if the bounds are kept, and else a complaint about the bounds. -/
def Settles (fits : Prop) (v : Json σ) (rest : List Char) (o : Except Fault (Step (Json σ))) : Prop :=
  (fits → ∃ index, o = .ok ⟨v, index, rest⟩) ∧ (¬ fits → ∃ f, o = .error f ∧ f.problem.isSyntax = false)

section settles

variable {rest : List Char}

theorem Settles.error {fits : Prop} {v : Json σ} {f : Fault} (hfits : ¬ fits) (hf : f.problem.isSyntax = false) :
    Settles fits v rest (.error f) :=
  ⟨fun h => absurd h hfits, fun _ => ⟨f, rfl, hf⟩⟩

theorem Settles.ok {fits : Prop} {v : Json σ} (hfits : fits) (index : Nat) : Settles fits v rest (.ok ⟨v, index, rest⟩) :=
  ⟨fun _ => ⟨index, rfl⟩, fun h => absurd hfits h⟩

theorem Settles.congr {fits fits' : Prop} {v v' : Json σ} {o : Except Fault (Step (Json σ))} (h : Settles fits v rest o)
    (hfits : fits' ↔ fits) (hv : v' = v) : Settles fits' v' rest o := by
  rwa [hv, Settles, hfits]

end settles

section fits

variable [Limits] {depth : Nat}

/-- Whether a tree is within the bounds inside of `depth` brackets. -/
def Fits (depth : Nat) (v : Json σ) : Prop := Nested (mostNested - depth) v ∧ Short v

theorem fits_arr {items : List (Json σ)} :
    Fits depth (arr items) ↔ depth < mostNested ∧ ∀ v ∈ items, Fits (depth + 1) v := by
  simp only [Fits, Nested, nestedItems_iff, short_arr, Nat.sub_add_eq, Nat.sub_pos_iff_lt, forall_and]
  tauto

theorem fits_obj {fields : List (σ × Json σ)} :
    Fits depth (obj fields) ↔ depth < mostNested ∧ ∀ f ∈ fields, Fits (depth + 1) f.2 := by
  simp only [Fits, Nested, nestedFields_iff, short_obj, Nat.sub_add_eq, Nat.sub_pos_iff_lt, forall_and]
  tauto

end fits

/-- Numbers and words have no parts. -/
theorem Token.flat [DecidableEq σ] {v : Json σ} {w : List Char} (h : Token v w) : (∀ room, Nested room v) ∧ merged v = v := by
  cases h with
  | word hw =>
    simp only [words, List.mem_cons, List.not_mem_nil, or_false, Prod.mk.injEq] at hw
    rcases hw with ⟨-, rfl⟩ | ⟨-, rfl⟩ | ⟨-, rfl⟩ | ⟨-, rfl⟩ | ⟨-, rfl⟩ | ⟨-, rfl⟩ <;> simp [Nested, merged]
  | int => simp [Nested, merged]
  | float => simp [Nested, merged]

theorem endsNumber_closer {c : Char} (hc : c = ']' ∨ c = '\x7d') (rest : List Char) : EndsNumber (c :: rest) :=
  endsNumber_blanks (show AllBlank [] from nofun) hc rest

/-- Where the first part begins, blanks are skipped up to a character that closes nothing. -/
theorem skipSpace_joined {α : Type} (chars : α → List Char) {as : List α} (hne : as ≠ [])
    (h : ∀ a ∈ as, ∃ blanks text, AllBlank blanks ∧ Starts text ∧ chars a = blanks ++ text) (index : Nat)
    (more : List Char) :
    ∃ index' c cs, skipSpace index (joined (as.map chars) ++ more) = (index', c :: cs) ∧ c ≠ ']' ∧ c ≠ '\x7d' := by
  obtain ⟨a, as, rfl⟩ := List.exists_cons_of_ne_nil hne
  obtain ⟨blanks, text, hblanks, htext, hchars⟩ := h a List.mem_cons_self
  obtain ⟨more, hmore⟩ : ∃ r, joined ((a :: as).map chars) ++ more = blanks ++ (text ++ r) := by
    cases as with
    | nil => exact ⟨more, by rw [joined_singleton, hchars, List.append_assoc]⟩
    | cons b as => exact ⟨_, by rw [joined_cons_cons, hchars, List.append_assoc, List.append_assoc]⟩
  obtain ⟨index', hskip⟩ := skipSpace_starts hblanks (htext.append more) index
  obtain ⟨c, cs, rfl, -, hbracket, hbrace, -⟩ := htext
  exact ⟨index', c, cs ++ more, by rw [hmore, hskip, List.cons_append], hbracket, hbrace⟩

section completeness

variable [OfPoints σ] [DecidableEq σ] [Limits] {fuel depth index : Nat} {rest : List Char}

/-- Whether a text is read as what a tree stands for, whatever follows. -/
def ReadAs (v : Json σ) (t : List Char) : Prop :=
  ∀ (fuel depth index : Nat) (rest : List Char), t.length ≤ fuel → EndsNumber rest →
    Settles (Fits depth v) (merged v) rest (valueFrom fuel depth index (t ++ rest))

/-- A text with a last character of its own is read so even before more digits. -/
def ReadWhole (v : Json σ) (t : List Char) : Prop :=
  ∀ (fuel depth index : Nat) (rest : List Char), t.length ≤ fuel →
    Settles (Fits depth v) (merged v) rest (valueFrom fuel depth index (t ++ rest))

theorem ReadWhole.readAs {v : Json σ} {t : List Char} (h : ReadWhole v t) : ReadAs v t :=
  fun fuel depth index rest hfuel _ => h fuel depth index rest hfuel

/-- An item that can be read, with the gaps around it. -/
structure Item.Readable (i : Item σ) : Prop where
  before : AllBlank i.before
  after : AllBlank i.after
  starts : Starts i.text
  read : ReadAs i.value i.text

/-- Between its gaps an item is read, up to the character that ends it. -/
theorem Item.Readable.settles {i : Item σ} (h : i.Readable) (hfuel : i.text.length ≤ fuel) {c : Char} {more : List Char}
    (hc : isSpace c = false) (hends : EndsNumber (c :: more)) (depth index : Nat) :
    ∃ start, skipSpace index (i.chars ++ c :: more) = (start, i.text ++ (i.after ++ c :: more)) ∧
      (Fits depth i.value → ∃ next index', valueFrom fuel depth start (i.text ++ (i.after ++ c :: more)) =
        .ok ⟨merged i.value, next, i.after ++ c :: more⟩ ∧ skipSpace next (i.after ++ c :: more) = (index', c :: more)) ∧
      (¬ Fits depth i.value → ∃ f, valueFrom (σ := σ) fuel depth start (i.text ++ (i.after ++ c :: more)) = .error f ∧
        f.problem.isSyntax = false) := by
  obtain ⟨start, hstart⟩ := skipSpace_starts h.before (h.starts.append (i.after ++ c :: more)) index
  obtain ⟨hok, herror⟩ := h.read _ depth start _ hfuel (endsNumber_allBlank h.after hends)
  refine ⟨start, by simpa [Item.chars] using hstart, fun hfits => ?_, herror⟩
  obtain ⟨next, hvalue⟩ := hok hfits
  obtain ⟨index', hskip⟩ := skipSpace_blanks h.after next hc more
  exact ⟨next, index', hvalue, hskip⟩

theorem itemsFrom_settles {items : List (Item σ)} (hne : items ≠ []) (hread : ∀ i ∈ items, i.Readable)
    (hfuel : (joined (items.map Item.chars)).length < fuel) (depth index : Nat) (acc : List (Json σ)) (rest : List Char) :
    Settles (∀ i ∈ items, Fits depth i.value) (arr (acc.reverse ++ items.map fun i => merged i.value)) rest
      (let p := skipSpace index (joined (items.map Item.chars) ++ ']' :: rest)
       itemsFrom fuel depth p.1 p.2 acc) := by
  induction items generalizing fuel index acc with
  | nil => exact absurd rfl hne
  | cons i items ih =>
    obtain ⟨fuel, rfl⟩ : ∃ n, fuel = n + 1 := ⟨fuel - 1, by omega⟩
    obtain ⟨hi, hitems⟩ := List.forall_mem_cons.mp hread
    have hlength : i.text.length ≤ i.chars.length := by simp only [Item.chars, List.length_append]; omega
    cases items with
    | nil =>
      rw [joined_singleton] at hfuel ⊢
      obtain ⟨start, hstart, hok, herror⟩ :=
        hi.settles (show _ ≤ fuel by omega) (by decide) (endsNumber_closer (.inl rfl) rest) depth index
      rw [hstart]
      by_cases hfits : Fits depth i.value
      · obtain ⟨next, index', hvalue, hskip⟩ := hok hfits
        simp only [itemsFrom, hvalue, bind, Except.bind, hskip]
        exact (Settles.ok hfits _).congr (by simp) (by simp)
      · obtain ⟨f, hvalue, hf⟩ := herror hfits
        simp only [itemsFrom, hvalue, bind, Except.bind]
        exact .error (fun h => hfits (h i List.mem_cons_self)) hf
    | cons j items =>
      rw [joined_cons_cons, List.length_append, List.length_cons] at hfuel
      rw [joined_cons_cons, List.append_assoc, List.cons_append]
      obtain ⟨start, hstart, hok, herror⟩ :=
        hi.settles (show _ ≤ fuel by omega) (by decide) (endsNumber_comma _) depth index
      rw [hstart]
      by_cases hfits : Fits depth i.value
      · obtain ⟨next, index', hvalue, hskip⟩ := hok hfits
        simp only [itemsFrom, hvalue, bind, Except.bind, hskip]
        refine (ih (by simp) hitems (show _ < fuel by omega) (index' + 1) (merged i.value :: acc)).congr ?_ (by simp)
        rw [List.forall_mem_cons, and_iff_right hfits]
      · obtain ⟨f, hvalue, hf⟩ := herror hfits
        simp only [itemsFrom, hvalue, bind, Except.bind]
        exact .error (fun h => hfits (h i List.mem_cons_self)) hf

/-- How a field is read from its value on. -/
def fieldFrom (fuel depth : Nat) (name : σ) (acc : List (σ × Json σ)) (p : Nat × List Char) :
    Except Fault (Step (Json σ)) := do
  let v ← valueFrom fuel depth p.1 p.2
  match skipSpace v.index v.rest with
  | (index, '\x7d' :: r) => .ok ⟨obj (Fields.ofPairs ((name, v.value) :: acc).reverse), index + 1, r⟩
  | (index, ',' :: r) =>
    let (index, r) := skipSpace (index + 1) r
    fieldsFrom fuel depth index r ((name, v.value) :: acc)
  | (index, _) => .error ⟨.expectingComma, index⟩

/-- A field that can be read, with the gaps around its name. -/
structure Entry.Readable (e : Entry σ) : Prop where
  before : AllBlank e.before
  name : Quoted e.name e.nameText
  after : AllBlank e.after
  item : e.item.Readable

theorem Entry.Readable.starts {e : Entry σ} (h : e.Readable) :
    Starts (e.nameText ++ (e.after ++ ':' :: e.item.chars)) := by
  obtain ⟨-, hname, -⟩ := h
  generalize e.name = s, e.nameText = t at hname
  cases hname
  exact ⟨'"', _, rfl, by decide⟩

theorem Entry.Readable.named {e : Entry σ} (h : e.Readable) (fuel depth index : Nat) (acc : List (σ × Json σ))
    (more : List Char) :
    ∃ index', (let p := skipSpace index (e.chars ++ more)
       fieldsFrom (fuel + 1) depth p.1 p.2 acc) =
      fieldFrom fuel depth e.name acc (skipSpace index' (e.item.chars ++ more)) := by
  obtain ⟨before, name, nameText, after, item⟩ := e
  obtain ⟨hbefore, hname, hafter, -⟩ := h
  dsimp only at hbefore hname hafter
  cases hname with
  | @intro ps hps =>
    obtain ⟨start, hstart⟩ := skipSpace_blanks hbefore index (c := '"') (by decide)
      (ps.flatMap Piece.chars ++ '"' :: (after ++ ':' :: (item.chars ++ more)))
    obtain ⟨next, hstring⟩ := stringFrom_pieces (σ := σ) hps start (start + 1) (after ++ ':' :: (item.chars ++ more)) []
    obtain ⟨colon, hcolon⟩ := skipSpace_blanks hafter next (c := ':') (by decide) (item.chars ++ more)
    refine ⟨colon + 1, ?_⟩
    simp only [Entry.chars, List.append_assoc, List.cons_append, List.nil_append]
    simp only [hstart, fieldsFrom, hstring, bind, Except.bind, hcolon, fieldFrom]
    rfl

theorem fieldsFrom_settles {entries : List (Entry σ)} (hne : entries ≠ []) (hread : ∀ e ∈ entries, e.Readable)
    (hfuel : (joined (entries.map Entry.chars)).length < fuel) (depth index : Nat) (acc : List (σ × Json σ))
    (rest : List Char) :
    Settles (∀ e ∈ entries, Fits depth e.item.value)
      (obj (Fields.ofPairs (acc.reverse ++ entries.map fun e => (e.name, merged e.item.value)))) rest
      (let p := skipSpace index (joined (entries.map Entry.chars) ++ '\x7d' :: rest)
       fieldsFrom fuel depth p.1 p.2 acc) := by
  induction entries generalizing fuel index acc with
  | nil => exact absurd rfl hne
  | cons e entries ih =>
    obtain ⟨fuel, rfl⟩ : ∃ n, fuel = n + 1 := ⟨fuel - 1, by omega⟩
    obtain ⟨he, hentries⟩ := List.forall_mem_cons.mp hread
    have hlength : e.item.text.length < e.chars.length := by
      simp only [Entry.chars, Item.chars, List.length_append, List.length_cons]
      omega
    cases entries with
    | nil =>
      rw [joined_singleton] at hfuel ⊢
      obtain ⟨colon, hnamed⟩ := he.named fuel depth index acc ('\x7d' :: rest)
      obtain ⟨start, hstart, hok, herror⟩ :=
        he.item.settles (show _ ≤ fuel by omega) (by decide) (endsNumber_closer (.inr rfl) rest) depth colon
      rw [hnamed, hstart]
      by_cases hfits : Fits depth e.item.value
      · obtain ⟨next, index', hvalue, hskip⟩ := hok hfits
        simp only [fieldFrom, hvalue, bind, Except.bind, hskip]
        exact (Settles.ok hfits _).congr (by simp) (by simp)
      · obtain ⟨f, hvalue, hf⟩ := herror hfits
        simp only [fieldFrom, hvalue, bind, Except.bind]
        exact .error (fun h => hfits (h e List.mem_cons_self)) hf
    | cons e' entries =>
      rw [joined_cons_cons, List.length_append, List.length_cons] at hfuel
      rw [joined_cons_cons, List.append_assoc, List.cons_append]
      obtain ⟨colon, hnamed⟩ := he.named fuel depth index acc
        (',' :: (joined ((e' :: entries).map Entry.chars) ++ '\x7d' :: rest))
      obtain ⟨start, hstart, hok, herror⟩ :=
        he.item.settles (show _ ≤ fuel by omega) (by decide) (endsNumber_comma _) depth colon
      rw [hnamed, hstart]
      by_cases hfits : Fits depth e.item.value
      · obtain ⟨next, index', hvalue, hskip⟩ := hok hfits
        simp only [fieldFrom, hvalue, bind, Except.bind, hskip]
        refine (ih (by simp) hentries (show _ < fuel by omega) (index' + 1)
          ((e.name, merged e.item.value) :: acc)).congr ?_ (by simp)
        rw [List.forall_mem_cons, and_iff_right hfits]
      · obtain ⟨f, hvalue, hf⟩ := herror hfits
        simp only [fieldFrom, hvalue, bind, Except.bind]
        exact .error (fun h => hfits (h e List.mem_cons_self)) hf

theorem readAs_string {s : σ} {t : List Char} (h : Quoted s t) : ReadAs (str s) t := by
  intro fuel depth index rest hfuel _
  cases h with
  | intro hps =>
    obtain ⟨fuel, rfl⟩ : ∃ n, fuel = n + 1 := ⟨fuel - 1, by rw [List.length_cons] at hfuel; omega⟩
    obtain ⟨index', hread⟩ := stringFrom_pieces (σ := σ) hps index (index + 1) rest []
    rw [List.cons_append, List.append_assoc, List.singleton_append, valueFrom, hread]
    exact .ok ⟨by simp [Nested], short_str _⟩ index'

theorem readAs_scalar {v : Json σ} {w : List Char} (h : Token v w) : ReadAs v w := by
  intro fuel depth index rest hfuel hrest
  obtain ⟨c, cs, hw⟩ := List.exists_cons_of_ne_nil h.ne_nil
  have hc : isTokenChar c = true := h.isTokenChar c (by rw [hw]; exact List.mem_cons_self)
  obtain ⟨fuel, rfl⟩ : ∃ n, fuel = n + 1 := ⟨fuel - 1, by rw [hw, List.length_cons] at hfuel; omega⟩
  obtain ⟨hok, herror⟩ := scalar_token h hrest index
  have hread : valueFrom (σ := σ) (fuel + 1) depth index (w ++ rest) = scalar index (w ++ rest) := by
    rw [hw, List.cons_append, valueFrom_scalar (ne_of_isTokenChar hc rfl) (ne_of_isTokenChar hc rfl)
      (ne_of_isTokenChar hc rfl)]
  obtain ⟨hnested, hmerged⟩ := h.flat
  rw [hread, hmerged, Fits, and_iff_right (hnested _)]
  exact ⟨hok, herror⟩

theorem valueFrom_tooDeep (fuel index : Nat) {s r : List Char} (hdepth : mostNested ≤ depth)
    (hs : s = '[' :: r ∨ s = '\x7b' :: r) :
    ∃ f, valueFrom (σ := σ) (fuel + 1) depth index s = .error f ∧ f.problem.isSyntax = false := by
  rcases hs with rfl | rfl
  · exact ⟨_, by rw [valueFrom, if_pos hdepth], rfl⟩
  · exact ⟨_, by rw [valueFrom, if_pos hdepth], rfl⟩

theorem readWhole_emptyArray {g : List Char} (hg : AllBlank g) : ReadWhole (σ := σ) (arr []) ('[' :: (g ++ [']'])) := by
  intro fuel depth index rest hfuel
  obtain ⟨fuel, rfl⟩ : ∃ n, fuel = n + 1 := ⟨fuel - 1, by rw [List.length_cons] at hfuel; omega⟩
  rw [List.cons_append, List.append_assoc, List.singleton_append]
  by_cases hdepth : depth < mostNested
  · obtain ⟨close, hclose⟩ := skipSpace_blanks hg (index + 1) (c := ']') (by decide) rest
    rw [valueFrom, if_neg (Nat.not_le.mpr hdepth), hclose]
    exact .ok (fits_arr.mpr ⟨hdepth, by simp⟩) _
  · obtain ⟨f, hvalue, hf⟩ := valueFrom_tooDeep (σ := σ) fuel index (Nat.not_lt.mp hdepth) (.inl rfl)
    rw [hvalue]
    exact .error (fun h => hdepth (fits_arr.mp h).1) hf

theorem readWhole_emptyObject {g : List Char} (hg : AllBlank g) :
    ReadWhole (σ := σ) (obj []) ('\x7b' :: (g ++ ['\x7d'])) := by
  intro fuel depth index rest hfuel
  obtain ⟨fuel, rfl⟩ : ∃ n, fuel = n + 1 := ⟨fuel - 1, by rw [List.length_cons] at hfuel; omega⟩
  rw [List.cons_append, List.append_assoc, List.singleton_append]
  by_cases hdepth : depth < mostNested
  · obtain ⟨close, hclose⟩ := skipSpace_blanks hg (index + 1) (c := '\x7d') (by decide) rest
    rw [valueFrom, if_neg (Nat.not_le.mpr hdepth), hclose]
    exact .ok (fits_obj.mpr ⟨hdepth, by simp⟩) _
  · obtain ⟨f, hvalue, hf⟩ := valueFrom_tooDeep (σ := σ) fuel index (Nat.not_lt.mp hdepth) (.inr rfl)
    rw [hvalue]
    exact .error (fun h => hdepth (fits_obj.mp h).1) hf

theorem readWhole_array {items : List (Item σ)} (hne : items ≠ []) (hread : ∀ i ∈ items, i.Readable) :
    ReadWhole (arr (items.map Item.value)) ('[' :: (joined (items.map Item.chars) ++ [']'])) := by
  intro fuel depth index rest hfuel
  rw [List.length_cons, List.length_append, List.length_singleton] at hfuel
  obtain ⟨fuel, rfl⟩ : ∃ n, fuel = n + 1 := ⟨fuel - 1, by omega⟩
  rw [List.cons_append, List.append_assoc, List.singleton_append]
  by_cases hdepth : depth < mostNested
  · have hitems := itemsFrom_settles hne hread (show _ < fuel by omega) (depth + 1) (index + 1) [] rest
    obtain ⟨index', c, cs, hskip, hclose, -⟩ := skipSpace_joined Item.chars hne (fun i hi =>
      ⟨i.before, i.text ++ i.after, (hread i hi).before, (hread i hi).starts.append _, rfl⟩) (index + 1) (']' :: rest)
    have hopen := valueFrom_bracket (σ := σ) fuel hdepth hskip fun rest he => hclose (List.cons.inj he).1
    rw [hskip] at hitems
    rw [hopen]
    refine hitems.congr ?_ (by simp [merged, mergedItems_eq_map])
    rw [fits_arr, and_iff_right hdepth]
    simp
  · obtain ⟨f, hvalue, hf⟩ := valueFrom_tooDeep (σ := σ) fuel index (Nat.not_lt.mp hdepth) (.inl rfl)
    rw [hvalue]
    exact .error (fun h => hdepth (fits_arr.mp h).1) hf

theorem readWhole_object {entries : List (Entry σ)} (hne : entries ≠ []) (hread : ∀ e ∈ entries, e.Readable) :
    ReadWhole (obj (entries.map Entry.field)) ('\x7b' :: (joined (entries.map Entry.chars) ++ ['\x7d'])) := by
  intro fuel depth index rest hfuel
  rw [List.length_cons, List.length_append, List.length_singleton] at hfuel
  obtain ⟨fuel, rfl⟩ : ∃ n, fuel = n + 1 := ⟨fuel - 1, by omega⟩
  rw [List.cons_append, List.append_assoc, List.singleton_append]
  by_cases hdepth : depth < mostNested
  · have hfields := fieldsFrom_settles hne hread (show _ < fuel by omega) (depth + 1) (index + 1) [] rest
    obtain ⟨index', c, cs, hskip, -, hclose⟩ := skipSpace_joined Entry.chars hne (fun e he =>
      ⟨e.before, _, (hread e he).before, (hread e he).starts, rfl⟩) (index + 1) ('\x7d' :: rest)
    have hopen := valueFrom_brace (σ := σ) fuel hdepth hskip fun rest he => hclose (List.cons.inj he).1
    rw [hskip] at hfields
    rw [hopen]
    refine hfields.congr ?_ (by rw [merged, mergedFields_eq_map, List.map_map]; rfl)
    rw [fits_obj, and_iff_right hdepth]
    simp [Entry.field]
  · obtain ⟨f, hvalue, hf⟩ := valueFrom_tooDeep (σ := σ) fuel index (Nat.not_lt.mp hdepth) (.inr rfl)
    rw [hvalue]
    exact .error (fun h => hdepth (fits_obj.mp h).1) hf

theorem readAs_of_spelling {v : Json σ} {t : List Char} (h : Spelling .plain v t) : ReadAs v t := by
  induction h with
  | scalar h ht =>
    obtain rfl : _ = _ := ht
    exact readAs_scalar h
  | str h => exact readAs_string h
  | emptyArray hg => exact (readWhole_emptyArray hg).readAs
  | emptyObject hg => exact (readWhole_emptyObject hg).readAs
  | array hne hgaps hitems hc ih =>
    obtain rfl : _ = [] := hc
    exact (readWhole_array hne fun i hi =>
      ⟨(hgaps i hi).1, (hgaps i hi).2, starts_of_spelling (hitems i hi), ih i hi⟩).readAs
  | object hne hnames hgaps hitems hc ih =>
    obtain rfl : _ = [] := hc
    refine (readWhole_object hne fun e he => ?_).readAs
    obtain ⟨hbefore, hname, hafter⟩ := hnames e he
    exact ⟨hbefore, hname, hafter, (hgaps e he).1, (hgaps e he).2, starts_of_spelling (hitems e he), ih e he⟩

end completeness

/-! What is read is spelled. -/

theorem ok_of_bind {α β : Type} {o : Except Fault α} {f : α → Except Fault β} {b : β} (h : (o >>= f) = .ok b) :
    ∃ a, o = .ok a ∧ f a = .ok b := by
  cases o with
  | error => cases h
  | ok a => exact ⟨a, rfl, h⟩

theorem error_of_bind {α β : Type} {o : Except Fault α} {f : α → Except Fault β} {e : Fault}
    (h : (o >>= f) = .error e) : o = .error e ∨ ∃ a, o = .ok a ∧ f a = .error e := by
  cases o with
  | error =>
    cases h
    exact .inl rfl
  | ok a => exact .inr ⟨a, rfl, h⟩

/-- A string with its opening quote. -/
theorem quoted_of_stringFrom [OfPoints σ] {start index : Nat} {s : List Char} {name : Step σ}
    (h : stringFrom start index s [] = .ok name) :
    ∃ t, Quoted name.value t ∧ '"' :: s = t ++ name.rest := by
  obtain ⟨ps, hps, rfl, hvalue⟩ := pieced_of_stringFrom h
  refine ⟨'"' :: (ps.flatMap Piece.chars ++ ['"']), ?_, by simp⟩
  rw [hvalue]
  exact .intro hps

section soundness

variable [OfPoints σ] [DecidableEq σ] [Limits] {fuel depth index : Nat} {s : List Char} {st : Step (Json σ)}

/-- What was read from a text spells a tree within the bounds. -/
def SpelledBy (depth : Nat) (s : List Char) (st : Step (Json σ)) : Prop :=
  ∃ v t, s = t ++ st.rest ∧ Spelling .plain v t ∧ Fits depth v ∧ merged v = st.value

structure Item.Spelled (depth : Nat) (i : Item σ) : Prop where
  before : AllBlank i.before
  after : AllBlank i.after
  spelling : Spelling .plain i.value i.text
  fits : Fits depth i.value

structure Entry.Spelled (depth : Nat) (e : Entry σ) : Prop where
  before : AllBlank e.before
  name : Quoted e.name e.nameText
  after : AllBlank e.after
  item : e.item.Spelled depth

/-- Whatever blanks stood before. -/
def SpelledByItems (depth : Nat) (s : List Char) (acc : List (Json σ)) (st : Step (Json σ)) : Prop :=
  ∀ blanks, AllBlank blanks → ∃ items : List (Item σ), items ≠ [] ∧
    blanks ++ s = joined (items.map Item.chars) ++ ']' :: st.rest ∧ (∀ i ∈ items, i.Spelled depth) ∧
    st.value = arr (acc.reverse ++ items.map fun i => merged i.value)

def SpelledByFields (depth : Nat) (s : List Char) (acc : List (σ × Json σ)) (st : Step (Json σ)) : Prop :=
  ∀ blanks, AllBlank blanks → ∃ entries : List (Entry σ), entries ≠ [] ∧
    blanks ++ s = joined (entries.map Entry.chars) ++ '\x7d' :: st.rest ∧ (∀ e ∈ entries, e.Spelled depth) ∧
    st.value = obj (Fields.ofPairs (acc.reverse ++ entries.map fun e => (e.name, merged e.item.value)))

theorem SpelledByItems.single {v : Step (Json σ)} {acc : List (Json σ)} {after rest : List Char} (hv : SpelledBy depth s v)
    (hafter : AllBlank after) (hrest : v.rest = after ++ ']' :: rest) (index : Nat) :
    SpelledByItems depth s acc ⟨arr (v.value :: acc).reverse, index, rest⟩ := by
  intro blanks hblanks
  obtain ⟨value, t, hs, ht, hfits, hvalue⟩ := hv
  refine ⟨[⟨blanks, value, t, after⟩], by simp, ?_, ?_, ?_⟩
  · rw [joined_singleton, hs, hrest]
    simp [Item.chars]
  · exact List.forall_mem_singleton.mpr ⟨hblanks, hafter, ht, hfits⟩
  · simp [hvalue]

theorem SpelledByItems.cons {v : Step (Json σ)} {acc : List (Json σ)} {after gap rest : List Char} (hv : SpelledBy depth s v)
    (hafter : AllBlank after) (hgap : AllBlank gap) (hrest : v.rest = after ++ ',' :: (gap ++ rest))
    (h : SpelledByItems depth rest (v.value :: acc) st) : SpelledByItems depth s acc st := by
  intro blanks hblanks
  obtain ⟨value, t, hs, ht, hfits, hvalue⟩ := hv
  obtain ⟨items, hne, hitems, hspelled, hst⟩ := h gap hgap
  obtain ⟨i, items, rfl⟩ := List.exists_cons_of_ne_nil hne
  refine ⟨⟨blanks, value, t, after⟩ :: i :: items, by simp, ?_, ?_, ?_⟩
  · rw [joined_cons_cons, hs, hrest, hitems]
    simp [Item.chars]
  · exact List.forall_mem_cons.mpr ⟨⟨hblanks, hafter, ht, hfits⟩, hspelled⟩
  · simp [hst, hvalue]

theorem itemsFrom_sound {acc : List (Json σ)}
    (hvalue : ∀ {index s st}, valueFrom (σ := σ) fuel depth index s = .ok st → SpelledBy depth s st)
    (hitems : ∀ {index s acc st}, itemsFrom (σ := σ) fuel depth index s acc = .ok st → SpelledByItems depth s acc st)
    (h : itemsFrom (fuel + 1) depth index s acc = .ok st) : SpelledByItems depth s acc st := by
  rw [itemsFrom] at h
  obtain ⟨v, hv, h⟩ := ok_of_bind h
  split at h
  case h_1 hskip =>
    cases h
    obtain ⟨after, hafter, hrest⟩ := exists_blanks_of_skipSpace hskip
    exact .single (hvalue hv) hafter hrest _
  case h_2 r hskip =>
    obtain ⟨after, hafter, hrest⟩ := exists_blanks_of_skipSpace hskip
    obtain ⟨gap, hgap, hr⟩ := exists_blanks_of_skipSpace (r := (skipSpace _ r).2) rfl
    exact .cons (hvalue hv) hafter hgap (by rw [hrest, ← hr]) (hitems h)
  case h_3 => cases h

theorem SpelledByFields.single {v : Step (Json σ)} {name : σ} {nameText colon gap r : List Char}
    {acc : List (σ × Json σ)} {after rest : List Char} (hname : Quoted name nameText) (hcolon : AllBlank colon)
    (hgap : AllBlank gap) (hs : s = nameText ++ (colon ++ ':' :: (gap ++ r))) (hv : SpelledBy depth r v)
    (hafter : AllBlank after) (hrest : v.rest = after ++ '\x7d' :: rest) (index : Nat) :
    SpelledByFields depth s acc ⟨obj (Fields.ofPairs ((name, v.value) :: acc).reverse), index, rest⟩ := by
  intro blanks hblanks
  obtain ⟨value, t, hr, ht, hfits, hvalue⟩ := hv
  refine ⟨[⟨blanks, name, nameText, colon, ⟨gap, value, t, after⟩⟩], by simp, ?_, ?_, ?_⟩
  · rw [joined_singleton, hs, hr, hrest]
    simp [Entry.chars, Item.chars]
  · exact List.forall_mem_singleton.mpr ⟨hblanks, hname, hcolon, hgap, hafter, ht, hfits⟩
  · simp [hvalue]

theorem SpelledByFields.cons {v : Step (Json σ)} {name : σ} {nameText colon gap r : List Char}
    {acc : List (σ × Json σ)} {after next rest : List Char} (hname : Quoted name nameText) (hcolon : AllBlank colon)
    (hgap : AllBlank gap) (hs : s = nameText ++ (colon ++ ':' :: (gap ++ r))) (hv : SpelledBy depth r v)
    (hafter : AllBlank after) (hnext : AllBlank next) (hrest : v.rest = after ++ ',' :: (next ++ rest))
    (h : SpelledByFields depth rest ((name, v.value) :: acc) st) : SpelledByFields depth s acc st := by
  intro blanks hblanks
  obtain ⟨value, t, hr, ht, hfits, hvalue⟩ := hv
  obtain ⟨entries, hne, hentries, hspelled, hst⟩ := h next hnext
  obtain ⟨e, entries, rfl⟩ := List.exists_cons_of_ne_nil hne
  refine ⟨⟨blanks, name, nameText, colon, ⟨gap, value, t, after⟩⟩ :: e :: entries, by simp, ?_, ?_, ?_⟩
  · rw [joined_cons_cons, hs, hr, hrest, hentries]
    simp [Entry.chars, Item.chars]
  · exact List.forall_mem_cons.mpr ⟨⟨hblanks, hname, hcolon, hgap, hafter, ht, hfits⟩, hspelled⟩
  · simp [hst, hvalue]

theorem fieldsFrom_sound {acc : List (σ × Json σ)}
    (hvalue : ∀ {index s st}, valueFrom (σ := σ) fuel depth index s = .ok st → SpelledBy depth s st)
    (hfields : ∀ {index s acc st}, fieldsFrom (σ := σ) fuel depth index s acc = .ok st → SpelledByFields depth s acc st)
    (h : fieldsFrom (fuel + 1) depth index s acc = .ok st) : SpelledByFields depth s acc st := by
  unfold fieldsFrom at h
  split at h
  case h_2 => cases h
  case h_1 r =>
  obtain ⟨name, hname, h⟩ := ok_of_bind h
  obtain ⟨nameText, hquoted, hr⟩ := quoted_of_stringFrom hname
  split at h
  case h_2 => cases h
  case h_1 afterColon hskip =>
  obtain ⟨colon, hcolon, hcolonRest⟩ := exists_blanks_of_skipSpace hskip
  split at h
  rename_i start afterGap hstart
  obtain ⟨gap, hgap, hgapRest⟩ := exists_blanks_of_skipSpace hstart
  have hs : '"' :: r = nameText ++ (colon ++ ':' :: (gap ++ afterGap)) := by rw [hr, hcolonRest, hgapRest]
  obtain ⟨v, hv, h⟩ := ok_of_bind h
  split at h
  case h_1 hclose =>
    cases h
    obtain ⟨after, hafter, hrest⟩ := exists_blanks_of_skipSpace hclose
    exact .single hquoted hcolon hgap hs (hvalue hv) hafter hrest _
  case h_2 more hcomma =>
    obtain ⟨after, hafter, hrest⟩ := exists_blanks_of_skipSpace hcomma
    split at h
    rename_i hmore
    obtain ⟨next, hnext, hnextRest⟩ := exists_blanks_of_skipSpace hmore
    exact .cons hquoted hcolon hgap hs (hvalue hv) hafter hnext (by rw [hrest, hnextRest]) (hfields h)
  case h_3 => cases h

theorem SpelledBy.array {start index : Nat} (hdepth : depth < mostNested)
    (h : SpelledByItems (depth + 1) s [] st) {r : List Char} (hr : skipSpace start r = (index, s)) :
    SpelledBy depth ('[' :: r) st := by
  obtain ⟨blanks, hblanks, rfl⟩ := exists_blanks_of_skipSpace hr
  obtain ⟨items, hne, htext, hitems, hst⟩ := h blanks hblanks
  refine ⟨_, _, ?_, .array hne (fun i hi => ⟨(hitems i hi).before, (hitems i hi).after⟩)
    (fun i hi => (hitems i hi).spelling) rfl, ?_, ?_⟩
  · rw [htext]
    simp
  · exact fits_arr.mpr ⟨hdepth, List.forall_mem_map.mpr fun i hi => (hitems i hi).fits⟩
  · rw [hst]
    simp [merged, mergedItems_eq_map]

theorem SpelledBy.object {start index : Nat} (hdepth : depth < mostNested)
    (h : SpelledByFields (depth + 1) s [] st) {r : List Char} (hr : skipSpace start r = (index, s)) :
    SpelledBy depth ('\x7b' :: r) st := by
  obtain ⟨blanks, hblanks, rfl⟩ := exists_blanks_of_skipSpace hr
  obtain ⟨entries, hne, htext, hentries, hst⟩ := h blanks hblanks
  refine ⟨_, _, ?_, .object hne (fun e he => ⟨(hentries e he).before, (hentries e he).name, (hentries e he).after⟩)
    (fun e he => ⟨(hentries e he).item.before, (hentries e he).item.after⟩)
    (fun e he => (hentries e he).item.spelling) rfl, ?_, ?_⟩
  · rw [htext]
    simp
  · exact fits_obj.mpr ⟨hdepth, List.forall_mem_map.mpr fun e he => (hentries e he).item.fits⟩
  · rw [hst, merged, mergedFields_eq_map]
    simp [Entry.field, Function.comp_def]

theorem valueFrom_sound
    (hitems : ∀ {index s acc st}, itemsFrom (σ := σ) fuel (depth + 1) index s acc = .ok st →
      SpelledByItems (depth + 1) s acc st)
    (hfields : ∀ {index s acc st}, fieldsFrom (σ := σ) fuel (depth + 1) index s acc = .ok st →
      SpelledByFields (depth + 1) s acc st)
    (h : valueFrom (fuel + 1) depth index s = .ok st) : SpelledBy depth s st := by
  have hopening := opening (σ := σ) fuel depth index s
  rw [h] at hopening
  generalize ho : Except.ok st = o at hopening
  cases hopening with
  | string r =>
    obtain ⟨name, hname, hst⟩ := ok_of_bind ho.symm
    obtain ⟨t, ht, hs⟩ := quoted_of_stringFrom hname
    cases hst
    exact ⟨_, t, hs, .str ht, ⟨by simp [Nested], short_str _⟩, rfl⟩
  | tooDeep => cases ho
  | emptyArray hdepth hskip =>
    cases ho
    obtain ⟨g, hg, hr⟩ := exists_blanks_of_skipSpace hskip
    exact ⟨_, _, by rw [hr]; simp, .emptyArray hg, fits_arr.mpr ⟨hdepth, nofun⟩, rfl⟩
  | array hdepth hskip => exact .array hdepth (hitems ho.symm) hskip
  | emptyObject hdepth hskip =>
    cases ho
    obtain ⟨g, hg, hr⟩ := exists_blanks_of_skipSpace hskip
    exact ⟨_, _, by rw [hr]; simp, .emptyObject hg, fits_obj.mpr ⟨hdepth, nofun⟩, rfl⟩
  | object hdepth hskip => exact .object hdepth (hfields ho.symm) hskip
  | scalar =>
    obtain ⟨t, hs, ht, hshort⟩ := scalar_sound ho.symm
    obtain ⟨hnested, hmerged⟩ := ht.flat
    exact ⟨_, t, hs, .scalar ht rfl, ⟨hnested _, hshort⟩, hmerged⟩

theorem readers_sound (fuel : Nat) :
    (∀ {depth index s st}, valueFrom (σ := σ) fuel depth index s = .ok st → SpelledBy depth s st) ∧
      (∀ {depth index s acc st}, itemsFrom (σ := σ) fuel depth index s acc = .ok st → SpelledByItems depth s acc st) ∧
      ∀ {depth index s acc st}, fieldsFrom (σ := σ) fuel depth index s acc = .ok st → SpelledByFields depth s acc st := by
  induction fuel with
  | zero => exact ⟨by simp [valueFrom], by simp [itemsFrom], by simp [fieldsFrom]⟩
  | succ fuel ih =>
    obtain ⟨hvalue, hitems, hfields⟩ := ih
    exact ⟨valueFrom_sound hitems hfields, itemsFrom_sound hvalue hitems, fieldsFrom_sound hvalue hfields⟩

end soundness

/-! What is refused. -/

theorem sublist_of_skipSpace {index index' : Nat} {r s : List Char} (h : skipSpace index s = (index', r)) : r.Sublist s := by
  obtain ⟨blanks, -, rfl⟩ := exists_blanks_of_skipSpace h
  exact List.sublist_append_right blanks r

theorem sublist_of_stringFrom [OfPoints σ] {start index : Nat} {s : List Char} {name : Step σ}
    (h : stringFrom start index s [] = .ok name) : name.rest.Sublist s := by
  obtain ⟨ps, -, rfl, -⟩ := pieced_of_stringFrom h
  exact (List.sublist_cons_self _ _).trans (List.sublist_append_right _ _)

section crowded

variable [Limits] {depth : Nat} {r s : List Char} {f : Fault}

/-- Whether a text inside of `depth` brackets has enough digits or brackets to pass the bounds. -/
def Crowded (depth : Nat) (s : List Char) : Prop :=
  Numeral.mostDigits < s.countP isAsciiDigit ∨ mostNested < depth + s.countP isOpener

/-- A fault in a text is one of the text itself, or the text is crowded. -/
def Blames (depth : Nat) (s : List Char) (f : Fault) : Prop := f.problem.isSyntax = true ∨ Crowded depth s

theorem Crowded.mono (h : Crowded depth r) (hs : r.Sublist s) : Crowded depth s := by
  have hdigits := hs.countP_le (p := isAsciiDigit)
  have hopeners := hs.countP_le (p := isOpener)
  unfold Crowded at h ⊢
  omega

theorem Crowded.inside {c : Char} (h : Crowded (depth + 1) r) (hs : r.Sublist s) (hc : isOpener c = true) :
    Crowded depth (c :: s) := by
  have hdigits := (hs.cons c).countP_le (p := isAsciiDigit)
  have hopeners := hs.countP_le (p := isOpener)
  have hc := List.countP_cons_of_pos (l := s) hc
  unfold Crowded at h ⊢
  omega

theorem crowded_of_mostNested {c : Char} (hdepth : mostNested ≤ depth) (hc : isOpener c = true) (s : List Char) :
    Crowded depth (c :: s) := by
  rw [Crowded, List.countP_cons_of_pos hc]
  omega

theorem Blames.mono (h : Blames depth r f) (hs : r.Sublist s) : Blames depth s f := h.imp_right (·.mono hs)

end crowded

section refusal

variable [OfPoints σ] [DecidableEq σ] [Limits] {fuel depth index : Nat} {r s : List Char} {f : Fault}

theorem sublist_of_valueFrom {st : Step (Json σ)} (h : valueFrom fuel depth index s = .ok st) : st.rest.Sublist s := by
  obtain ⟨-, t, rfl, -⟩ := (readers_sound fuel).1 h
  exact List.sublist_append_right t st.rest

theorem itemsFrom_blames {acc : List (Json σ)}
    (hvalue : ∀ {index s f}, valueFrom (σ := σ) fuel depth index s = .error f → Blames depth s f)
    (hitems : ∀ {index s acc f}, itemsFrom (σ := σ) fuel depth index s acc = .error f → Blames depth s f)
    (h : itemsFrom (fuel + 1) depth index s acc = .error f) : Blames depth s f := by
  rw [itemsFrom] at h
  obtain h | ⟨v, hv, h⟩ := error_of_bind h
  · exact hvalue h
  have hrest := sublist_of_valueFrom hv
  split at h
  case h_1 => cases h
  case h_2 more hskip =>
    have hmore : more.Sublist s := ((List.sublist_cons_self ',' more).trans (sublist_of_skipSpace hskip)).trans hrest
    split at h
    rename_i hnext
    exact (hitems h).mono ((sublist_of_skipSpace hnext).trans hmore)
  case h_3 =>
    cases h
    exact .inl rfl

theorem fieldsFrom_blames {acc : List (σ × Json σ)}
    (hvalue : ∀ {index s f}, valueFrom (σ := σ) fuel depth index s = .error f → Blames depth s f)
    (hfields : ∀ {index s acc f}, fieldsFrom (σ := σ) fuel depth index s acc = .error f → Blames depth s f)
    (h : fieldsFrom (fuel + 1) depth index s acc = .error f) : Blames depth s f := by
  unfold fieldsFrom at h
  split at h
  case h_2 =>
    cases h
    exact .inl rfl
  case h_1 r =>
  obtain h | ⟨name, hname, h⟩ := error_of_bind h
  · exact .inl (isSyntax_of_stringFrom h)
  have hafter : name.rest.Sublist ('"' :: r) := (sublist_of_stringFrom hname).cons '"'
  split at h
  case h_2 =>
    cases h
    exact .inl rfl
  case h_1 afterColon hcolon =>
  have hcolonRest : afterColon.Sublist ('"' :: r) :=
    ((List.sublist_cons_self ':' _).trans (sublist_of_skipSpace hcolon)).trans hafter
  split at h
  rename_i start text hstart
  have htext : text.Sublist ('"' :: r) := (sublist_of_skipSpace hstart).trans hcolonRest
  obtain h | ⟨v, hv, h⟩ := error_of_bind h
  · exact (hvalue h).mono htext
  have hrest : v.rest.Sublist ('"' :: r) := (sublist_of_valueFrom hv).trans htext
  split at h
  case h_1 => cases h
  case h_2 more hskip =>
    have hmore : more.Sublist ('"' :: r) :=
      ((List.sublist_cons_self ',' more).trans (sublist_of_skipSpace hskip)).trans hrest
    split at h
    rename_i hnext
    exact (hfields h).mono ((sublist_of_skipSpace hnext).trans hmore)
  case h_3 =>
    cases h
    exact .inl rfl

theorem valueFrom_blames
    (hitems : ∀ {index s acc f}, itemsFrom (σ := σ) fuel (depth + 1) index s acc = .error f → Blames (depth + 1) s f)
    (hfields : ∀ {index s acc f},
      fieldsFrom (σ := σ) fuel (depth + 1) index s acc = .error f → Blames (depth + 1) s f)
    (h : valueFrom (σ := σ) (fuel + 1) depth index s = .error f) : Blames depth s f := by
  have hopening := opening (σ := σ) fuel depth index s
  rw [h] at hopening
  generalize ho : Except.error f = o at hopening
  cases hopening with
  | string r =>
    obtain hstring | ⟨name, -, hname⟩ := error_of_bind ho.symm
    · exact .inl (isSyntax_of_stringFrom hstring)
    · cases hname
  | tooDeep c r _ hc hdepth => exact .inr (crowded_of_mostNested hdepth hc r)
  | emptyArray => cases ho
  | array _ hskip => exact (hitems ho.symm).imp_right (·.inside (sublist_of_skipSpace hskip) rfl)
  | emptyObject => cases ho
  | object _ hskip => exact (hfields ho.symm).imp_right (·.inside (sublist_of_skipSpace hskip) rfl)
  | scalar => exact (scalar_error ho.symm).imp_right .inl

theorem readers_blame (fuel : Nat) :
    (∀ {depth index s f}, valueFrom (σ := σ) fuel depth index s = .error f → Blames depth s f) ∧
      (∀ {depth index s acc f}, itemsFrom (σ := σ) fuel depth index s acc = .error f → Blames depth s f) ∧
      ∀ {depth index s acc f}, fieldsFrom (σ := σ) fuel depth index s acc = .error f → Blames depth s f := by
  induction fuel with
  | zero =>
    refine ⟨fun h => ?_, fun h => ?_, fun h => ?_⟩
    · rw [valueFrom] at h
      cases h
      exact .inl rfl
    · rw [itemsFrom] at h
      cases h
      exact .inl rfl
    · rw [fieldsFrom] at h
      cases h
      exact .inl rfl
  | succ fuel ih =>
    obtain ⟨hvalue, hitems, hfields⟩ := ih
    exact ⟨valueFrom_blames hitems hfields, itemsFrom_blames hvalue hitems, fieldsFrom_blames hvalue hfields⟩

end refusal

end values

/-! A whole text. -/

theorem ne_mark_of_blank {front t : List Char} (hfront : AllBlank front) (ht : Starts t) (r : List Char) :
    front ++ t ≠ '\ufeff' :: r := by
  intro h
  cases front with
  | nil =>
    obtain ⟨c, cs, rfl, -, -, -, hmark⟩ := ht
    exact hmark (List.cons.inj h).1
  | cons b front =>
    obtain rfl : b = '\ufeff' := (List.cons.inj h).1
    exact absurd (hfront _ List.mem_cons_self) (by decide)

section text

variable {σ : Type} [OfPoints σ] [DecidableEq σ] [Limits] {s : List Char} {v : Json σ}

/-- A text without a mark in front is read as the value that stands after its blanks. -/
theorem readChars_eq (h : ∀ r, s ≠ '\ufeff' :: r) {start : Nat} {text : List Char}
    (hstart : skipSpace 0 s = (start, text)) :
    readChars s σ = (do
      let v ← valueFrom (2 * s.length + 2) 0 start text
      match skipSpace v.index v.rest with
      | (_, []) => .ok v.value
      | (index, _) => .error ⟨.extraData, index⟩) := by
  unfold readChars
  split
  case h_1 r => exact absurd rfl (h r)
  case h_2 =>
    generalize skipSpace 0 s = found at hstart
    subst hstart
    rfl

/-- What a text spells decides what is read. -/
theorem readChars_settles (h : Spelled .plain v s) :
    (InBounds v → readChars s σ = .ok (merged v)) ∧
      (¬ InBounds v → ∃ f, readChars s σ = .error f ∧ f.problem.isSyntax = false) := by
  obtain ⟨front, t, back, rfl, hfront, ht, hback⟩ := h
  have hstarts : Starts (t ++ back) := (starts_of_spelling ht).append back
  obtain ⟨start, hstart⟩ := skipSpace_starts hfront hstarts 0
  rw [readChars_eq (ne_mark_of_blank hfront hstarts) hstart]
  have hends : EndsNumber back := by simpa using endsNumber_allBlank hback (show EndsNumber [] from nofun)
  obtain ⟨hok, herror⟩ := readAs_of_spelling ht (2 * (front ++ (t ++ back)).length + 2) 0 start back
    (by simp only [List.length_append]; omega) hends
  refine ⟨fun hbounds => ?_, fun hbounds => ?_⟩
  · obtain ⟨index, hvalue⟩ := hok hbounds
    obtain ⟨last, hlast⟩ : ∃ last, skipSpace index back = (last, []) := ⟨_, Prod.ext rfl (skipSpace_allBlank hback index)⟩
    rw [hvalue]
    simp only [bind, Except.bind, hlast]
  · obtain ⟨f, hvalue, hf⟩ := herror hbounds
    exact ⟨f, by rw [hvalue]; rfl, hf⟩

theorem readChars_sound (h : readChars s σ = .ok v) : ∃ tree, Spelled .plain tree s ∧ InBounds tree ∧ merged tree = v := by
  have hmark (r : List Char) : s ≠ '\ufeff' :: r := by
    rintro rfl
    cases h
  obtain ⟨start, text, hstart⟩ : ∃ start text, skipSpace 0 s = (start, text) := ⟨_, _, rfl⟩
  rw [readChars_eq hmark hstart] at h
  obtain ⟨st, hst, h⟩ := ok_of_bind h
  obtain ⟨front, hfront, hs⟩ := exists_blanks_of_skipSpace hstart
  obtain ⟨tree, t, htext, ht, hfits, hvalue⟩ := (readers_sound _).1 hst
  split at h
  case h_2 => cases h
  case h_1 hskip =>
  cases h
  obtain ⟨back, hback, hrest⟩ := exists_blanks_of_skipSpace hskip
  refine ⟨tree, ⟨front, t, st.rest, by rw [hs, htext], hfront, ht, ?_⟩, hfits, hvalue⟩
  rw [hrest, List.append_nil]
  exact hback

/-- Exactly what is spelled within the bounds is read. -/
theorem readChars_ok_iff : readChars s σ = .ok v ↔ ∃ tree, Spelled .plain tree s ∧ InBounds tree ∧ merged tree = v := by
  refine ⟨readChars_sound, ?_⟩
  rintro ⟨tree, htree, hbounds, rfl⟩
  exact (readChars_settles htree).1 hbounds

theorem readChars_blames {f : Fault} (h : readChars s σ = .error f) : Blames 0 s f := by
  by_cases hmark : ∃ r, s = '\ufeff' :: r
  · obtain ⟨r, rfl⟩ := hmark
    cases h
    exact .inl rfl
  obtain ⟨start, text, hstart⟩ : ∃ start text, skipSpace 0 s = (start, text) := ⟨_, _, rfl⟩
  rw [readChars_eq (not_exists.mp hmark) hstart] at h
  obtain h | ⟨st, -, h⟩ := error_of_bind h
  · exact ((readers_blame _).1 h).mono (sublist_of_skipSpace hstart)
  split at h
  · cases h
  · cases h
    exact .inl rfl

theorem read_ok_iff : read s σ = .ok v ↔ readChars s σ = .ok v := by
  rw [read]
  cases readChars s σ <;> simp [Except.mapError]

theorem read_error_iff {f : LocatedFault} : read s σ = .error f ↔ ∃ g, readChars s σ = .error g ∧ g.locate s = f := by
  rw [read]
  cases readChars s σ <;> simp [Except.mapError]

end text

end QualityGate.Json
