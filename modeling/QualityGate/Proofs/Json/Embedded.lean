import QualityGate.Json.Embedded
import QualityGate.Proofs.Json.Passes
import QualityGate.Proofs.Json.Reading

/-! JSON inside other output. The text of an array or an object is found between what stands before it, where no
bracket opens, and whatever stands after it, and its value is read. -/

namespace QualityGate.Json

/-! The search for the closer. -/

/-- The search goes over a text without leaving the bracket that it began in. -/
def Passed (opener : Char) (t : List Char) : Prop :=
  ∀ (r : List Char) (n depth : Nat), 0 < depth →
    closingIndex? opener (closerOf opener) (t ++ r) n depth false =
      closingIndex? opener (closerOf opener) r (n + t.length) depth false

section passed

variable {opener closer c : Char} {s t body : List Char}

theorem closingIndex?_outside (c : Char) (r : List Char) (n depth : Nat) :
    closingIndex? opener closer (c :: r) n depth false =
      if c == '"' then closingIndex? opener closer r (n + 1) depth true
      else if c == opener then closingIndex? opener closer r (n + 1) (depth + 1) false
      else if c == closer then
        if depth == 1 then some (n + 1) else closingIndex? opener closer r (n + 1) (depth - 1) false
      else closingIndex? opener closer r (n + 1) depth false := by
  rw [closingIndex?]

theorem closingIndex?_inside (hslash : c ≠ '\\') (r : List Char) (n depth : Nat) :
    closingIndex? opener closer (c :: r) n depth true = closingIndex? opener closer r (n + 1) depth (c != '"') := by
  rw [closingIndex?]
  exact fun _ _ h => absurd h hslash

theorem closingIndex?_escape (c : Char) (r : List Char) (n depth : Nat) :
    closingIndex? opener closer ('\\' :: c :: r) n depth true = closingIndex? opener closer r (n + 2) depth true := by
  rw [closingIndex?]

theorem opensSpan_iff : opensSpan c = true ↔ c = '[' ∨ c = '\x7b' := by simp [opensSpan]

theorem passed_nil : Passed opener [] := fun _ _ _ _ => rfl

theorem Passed.append (h : Passed opener s) (h' : Passed opener t) : Passed opener (s ++ t) := by
  intro r n depth hdepth
  rw [List.append_assoc, h _ n depth hdepth, h' r _ depth hdepth, List.length_append, Nat.add_assoc]

theorem passed_singleton (hquote : c ≠ '"') (hopener : c ≠ opener) (hcloser : c ≠ closerOf opener) :
    Passed opener [c] := by
  intro r n depth _
  rw [List.singleton_append, closingIndex?_outside]
  simp [hquote, hopener, hcloser]

theorem passed_of_forall (h : ∀ c ∈ t, c ≠ '"' ∧ c ≠ opener ∧ c ≠ closerOf opener) : Passed opener t := by
  induction t with
  | nil => exact passed_nil
  | cons c t ih =>
    obtain ⟨⟨hquote, hopener, hcloser⟩, ht⟩ := List.forall_mem_cons.mp h
    exact (passed_singleton hquote hopener hcloser).append (ih ht)

theorem closingIndex?_plain (hslash : c ≠ '\\') (hquote : c ≠ '"') (r : List Char) (n depth : Nat) :
    closingIndex? opener closer (c :: r) n depth true = closingIndex? opener closer r (n + 1) depth true := by
  rw [closingIndex?_inside hslash, bne_iff_ne.mpr hquote]

theorem closingIndex?_run (h : ∀ c ∈ t, c ≠ '\\' ∧ c ≠ '"') (r : List Char) (n depth : Nat) :
    closingIndex? opener closer (t ++ r) n depth true = closingIndex? opener closer r (n + t.length) depth true := by
  induction t generalizing n with
  | nil => rfl
  | cons c t ih =>
    obtain ⟨⟨hslash, hquote⟩, ht⟩ := List.forall_mem_cons.mp h
    rw [List.cons_append, closingIndex?_plain hslash hquote, ih ht, List.length_cons]
    congr 1
    omega

theorem closingIndex?_pieces {ps : List Piece} (hps : ∀ p ∈ ps, p.Valid) (r : List Char) (n depth : Nat) :
    closingIndex? opener closer (ps.flatMap Piece.chars ++ r) n depth true =
      closingIndex? opener closer r (n + (ps.flatMap Piece.chars).length) depth true := by
  induction ps generalizing n with
  | nil => rfl
  | cons p ps ih =>
    obtain ⟨hp, hps⟩ := List.forall_mem_cons.mp hps
    rw [List.flatMap_cons, List.append_assoc, List.length_append, ← Nat.add_assoc, ← ih hps]
    generalize ps.flatMap Piece.chars ++ r = rest
    cases p with
    | plain c => exact closingIndex?_plain hp.2.2 hp.2.1 rest n depth
    | escape mark c => exact closingIndex?_escape mark rest n depth
    | unit a b c d =>
      simp only [Piece.chars, List.cons_append, closingIndex?_escape]
      exact closingIndex?_run (hex_of_codeUnit? hp) rest (n + 2) depth

/-- Brackets inside of a string do not count. -/
theorem passed_quoted {name : String} (h : Quoted name t) : Passed opener t := by
  intro r n depth _
  cases h with
  | @intro ps hps =>
    rw [List.cons_append, List.append_assoc, List.singleton_append, closingIndex?_outside, if_pos (by decide),
      closingIndex?_pieces hps, closingIndex?_inside (by decide)]
    simp only [List.length_cons, List.length_append, List.length_nil, bne_self_eq_false]
    congr 1
    omega

/-- Between brackets of the same kind the search is one bracket deeper, brackets of the other kind it ignores. -/
theorem Passed.enclosed {bracket : Char} (h : Passed opener body) (ho : opensSpan opener = true)
    (hb : opensSpan bracket = true) : Passed opener (bracket :: (body ++ [closerOf bracket])) := by
  have hparts : bracket :: (body ++ [closerOf bracket]) = [bracket] ++ (body ++ [closerOf bracket]) := rfl
  by_cases hsame : bracket = opener
  · subst hsame
    intro r n depth hdepth
    have hopen : closingIndex? bracket (closerOf bracket) (bracket :: (body ++ closerOf bracket :: r)) n depth false =
        closingIndex? bracket (closerOf bracket) (body ++ closerOf bracket :: r) (n + 1) (depth + 1) false := by
      rw [closingIndex?_outside]
      rcases opensSpan_iff.mp ho with rfl | rfl <;> simp
    have hclose (n : Nat) : closingIndex? bracket (closerOf bracket) (closerOf bracket :: r) n (depth + 1) false =
        closingIndex? bracket (closerOf bracket) r (n + 1) depth false := by
      rw [closingIndex?_outside]
      rcases opensSpan_iff.mp ho with rfl | rfl <;> simp [closerOf, hdepth.ne']
    rw [List.cons_append, List.append_assoc, List.singleton_append, hopen, h _ _ _ (Nat.succ_pos depth), hclose]
    simp only [List.length_cons, List.length_append, List.length_nil]
    congr 1
    omega
  · have hother : bracket ≠ '"' ∧ bracket ≠ opener ∧ bracket ≠ closerOf opener ∧ closerOf bracket ≠ '"' ∧
        closerOf bracket ≠ opener ∧ closerOf bracket ≠ closerOf opener := by
      rcases opensSpan_iff.mp ho with rfl | rfl <;> rcases opensSpan_iff.mp hb with rfl | rfl <;>
        simp_all [closerOf]
    obtain ⟨hquote, hopener, hcloser, hquote', hopener', hcloser'⟩ := hother
    rw [hparts]
    exact (passed_singleton hquote hopener hcloser).append (h.append (passed_singleton hquote' hopener' hcloser'))

theorem passed_allBlank (h : AllBlank t) (ho : opensSpan opener = true) : Passed opener t := by
  refine passed_of_forall fun c hc => ⟨ne_of_isSpace (h c hc) rfl, ?_⟩
  rcases opensSpan_iff.mp ho with rfl | rfl
  · exact ⟨ne_of_isSpace (h c hc) rfl, ne_of_isSpace (h c hc) rfl⟩
  · exact ⟨ne_of_isSpace (h c hc) rfl, ne_of_isSpace (h c hc) rfl⟩

theorem passed_mark (hc : c = ',' ∨ c = ':') (ho : opensSpan opener = true) : Passed opener [c] := by
  rcases hc with rfl | rfl <;> rcases opensSpan_iff.mp ho with rfl | rfl <;>
    exact passed_singleton (by decide) (by decide) (by decide)

theorem passed_joined {α : Type} {chars : α → List Char} {parts : List α} (ho : opensSpan opener = true)
    (h : ∀ a ∈ parts, Passed opener (chars a)) : Passed opener (joined (parts.map chars)) := by
  induction parts with
  | nil => exact passed_nil
  | cons a parts ih =>
    obtain ⟨ha, hparts⟩ := List.forall_mem_cons.mp h
    cases parts with
    | nil => rwa [joined_singleton]
    | cons b parts =>
      rw [joined_cons_cons]
      exact ha.append ((passed_mark (.inl rfl) ho).append (ih hparts))

theorem passed_items {items : List Item} (ho : opensSpan opener = true)
    (hgaps : ∀ i ∈ items, AllBlank i.before ∧ AllBlank i.after) (h : ∀ i ∈ items, Passed opener i.text) :
    Passed opener (joined (items.map Item.chars)) := by
  refine passed_joined ho fun i hi => ?_
  exact (passed_allBlank (hgaps i hi).1 ho).append ((h i hi).append (passed_allBlank (hgaps i hi).2 ho))

theorem passed_entries {entries : List Entry} (ho : opensSpan opener = true)
    (hnames : ∀ e ∈ entries, AllBlank e.before ∧ Quoted e.name e.nameText ∧ AllBlank e.after)
    (hgaps : ∀ e ∈ entries, AllBlank e.item.before ∧ AllBlank e.item.after)
    (h : ∀ e ∈ entries, Passed opener e.item.text) : Passed opener (joined (entries.map Entry.chars)) := by
  refine passed_joined ho fun e he => ?_
  obtain ⟨hbefore, hname, hafter⟩ := hnames e he
  have hitem : Passed opener e.item.chars :=
    (passed_allBlank (hgaps e he).1 ho).append ((h e he).append (passed_allBlank (hgaps e he).2 ho))
  have hvalue := (passed_allBlank hafter ho).append ((passed_mark (.inr rfl) ho).append hitem)
  exact (passed_allBlank hbefore ho).append ((passed_quoted hname).append hvalue)

theorem passed_of_spelling {v : Json} (h : Spelling .plain v t) (ho : opensSpan opener = true) : Passed opener t := by
  induction h with
  | scalar h ht =>
    obtain rfl : _ = _ := ht
    refine passed_of_forall fun c hc => ⟨ne_of_isTokenChar (h.isTokenChar c hc) rfl, ?_⟩
    rcases opensSpan_iff.mp ho with rfl | rfl
    · exact ⟨ne_of_isTokenChar (h.isTokenChar c hc) rfl, ne_of_isTokenChar (h.isTokenChar c hc) rfl⟩
    · exact ⟨ne_of_isTokenChar (h.isTokenChar c hc) rfl, ne_of_isTokenChar (h.isTokenChar c hc) rfl⟩
  | str h => exact passed_quoted h
  | emptyArray hg => exact (passed_allBlank hg ho).enclosed ho (show opensSpan '[' = true from rfl)
  | emptyObject hg => exact (passed_allBlank hg ho).enclosed ho (show opensSpan '\x7b' = true from rfl)
  | array _ hgaps _ hc ih =>
    obtain rfl : _ = [] := hc
    exact (passed_items ho hgaps ih).enclosed ho (show opensSpan '[' = true from rfl)
  | object _ hnames hgaps _ hc ih =>
    obtain rfl : _ = [] := hc
    exact (passed_entries ho hnames hgaps ih).enclosed ho (show opensSpan '\x7b' = true from rfl)

end passed

/-! The span. -/

def isContainer : Json → Bool
  | arr _ | obj _ => true
  | _ => false

section span

variable {opener : Char} {before body t : List Char} {v : Json}

theorem Token.not_isContainer {w : List Char} (h : Token v w) : ¬ isContainer v = true := by
  cases h with
  | word hw =>
    simp only [words, List.mem_cons, List.not_mem_nil, or_false, Prod.mk.injEq] at hw
    rcases hw with ⟨-, rfl⟩ | ⟨-, rfl⟩ | ⟨-, rfl⟩ | ⟨-, rfl⟩ | ⟨-, rfl⟩ | ⟨-, rfl⟩ <;> simp [isContainer]
  | int => simp [isContainer]
  | float => simp [isContainer]

/-- The text of an array or object stands between a bracket and its closer, and between them the search does not
leave the bracket. -/
theorem exists_enclosed (h : Spelling .plain v t) (hv : isContainer v = true) :
    ∃ opener body, opensSpan opener = true ∧ t = opener :: (body ++ [closerOf opener]) ∧ Passed opener body := by
  cases h with
  | scalar h => exact absurd hv h.not_isContainer
  | str => cases hv
  | emptyArray hg => exact ⟨'[', _, rfl, rfl, passed_allBlank hg rfl⟩
  | emptyObject hg => exact ⟨'\x7b', _, rfl, rfl, passed_allBlank hg rfl⟩
  | array _ hgaps hitems hc =>
    obtain rfl : _ = [] := hc
    exact ⟨'[', _, rfl, rfl, passed_items rfl hgaps fun i hi => passed_of_spelling (hitems i hi) rfl⟩
  | object _ hnames hgaps hitems hc =>
    obtain rfl : _ = [] := hc
    exact ⟨'\x7b', _, rfl, rfl, passed_entries rfl hnames hgaps fun e he => passed_of_spelling (hitems e he) rfl⟩

theorem closingIndex?_enclosed (ho : opensSpan opener = true) (h : Passed opener body) (r : List Char) (n : Nat) :
    closingIndex? opener (closerOf opener) (body ++ closerOf opener :: r) n 1 false = some (n + body.length + 1) := by
  rw [h _ n 1 Nat.one_pos, closingIndex?_outside]
  rcases opensSpan_iff.mp ho with rfl | rfl <;> simp [closerOf]

theorem embeddedSpan?_enclosed (hbefore : ∀ c ∈ before, opensSpan c = false) (ho : opensSpan opener = true)
    (h : Passed opener body) (after : List Char) :
    embeddedSpan? (before ++ (opener :: (body ++ [closerOf opener]) ++ after)) =
      some (opener :: (body ++ [closerOf opener])) := by
  have hdrop : (before ++ (opener :: (body ++ [closerOf opener]) ++ after)).dropWhile (fun c => !opensSpan c) =
      opener :: (body ++ closerOf opener :: after) := by
    rw [List.dropWhile_append_of_pos fun c hc => by rw [hbefore c hc, Bool.not_false]]
    simp [ho]
  have htake : (opener :: (body ++ closerOf opener :: after)).take (1 + body.length + 1) =
      opener :: (body ++ [closerOf opener]) := by
    rw [show opener :: (body ++ closerOf opener :: after) = opener :: (body ++ [closerOf opener]) ++ after by simp]
    exact List.take_left' (by simp only [List.length_cons, List.length_append, List.length_nil]; omega)
  unfold embeddedSpan?
  rw [hdrop]
  simp only [closingIndex?_enclosed ho h, Option.map_some, htake]

end span

section whole

variable [Limits] {t : List Char} {v : Json}

/-- The closer of an array or object ends its text, whatever follows. -/
theorem readWhole_of_spelling (h : Spelling .plain v t) (hv : isContainer v = true) : ReadWhole v t := by
  cases h with
  | scalar h => exact absurd hv h.not_isContainer
  | str => cases hv
  | emptyArray hg => exact readWhole_emptyArray hg
  | emptyObject hg => exact readWhole_emptyObject hg
  | array hne hgaps hitems hc =>
    obtain rfl : _ = [] := hc
    exact readWhole_array hne fun i hi =>
      ⟨(hgaps i hi).1, (hgaps i hi).2, starts_of_spelling (hitems i hi), readAs_of_spelling (hitems i hi)⟩
  | object hne hnames hgaps hitems hc =>
    obtain rfl : _ = [] := hc
    refine readWhole_object hne fun e he => ?_
    obtain ⟨hbefore, hname, hafter⟩ := hnames e he
    exact ⟨hbefore, hname, hafter, (hgaps e he).1, (hgaps e he).2, starts_of_spelling (hitems e he),
      readAs_of_spelling (hitems e he)⟩

theorem read_of_spelling (h : Spelling .plain v t) (hbounds : InBounds v) : read t = .ok (merged v) :=
  read_ok_iff.mpr ((readChars_settles ⟨[], t, [], by simp, nofun, h, nofun⟩).1 hbounds)

/-- Where more than blanks follows an array or object, the whole is refused for what it is. -/
theorem read_beyond (h : Spelling .plain v t) (hv : isContainer v = true) (hbounds : InBounds v) {more : List Char}
    (hmore : ¬ AllBlank more) : ∃ f, read (t ++ more) = .error f ∧ f.problem.isSyntax = true := by
  have hstarts : Starts (t ++ more) := (starts_of_spelling h).append more
  have hblank : AllBlank [] := nofun
  obtain ⟨start, hstart⟩ := skipSpace_starts hblank hstarts 0
  rw [List.nil_append] at hstart
  obtain ⟨index, hvalue⟩ := (readWhole_of_spelling h hv (2 * (t ++ more).length + 2) 0 start more
    (by rw [List.length_append]; omega)).1 hbounds
  obtain ⟨index', r, hskip⟩ : ∃ index' r, skipSpace index more = (index', r) := ⟨_, _, rfl⟩
  obtain ⟨c, r, rfl⟩ : ∃ c r', r = c :: r' := by
    refine List.exists_cons_of_ne_nil fun hr => hmore ?_
    obtain ⟨blanks, hblanks, hsplit⟩ := exists_blanks_of_skipSpace hskip
    rwa [hsplit, hr, List.append_nil]
  have hread : readChars (t ++ more) = .error ⟨.extraData, index'⟩ := by
    rw [readChars_eq (by simpa using ne_mark_of_blank hblank hstarts) hstart, hvalue]
    simp only [bind, Except.bind, hskip]
  exact ⟨_, read_error_iff.mpr ⟨_, hread, rfl⟩, rfl⟩

end whole

/-! The candidates. -/

section candidates

variable [Limits] {s text : List Char} {rest : List (List Char)} {v : Json}

theorem firstPayload?_found (hopens : text.head?.any opensSpan = true) (hread : read text = .ok v) :
    firstPayload? (text :: rest) = .ok (some v) := by
  rw [firstPayload?, if_pos hopens, hread]

theorem firstPayload?_skip
    (h : text.head?.any opensSpan = true → ∃ f, read text = .error f ∧ f.problem.isSyntax = true) :
    firstPayload? (text :: rest) = firstPayload? rest := by
  rw [firstPayload?]
  split
  case isFalse => rfl
  case isTrue hopens =>
    obtain ⟨f, hread, hf⟩ := h hopens
    rw [hread]
    exact if_pos hf

theorem exists_merged_of_firstPayload? {texts : List (List Char)} (h : firstPayload? texts = .ok (some v)) :
    ∃ tree, merged tree = v := by
  induction texts with
  | nil => cases h
  | cons text rest ih =>
    rw [firstPayload?] at h
    split at h
    case isFalse => exact ih h
    case isTrue =>
      split at h
      case h_1 w hread =>
        cases h
        obtain ⟨tree, -, -, hmerged⟩ := readChars_ok_iff.mp (read_ok_iff.mp hread)
        exact ⟨tree, hmerged⟩
      case h_2 f hread =>
        split at h
        · exact ih h
        · cases h

/-- In what is found no object has a name twice. -/
theorem nodup_of_payload? {stdout stderr : List Char} {name : String} {fields : Fields}
    (h : payload? stdout stderr = .ok (some v)) (hname : v.field? name = some (obj fields)) :
    (fields.map Prod.fst).Nodup := by
  obtain ⟨tree, hmerged⟩ := exists_merged_of_firstPayload? h
  exact nodup_of_merged_field hmerged hname

end candidates

theorem isBlank_of_opensSpan {c : Char} (h : opensSpan c = true) :
    Text.isBlank c = false ∧ Text.isBlank (closerOf c) = false := by
  rcases opensSpan_iff.mp h with rfl | rfl <;> decide

theorem trim_enclosed {opener : Char} (ho : opensSpan opener = true) (body r : List Char) :
    Text.trim (opener :: (body ++ [closerOf opener]) ++ r) = opener :: (body ++ [closerOf opener]) ++ Text.trimRight r := by
  obtain ⟨hblank, hcloser⟩ := isBlank_of_opensSpan ho
  rw [Text.trim, Text.dropBlanks_eq_self_iff.mpr (by simpa using hblank)]
  exact Text.trimRight_append_of_last (by rw [← List.cons_append, List.getLast?_concat]; simpa using hcloser) r

theorem isContainer_merged (v : Json) : isContainer (merged v) = isContainer v := by
  cases v <;> simp only [merged] <;> rfl

section found

variable [Limits] {before t after stderr : List Char} {v : Json}

theorem payload?_enclosed (h : Spelling .plain v t) (hv : isContainer v = true) (hbounds : InBounds v)
    (hbefore : ∀ c ∈ before, opensSpan c = false) (hstderr : (Text.trim stderr).head?.any opensSpan = false)
    (after : List Char) : payload? (before ++ (t ++ after)) stderr = .ok (some (merged v)) := by
  have hread : read t = .ok (merged v) := read_of_spelling h hbounds
  have hmore {more : List Char} (hmore : ¬ AllBlank more) := read_beyond h hv hbounds hmore
  obtain ⟨opener, body, ho, rfl, hbody⟩ := exists_enclosed h hv
  have hhead (r : List Char) : (opener :: (body ++ [closerOf opener]) ++ r).head?.any opensSpan = true := by simpa using ho
  rw [payload?, embeddedSpan?_enclosed hbefore ho hbody]
  simp only [List.filterMap_cons, id]
  -- The text itself is the third candidate; the second one is no array or object.
  have hthird {more : List (List Char)} : firstPayload?
      (Text.trim stderr :: (opener :: (body ++ [closerOf opener])) :: more) = .ok (some (merged v)) := by
    rw [firstPayload?_skip (by simp [hstderr])]
    exact firstPayload?_found (by simpa using hhead []) hread
  by_cases hblanks : ∀ c ∈ before, Text.isBlank c = true
  · rw [Text.trim_append_left hblanks, trim_enclosed ho]
    by_cases hafter : Text.trimRight after = []
    · rw [hafter]
      exact firstPayload?_found (hhead []) (by simpa using hread)
    · rw [firstPayload?_skip fun _ => hmore fun hall => ?_, hthird]
      obtain ⟨front, c, hc⟩ := (List.eq_nil_or_concat' _).resolve_left hafter
      have hvisible := Text.getLast?_trimRight after c (by simp [hc])
      rw [isBlank_of_isSpace (hall c (by simp [hc]))] at hvisible
      cases hvisible
  · rw [firstPayload?_skip fun hopens => ?_, hthird]
    -- The first character that is left is one of those before the text.
    have hne : before.dropWhile Text.isBlank ≠ [] := by simpa [List.dropWhile_eq_nil_iff] using hblanks
    obtain ⟨c, r, hdrop⟩ := List.exists_cons_of_ne_nil hne
    have hc : opensSpan c = false := by
      refine hbefore c ((List.dropWhile_sublist Text.isBlank).subset ?_)
      rw [hdrop]
      exact List.mem_cons_self
    rw [Text.head?_trim, Text.dropBlanks, List.dropWhile_append, hdrop] at hopens
    simp [hc] at hopens

/-- What is read on its own is read where it is the whole output. -/
theorem payload?_of_read {text : List Char} (hread : read text = .ok v) (hv : isContainer v = true) :
    payload? text [] = .ok (some v) := by
  obtain ⟨tree, ⟨front, t, back, rfl, hfront, htree, -⟩, hbounds, rfl⟩ := readChars_ok_iff.mp (read_ok_iff.mp hread)
  rw [isContainer_merged] at hv
  have hnone : ∀ c ∈ front, opensSpan c = false := fun c hc => Bool.eq_false_iff.mpr fun hopens => by
    have hblank := (isBlank_of_opensSpan hopens).1
    rw [isBlank_of_isSpace (hfront c hc)] at hblank
    cases hblank
  exact payload?_enclosed htree hv hbounds hnone rfl back

end found

/-- The text of an array or object is found after anything without an opening bracket, whatever follows, and its value
is what is read, unless the other output begins with a bracket. Only blanks around the text are left out. -/
theorem read_embedded [Limits] {text before after stderr : List Char} {v : Json} (hread : read text = .ok v)
    (hv : isContainer v = true) (hbefore : ∀ c ∈ before, opensSpan c = false)
    (hstderr : (Text.trim stderr).head?.any opensSpan = false) :
    embeddedSpan? (before ++ (text ++ after)) = some (Text.trim text) ∧
      (text.head?.any isSpace = false → text.getLast?.any isSpace = false →
        embeddedSpan? (before ++ (text ++ after)) = some text) ∧
      payload? (before ++ (text ++ after)) stderr = .ok (some v) := by
  obtain ⟨tree, htext, hbounds, rfl⟩ := readChars_ok_iff.mp (read_ok_iff.mp hread)
  rw [isContainer_merged] at hv
  obtain ⟨front, t, back, rfl, hfront, htree, hback⟩ : ∃ front t back, text = front ++ (t ++ back) ∧
    AllBlank front ∧ Spelling .plain tree t ∧ AllBlank back := htext
  obtain ⟨opener, body, ho, ht, hbody⟩ := exists_enclosed htree hv
  have hnone : ∀ c ∈ before ++ front, opensSpan c = false := by
    refine List.forall_mem_append.mpr ⟨hbefore, fun c hc => Bool.eq_false_iff.mpr fun hopens => ?_⟩
    have hblank := (isBlank_of_opensSpan hopens).1
    rw [isBlank_of_isSpace (hfront c hc)] at hblank
    cases hblank
  have hwhole : before ++ (front ++ (t ++ back) ++ after) = before ++ front ++ (t ++ (back ++ after)) := by
    simp only [List.append_assoc]
  have hspan : embeddedSpan? (before ++ front ++ (t ++ (back ++ after))) = some t := by
    rw [ht]
    exact embeddedSpan?_enclosed hnone ho hbody _
  have htrim : Text.trim (front ++ (t ++ back)) = t := by
    rw [Text.trim_append_left hfront.isBlank, Text.trim_append_right hback.isBlank, ht]
    simpa [Text.trimRight, Text.dropBlanks] using trim_enclosed ho body []
  rw [hwhole, htrim]
  refine ⟨hspan, fun hhead hlast => ?_, payload?_enclosed htree hv hbounds hnone hstderr _⟩
  obtain rfl : front = [] := by
    cases front with
    | nil => rfl
    | cons c _ => simp [hfront c List.mem_cons_self] at hhead
  obtain rfl : back = [] := by
    obtain rfl | ⟨r, c, rfl⟩ := List.eq_nil_or_concat' back
    · rfl
    · simp [hback c (by simp)] at hlast
  simpa using hspan

/-- A closer and an escaped quote inside of a string end nothing. -/
theorem read_embedded_in_noise :
    embeddedSpan? ("warn: ".toList ++ ("[\x7b\"a\": \"]\\\"\"\x7d]".toList ++ "] done".toList)) =
        some "[\x7b\"a\": \"]\\\"\"\x7d]".toList ∧
      payload? ("warn: ".toList ++ ("[\x7b\"a\": \"]\\\"\"\x7d]".toList ++ "] done".toList)) "exit [1]".toList =
        .ok (some (arr [obj [("a", str "]\"")]])) := by
  have hread : read "[\x7b\"a\": \"]\\\"\"\x7d]".toList = .ok (arr [obj [("a", str "]\"")]]) := by cbv
  obtain ⟨-, hspan, hpayload⟩ :=
    @read_embedded _ _ "warn: ".toList "] done".toList "exit [1]".toList _ hread rfl (by simp [opensSpan]) (by cbv)
  exact ⟨hspan (by decide) (by decide), hpayload⟩

end QualityGate.Json
