import Mathlib
import QualityGate.Proofs.Scan.Tokens
import QualityGate.Proofs.Text.Lines

/-! The scan of a source text. It goes from token to token, whatever they hold, and so the brackets outside of the
other tokens decide what is reported. -/

namespace QualityGate.Scan.Brackets

open Text

section step

variable {text w r rest : List Char} {before : Option Char} {c : Char} {index n : Nat} {stack stack' own own' : Stack}
  {last last' : Last}

theorem lastOf_append (c : Char) (w r : List Char) : some (lastOf c (w ++ r) w.length) = (c :: w).getLast? := by
  rw [List.getLast?_eq_getElem?, List.length_cons, Nat.add_sub_cancel]
  cases h : w.length with
  | zero => rfl
  | succ n =>
    have hn : n < w.length := by omega
    rw [lastOf, List.getElem?_append_left hn, List.getElem?_cons_succ, List.getElem?_eq_getElem hn, Option.getD_some]

/-- One token takes the scan to its end. -/
theorem scanFrom_next (h : effect text before c (w ++ rest) index stack last = .next stack' last' w.length) :
    scanFrom text before index stack last (c :: w ++ rest) =
      scanFrom text (c :: w).getLast? (index + (c :: w).length) stack' last' rest := by
  rw [List.cons_append, scanFrom.eq_def]
  simp only [h]
  rw [lastOf_append, List.drop_left, List.length_cons, Nat.add_assoc, Nat.add_comm 1]

theorem scanFrom_fault {f : Imbalance} (h : effect text before c r index stack last = .fault f) :
    scanFrom text before index stack last (c :: r) = some f := by
  rw [scanFrom.eq_def]
  simp only [h]

/-! What a token does. -/

theorem effect_blank (h : isBlank c = true) : effect text before c r index stack last = .next stack last 0 := by
  rw [effect.eq_def, if_pos h]

theorem effect_slash : effect text before '/' r index stack last = slash text r index stack last := by
  rw [effect.eq_def, if_neg (by decide), if_pos (by decide)]

theorem effect_quote {quote : Char} (h : quote = '"' ∨ quote = '\'' ∧ before.any isAlphanumeric = false) :
    effect text before quote r index stack last = .next stack .value (stringRest quote r 0) := by
  rcases h with rfl | ⟨rfl, hbefore⟩
  · rfl
  · rw [effect.eq_def, if_neg (by decide), if_neg (by decide), if_neg (by simp [hbefore]), if_pos (by decide)]

theorem effect_backtick : effect text before '\x60' r index stack last = template r index index stack := by
  rfl

theorem effect_closing {below : Stack} {openedAt : Nat} :
    effect text before '\x7d' r index ((.expression, openedAt) :: below) last = template r index openedAt below := by
  rfl

theorem effect_other (hblank : isBlank c = false) (hc : c ∉ ['/', '"', '\'', '\x60'])
    (htop : c = '\x7d' → topIsExpression stack = false) :
    effect text before c r index stack last = wordOrSymbol text c r index stack := by
  obtain ⟨hslash, hquote, hprose, htick⟩ : c ≠ '/' ∧ c ≠ '"' ∧ c ≠ '\'' ∧ c ≠ '\x60' := by simpa using hc
  have hclosing : (c == '\x7d' && topIsExpression stack) = false := by
    by_cases hbrace : c = '\x7d'
    · rw [htop hbrace, Bool.and_false]
    · rw [beq_eq_false_iff_ne.mpr hbrace, Bool.false_and]
  unfold effect
  simp [hblank, hslash, hquote, hprose, htick, hclosing]

theorem startsWord_ofNat_blankCodes : ∀ n ∈ blankCodes, startsWord (Char.ofNat n) = false := by
  decide

theorem isBlank_of_startsWord (h : startsWord c = true) : isBlank c = false := by
  refine Bool.eq_false_iff.mpr fun hblank => ?_
  have hc := startsWord_ofNat_blankCodes c.toNat (toNat_mem_of_isBlank hblank)
  rw [Char.ofNat_toNat, h] at hc
  cases hc

theorem effect_word (hc : startsWord c = true) (hw : ∀ x ∈ w, continuesWord x = true)
    (hrest : ∀ x ∈ rest.head?, continuesWord x = false) :
    effect text before c (w ++ rest) index stack last = .next stack (.word (c :: w)) w.length := by
  have hmarks : c ∉ ['/', '"', '\'', '\x60'] := fun hmark => by
    simp only [List.mem_cons, List.not_mem_nil, or_false] at hmark
    rcases hmark with rfl | rfl | rfl | rfl <;> exact absurd hc (by decide)
  have hbrace : c = '\x7d' → topIsExpression stack = false := by
    rintro rfl
    exact absurd hc (by decide)
  rw [effect_other (isBlank_of_startsWord hc) hmarks hbrace, wordOrSymbol, if_pos hc, takeWhile_run hw hrest]

theorem effect_symbol (hblank : isBlank c = false) (hword : startsWord c = false) (hc : c ∉ ['/', '"', '\'', '\x60'])
    (htop : c = '\x7d' → topIsExpression stack = false) :
    effect text before c r index stack last = symbol text c index stack := by
  rw [effect_other hblank hc htop, wordOrSymbol, if_neg (by simp [hword])]

/-- A slash before anything but another slash or a star. -/
theorem slash_other (hslash : r.head? ≠ some '/') (hstar : r.head? ≠ some '*') :
    slash text r index stack last =
      match if last.precedesRegex then regexRest? r 0 false else none with
      | some n => .next stack .value n
      | none => symbol text '/' index stack := by
  unfold slash
  split
  · simp at hslash
  · simp at hstar
  · rfl

theorem effect_division (hlast : last.precedesRegex = false) (hslash : rest.head? ≠ some '/') (hstar : rest.head? ≠ some '*') :
    effect text before '/' rest index stack last = .next stack (afterSymbol '/') 0 := by
  rw [effect_slash, slash_other hslash hstar, hlast]
  exact symbol_mark rfl rfl

theorem effect_regex {flags : List Char} (hlast : last.precedesRegex = true) (hw : RegexText false w) (hne : w ≠ [])
    (hstar : w.head? ≠ some '*') (hflags : ∀ c ∈ flags, isLetter c = true) (hrest : ∀ c ∈ rest.head?, isLetter c = false) :
    effect text before '/' (w ++ '/' :: flags ++ rest) index stack last = .next stack .value (w ++ '/' :: flags).length := by
  have hsplit : w ++ '/' :: flags ++ rest = w ++ '/' :: (flags ++ rest) := by simp
  have hhead : (w ++ '/' :: (flags ++ rest)).head? = w.head? := List.head?_append_of_ne_nil w hne
  have hslash : w.head? ≠ some '/' := by
    cases hw with
    | plain hc =>
      rintro h
      simp [Option.some.inj h] at hc
    | _ => simp
  rw [hsplit, effect_slash, slash_other (by rwa [hhead]) (by rwa [hhead]), hlast, if_pos rfl, regexRest?_eq hw hflags hrest]
  simp only [List.length_append, List.length_cons]
  congr 1
  omega

theorem effect_line (hw : '\n' ∉ w) (hrest : ∀ c ∈ rest.head?, c = '\n') :
    effect text before '/' ('/' :: w ++ rest) index stack last = .next stack last ('/' :: w).length := by
  rw [effect_slash, List.cons_append, slash, lineRest_eq hw hrest, List.length_cons]

theorem effect_block (hw : ¬ ['*', '/'] <:+: w) (rest : List Char) :
    effect text before '/' ('*' :: (w ++ ['*', '/']) ++ rest) index stack last =
      .next stack last ('*' :: (w ++ ['*', '/'])).length := by
  have hsplit : '*' :: (w ++ ['*', '/']) ++ rest = '*' :: (w ++ '*' :: '/' :: rest) := by simp
  rw [hsplit, effect_slash, slash, blockRest?_eq hw]
  simp only [List.length_append, List.length_cons, List.length_nil]
  congr 1
  omega

end step

/-! Brackets and the stack. -/

/-- None of the openers is that of an expression in a template. -/
def Plain (st : Stack) : Prop := ∀ e ∈ st, e.1 ≠ .expression

section stack

variable {text r : List Char} {before : Option Char} {c : Char} {index : Nat} {own own' : Stack} {last : Last}
  {bs : List (Char × Nat)}

theorem topIsExpression_cons {o : Opener} (ho : o ≠ .expression) (openedAt : Nat) (st : Stack) :
    topIsExpression ((o, openedAt) :: st) = false := by
  cases o <;> first | rfl | exact absurd rfl ho

theorem IsBracket.not_blank (hc : IsBracket c) : isBlank c = false ∧ startsWord c = false ∧ c ∉ ['/', '"', '\'', '\x60'] := by
  rcases hc with ⟨o, h⟩ | ⟨o, h⟩
  · rcases opener?_eq_some_iff.mp h with ⟨rfl, -⟩ | ⟨rfl, -⟩ | ⟨rfl, -⟩ <;> decide
  · rcases closes?_eq_some_iff.mp h with ⟨rfl, -⟩ | ⟨rfl, -⟩ | ⟨rfl, -⟩ <;> decide

theorem effect_bracket (hc : IsBracket c) (htop : c = '\x7d' → topIsExpression own = false) :
    effect text before c r index own last = symbol text c index own :=
  effect_symbol hc.not_blank.1 hc.not_blank.2.1 hc.not_blank.2.2 htop

/-- A bracket that fits does so whatever lies below. -/
theorem effect_of_settle (hc : IsBracket c) (hown : Plain own) (h : settle text [(c, index)] own = .ok own') (below : Stack) :
    effect text before c r index (own ++ below) last = .next (own' ++ below) (afterSymbol c) 0 := by
  rcases settle_ok_cases hc h with ⟨o, ho, hsettle⟩ | ⟨o, openedAt, own, hclose, rfl, hsettle⟩
  · obtain rfl := Except.ok.inj hsettle
    have htop : c = '\x7d' → topIsExpression (own ++ below) = false := by
      rintro rfl
      cases ho
    rw [effect_bracket hc htop, symbol_opener ho, List.cons_append]
  · obtain rfl := Except.ok.inj hsettle
    have htop : topIsExpression ((o, openedAt) :: (own ++ below)) = false :=
      topIsExpression_cons (hown _ List.mem_cons_self) openedAt _
    rw [List.cons_append, effect_bracket hc fun _ => htop, symbol_match hclose]

theorem effect_of_settle_error {f : Imbalance} (hc : IsBracket c) (hown : Plain own)
    (h : settle text [(c, index)] own = .error f) : effect text before c r index own last = .fault f := by
  have htop : topIsExpression own = false := by
    cases own with
    | nil => rfl
    | cons e own => exact topIsExpression_cons (hown _ List.mem_cons_self) _ _
  rw [effect_bracket hc fun _ => htop]
  rw [settle] at h
  split at h
  case h_1 g hsymbol =>
    cases h
    exact hsymbol
  case h_2 => cases h

theorem plain_of_settle (hbs : ∀ b ∈ bs, IsBracket b.1) (hown : Plain own) (h : settle text bs own = .ok own') :
    Plain own' := by
  induction bs generalizing own with
  | nil =>
    obtain rfl := Except.ok.inj h
    exact hown
  | cons b bs ih =>
    obtain ⟨hc, hbs⟩ := List.forall_mem_cons.mp hbs
    rcases settle_ok_cases hc h with ⟨o, ho, hsettle⟩ | ⟨o, openedAt, own, -, rfl, hsettle⟩
    · exact ih hbs (List.forall_mem_cons.mpr ⟨ne_expression_of_opener ho, hown⟩) hsettle
    · exact ih hbs (List.forall_mem_cons.mp hown).2 hsettle

end stack

/-! The scan. -/

section scan

variable {text rest : List Char} {before : Option Char} {index openedAt : Nat} {own own' stack below : Stack} {last : Last}

/-- A token other than a template is skipped as a whole, and a bracket does to the stack what it should. -/
theorem scan_simple {t : Token} (ht : t.Fits before last rest.head?) (hsimple : ∀ u, t ≠ .template u) (hown : Plain own)
    (hsettle : settle text (t.brackets.map (·, index)) own = .ok own') (below : Stack) :
    scanFrom text before index (own ++ below) last (t.text ++ rest) =
      scanFrom text t.text.getLast? (index + t.text.length) (own' ++ below) (t.leaves last) rest := by
  cases t with
  | bracket c => exact scanFrom_next (effect_of_settle ht hown hsettle below)
  | blank c =>
    obtain rfl := Except.ok.inj hsettle
    exact scanFrom_next (effect_blank ht)
  | word c w =>
    obtain rfl := Except.ok.inj hsettle
    obtain ⟨hc, hw, hrest⟩ := ht
    exact scanFrom_next (effect_word hc hw hrest)
  | mark c =>
    obtain rfl := Except.ok.inj hsettle
    obtain ⟨hblank, hword, hbracket, hmarks⟩ := ht
    have hopener : opener? c = none := Option.eq_none_iff_forall_ne_some.mpr fun o ho => hbracket (.inl ⟨o, ho⟩)
    have hcloses : closes? c = none := Option.eq_none_iff_forall_ne_some.mpr fun o ho => hbracket (.inr ⟨o, ho⟩)
    have htop : c = '\x7d' → topIsExpression (own ++ below) = false := by
      rintro rfl
      cases hcloses
    refine scanFrom_next (w := []) ?_
    rw [effect_symbol hblank hword hmarks htop]
    exact symbol_mark hopener hcloses
  | division =>
    obtain rfl := Except.ok.inj hsettle
    obtain ⟨hlast, hslash, hstar⟩ := ht
    exact scanFrom_next (effect_division hlast hslash hstar)
  | string quote s =>
    obtain rfl := Except.ok.inj hsettle
    obtain ⟨hquote, hs⟩ := ht
    have hslash : quote ≠ '\\' := by rcases hquote with rfl | ⟨rfl, -⟩ <;> decide
    refine scanFrom_next (w := s ++ [quote]) ?_
    rw [effect_quote hquote, List.append_assoc, List.singleton_append, stringRest_eq hs hslash, List.length_append,
      Nat.zero_add]
    rfl
  | line s =>
    obtain rfl := Except.ok.inj hsettle
    exact scanFrom_next (effect_line ht.1 ht.2)
  | block s =>
    obtain rfl := Except.ok.inj hsettle
    exact scanFrom_next (effect_block ht rest)
  | regex s flags =>
    obtain rfl := Except.ok.inj hsettle
    obtain ⟨hlast, hs, hne, hstar, hflags, hrest⟩ := ht
    exact scanFrom_next (effect_regex hlast hs hne hstar hflags hrest)
  | template u => exact absurd rfl (hsimple u)

theorem template_last {s : List Char} (hs : TemplateText s) (rest : List Char) :
    template (s ++ ['\x60'] ++ rest) index openedAt below = .next below .value (s ++ ['\x60']).length := by
  rw [template, List.append_assoc, List.singleton_append, templateRest?_eq hs (.inl rfl), templateRest?,
    List.length_append, Nat.zero_add]
  rfl

theorem template_part {s : List Char} (hs : TemplateText s) (rest : List Char) :
    template (s ++ ['$', '\x7b'] ++ rest) index openedAt below =
      .next ((.expression, index + (s ++ ['$', '\x7b']).length - 1) :: below) (.symbol '\x7b')
        (s ++ ['$', '\x7b']).length := by
  rw [template, List.append_assoc, List.cons_append, List.singleton_append, templateRest?_eq hs (.inr rfl), templateRest?,
    List.length_append, Nat.zero_add]
  rfl

end scan

section scan

variable {text : List Char}

-- The stack of a text in a template lies on the opener of the expression, which its brackets never reach.
mutual

theorem scan_code : ∀ (s : Code) {rest : List Char} {before : Option Char} {index : Nat} {own own' : Stack} {last : Last},
    s.Fits before last rest.head? → Plain own → settle text (s.bracketsAt index) own = .ok own' → ∀ below : Stack,
      scanFrom text before index (own ++ below) last (s.text ++ rest) =
        scanFrom text (s.text.getLast?.or before) (index + s.text.length) (own' ++ below) (s.leaves last) rest
  | .nil, _, _, _, _, _, _, _, _, hsettle, _ => by
    obtain rfl := Except.ok.inj hsettle
    rfl
  | .cons t s, rest, before, index, own, own', last, hfits, hown, hsettle, below => by
    obtain ⟨ht, hs⟩ := hfits.cons
    rw [Code.bracketsAt, settle_append] at hsettle
    split at hsettle
    case h_1 => cases hsettle
    case h_2 mid hmid =>
      have hmid_plain : Plain mid := plain_of_settle (List.forall_mem_map.mpr ht.isBracket) hown hmid
      rw [Code.text, List.append_assoc, scan_token t ht hown hmid below, scan_code s hs hmid_plain hsettle below,
        List.getLast?_append, List.length_append, Nat.add_assoc, Code.leaves]
      obtain ⟨c, hc⟩ := t.exists_getLast?
      rw [hc, Option.or_assoc, Option.some_or]

theorem scan_token : ∀ (t : Token) {rest : List Char} {before : Option Char} {index : Nat} {own own' : Stack} {last : Last},
    t.Fits before last rest.head? → Plain own → settle text (t.brackets.map (·, index)) own = .ok own' → ∀ below : Stack,
      scanFrom text before index (own ++ below) last (t.text ++ rest) =
        scanFrom text t.text.getLast? (index + t.text.length) (own' ++ below) (t.leaves last) rest := by
  intro t rest before index own own' last ht hown hsettle below
  cases t with
  | template u =>
    obtain rfl := Except.ok.inj hsettle
    have hscan := scan_template u ht (effect_backtick : effect text before _ (u.text ++ rest) index (own ++ below) last = _)
    rw [Token.text, List.cons_append, hscan, List.length_cons, Nat.add_assoc, Nat.add_comm 1, Token.leaves,
      List.getLast?_cons, u.getLast?_text, Option.getD_some]
  | _ => exact scan_simple ht (by simp) hown hsettle below

theorem scan_template : ∀ (t : Template) {rest : List Char} {c : Char} {before : Option Char} {index openedAt : Nat}
    {stack below : Stack} {last : Last}, t.Fits →
      effect text before c (t.text ++ rest) index stack last = template (t.text ++ rest) index openedAt below →
      scanFrom text before index stack last (c :: (t.text ++ rest)) =
        scanFrom text (some '\x60') (index + 1 + t.text.length) below .value rest
  | .last s, rest, c, before, index, openedAt, stack, below, last, hs, heffect => by
    rw [Template.text] at heffect ⊢
    rw [template_last hs] at heffect
    have hstep := scanFrom_next heffect
    rw [List.cons_append] at hstep
    rw [hstep, List.length_cons, Nat.add_assoc, Nat.add_comm 1, ← List.cons_append, List.getLast?_concat]
  | .part s inner t, rest, c, before, index, openedAt, stack, below, last, hfits, heffect => by
    obtain ⟨hs, hinner, hnested, ht⟩ := hfits
    have htext : (Template.part s inner t).text ++ rest =
        s ++ ['$', '\x7b'] ++ (inner.text ++ ('\x7d' :: (t.text ++ rest))) := by
      simp [Template.text]
    rw [htext] at heffect ⊢
    rw [template_part hs] at heffect
    have hstep := scanFrom_next heffect
    rw [List.cons_append] at hstep
    have hlast : (c :: (s ++ ['$', '\x7b'])).getLast? = some '\x7b' := by simp [List.getLast?_cons]
    have hsettle : settle text (inner.bracketsAt (index + (c :: (s ++ ['$', '\x7b'])).length)) [] = .ok [] :=
      settle_of_nested (by rwa [inner.map_bracketsAt]) []
    have hplain : Plain [] := fun _ h => absurd h List.not_mem_nil
    rw [hstep, hlast, ← List.nil_append (_ :: below), scan_code inner hinner hplain hsettle, List.nil_append,
      scan_template t ht effect_closing]
    congr 1
    simp only [Template.text, List.length_append, List.length_cons, List.length_nil]
    omega

end

/-- The first bracket that does not fit ends the scan. -/
theorem scan_code_fault {f : Imbalance} :
    ∀ (s : Code) {rest : List Char} {before : Option Char} {index : Nat} {own : Stack} {last : Last},
      s.Fits before last rest.head? → Plain own → settle text (s.bracketsAt index) own = .error f →
        scanFrom text before index own last (s.text ++ rest) = some f
  | .nil, _, _, _, _, _, _, _, hsettle => by cases hsettle
  | .cons t s, rest, before, index, own, last, hfits, hown, hsettle => by
    obtain ⟨ht, hs⟩ := hfits.cons
    rw [Code.bracketsAt, settle_append] at hsettle
    split at hsettle
    case h_1 g hg =>
      obtain rfl := Except.error.inj hsettle
      cases t with
      | bracket c => exact scanFrom_fault (effect_of_settle_error ht hown hg)
      | _ => cases hg
    case h_2 mid hmid =>
      have hmid_plain : Plain mid := plain_of_settle (List.forall_mem_map.mpr ht.isBracket) hown hmid
      have hscan := scan_token t ht hown hmid []
      rw [List.append_nil, List.append_nil] at hscan
      rw [Code.text, List.append_assoc, hscan]
      exact scan_code_fault s hs hmid_plain hsettle

end scan

/-- What is reported for a source text is what its brackets say, and nothing else. -/
theorem firstImbalance?_code {s : Code} (hs : s.Fits none .start none) :
    firstImbalance? s.text = verdict s.text (s.bracketsAt 0) := by
  have hfits : s.Fits none .start ([] : List Char).head? := hs
  have hplain : Plain [] := fun _ h => absurd h List.not_mem_nil
  rw [firstImbalance?, verdict, ← List.append_nil s.text]
  split
  case h_1 f hf => exact scan_code_fault s hfits hplain hf
  case h_2 st hst =>
    rw [← List.append_nil ([] : Stack), scan_code s hfits hplain hst, scanFrom.eq_def]
    exact congrArg unclosed? (List.append_nil st)

end QualityGate.Scan.Brackets
