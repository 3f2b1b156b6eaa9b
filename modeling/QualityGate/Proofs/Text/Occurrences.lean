import Mathlib
import QualityGate.Proofs.Text.Matching
import QualityGate.Proofs.Text.Utf8

/-! What stands in a text, and how often. A word has no part in line ends when they are unified, and one of ASCII
characters stands in the bytes of a text as it stands in the text. How often something stands in a text is counted over
the tails of the text, at the places where it starts: a search for all matches finds each of them where no match goes over
another one, and no line has more than the text. -/

namespace QualityGate.Text

theorem contains_iff (word s : List Char) : contains word s = true ↔ word <:+: s := by
  induction s with
  | nil => simp [contains]
  | cons c s ih => rw [contains, Bool.or_eq_true, ih, List.infix_cons_iff, List.isPrefixOf_iff_prefix]

/-! Line ends. -/

theorem unifyNewlines_return_feed (s : List Char) : unifyNewlines ('\r' :: '\n' :: s) = '\n' :: unifyNewlines s := by
  rw [unifyNewlines, unifyNewlines.go, unifyNewlines_go_eq, List.reverse_append, ← unifyNewlines]
  rfl

theorem unifyNewlines_return_other {s : List Char} (h : ∀ r, s ≠ '\n' :: r) :
    unifyNewlines ('\r' :: s) = '\n' :: unifyNewlines s := by
  rw [unifyNewlines, unifyNewlines.go, unifyNewlines_go_eq, List.reverse_append, ← unifyNewlines]
  · rfl
  · exact h

theorem unifyNewlines_return (s : List Char) :
    ∃ r, r <:+ s ∧ unifyNewlines ('\r' :: s) = '\n' :: unifyNewlines r := by
  by_cases h : ∃ r, s = '\n' :: r
  · obtain ⟨r, rfl⟩ := h
    exact ⟨r, List.suffix_cons '\n' r, unifyNewlines_return_feed r⟩
  · exact ⟨s, List.suffix_rfl, unifyNewlines_return_other fun r hr => h ⟨r, hr⟩⟩

theorem starts_of_unified {word s : List Char} (hword : '\n' ∉ word) (h : word <+: unifyNewlines s) : word <+: s := by
  induction word generalizing s with
  | nil => exact List.nil_prefix
  | cons c word ih =>
    rw [List.mem_cons, not_or] at hword
    cases s with
    | nil => simp [unifyNewlines, unifyNewlines.go] at h
    | cons d s =>
      by_cases hd : d = '\r'
      · obtain ⟨r, -, hr⟩ := unifyNewlines_return s
        rw [hd, hr, List.cons_prefix_cons] at h
        exact absurd h.1.symm hword.1
      · rw [unifyNewlines_cons hd, List.cons_prefix_cons] at h
        exact List.cons_prefix_cons.mpr ⟨h.1, ih hword.2 h.2⟩

theorem contained_of_unified {word s : List Char} (hword : '\n' ∉ word) (h : word <:+: unifyNewlines s) :
    word <:+: s := by
  match s with
  | [] => simpa [unifyNewlines, unifyNewlines.go] using h
  | d :: s =>
    by_cases hd : d = '\r'
    · obtain ⟨r, hsuffix, hr⟩ := unifyNewlines_return s
      have hlength := hsuffix.length_le
      rw [hd, hr, List.infix_cons_iff] at h
      rcases h with hstart | hrest
      · cases word with
        | nil => exact List.nil_infix
        | cons c word =>
          rw [List.cons_prefix_cons] at hstart
          exact absurd (by simp [hstart.1]) hword
      · exact List.infix_cons ((contained_of_unified hword hrest).trans hsuffix.isInfix)
    · rw [unifyNewlines_cons hd, List.infix_cons_iff, ← unifyNewlines_cons hd] at h
      rcases h with hstart | hrest
      · exact (starts_of_unified hword hstart).isInfix
      · exact List.infix_cons (contained_of_unified hword hrest)
termination_by s.length

/-! Bytes. -/

namespace Utf8

theorem toNat_ofNat_of_valid {n : Nat} (h : n.isValidChar) : (Char.ofNat n).toNat = n := by
  rw [Char.ofNat, dif_pos h]
  rfl

theorem bounds_of_secondFits {first second : UInt8} (h : secondFits first second = true) :
    (0x80 ≤ second.toNat ∧ second.toNat < 0xc0) ∧ (first.toNat = 0xe0 → 0xa0 ≤ second.toNat) ∧
      (first.toNat = 0xed → second.toNat < 0xa0) ∧ (first.toNat = 0xf0 → 0x90 ≤ second.toNat) ∧
      (first.toNat = 0xf4 → second.toNat < 0x90) := by
  simp only [secondFits, isContinuation, beq_iff_eq, ← UInt8.toNat_inj, UInt8.le_iff_toNat_le,
    UInt8.lt_iff_toNat_lt, UInt8.reduceToNat] at h
  split_ifs at h <;> simp only [Bool.and_eq_true, decide_eq_true_eq] at h <;> omega

/-- A character that is written in several bytes is none of ASCII. -/
theorem continued_ge {first second : UInt8} {tail : List UInt8} (hfirst : 0xc2 ≤ first.toNat ∧ first.toNat ≤ 0xf4)
    (hsecond : secondFits first second = true) (htail : ∀ b ∈ tail, isContinuation b = true)
    (hlength : continuationLength first = tail.length + 1) :
    128 ≤ (Char.ofNat ((second :: tail).foldl (fun v b => v * 64 + (b.toNat - 0x80)) (leadingBits first))).toNat := by
  obtain ⟨hrange, he0, hed, hf0, hf4⟩ := bounds_of_secondFits hsecond
  rw [continuationLength_eq] at hlength
  rw [leadingBits_eq]
  by_cases htwo : first.toNat < 0xe0
  · rw [if_pos htwo] at hlength ⊢
    obtain rfl := List.length_eq_zero_iff.mp (show tail.length = 0 by omega)
    simp only [List.foldl]
    rw [toNat_ofNat_of_valid (.inl (by omega))]
    omega
  rw [if_neg htwo] at hlength ⊢
  by_cases hthree : first.toNat < 0xf0
  · rw [if_pos hthree] at hlength ⊢
    obtain ⟨third, rfl⟩ := List.length_eq_one_iff.mp (show tail.length = 1 by omega)
    have hthird := isContinuation_iff.mp (htail third (by simp))
    simp only [List.foldl]
    rw [toNat_ofNat_of_valid]
    · omega
    · by_cases hsurrogates : first.toNat ≤ 0xed
      · exact .inl (by omega)
      · exact .inr (by omega)
  · rw [if_neg hthree] at hlength ⊢
    obtain ⟨third, fourth, rfl⟩ := List.length_eq_two.mp (show tail.length = 2 by omega)
    have hthird := isContinuation_iff.mp (htail third (by simp))
    have hfourth := isContinuation_iff.mp (htail fourth (by simp))
    simp only [List.foldl]
    rw [toNat_ofNat_of_valid (.inr (by omega))]
    omega

/-- What the decoder takes for a character of ASCII is its one byte. -/
theorem head_ascii {b : UInt8} {r : List UInt8} {c : Char} {n : Nat} (h : head b r = .char c n)
    (hc : c.toNat < 128) : b.toNat = c.toNat ∧ n = 1 := by
  rw [head] at h
  by_cases hascii : b < 0x80
  · rw [if_pos hascii] at h
    obtain ⟨rfl, rfl⟩ := Head.char.inj h
    have hb : b.toNat < 128 := by simpa [UInt8.lt_iff_toNat_lt] using hascii
    exact ⟨(toNat_ofNat_of_valid (.inl (by omega))).symm, rfl⟩
  rw [if_neg hascii] at h
  by_cases hstart : (b < 0xc2 || 0xf4 < b) = true
  · rw [if_pos hstart] at h
    cases h
  rw [if_neg hstart] at h
  dsimp only at h
  split at h
  case isFalse => split at h <;> cases h
  case isTrue hfound =>
    exfalso
    obtain ⟨rfl, -⟩ := Head.char.inj h
    have hfirst : 0xc2 ≤ b.toNat ∧ b.toNat ≤ 0xf4 := by
      simpa [UInt8.lt_iff_toNat_lt, not_lt] using hstart
    have hpos : 0 < continuationLength b := by
      rw [continuationLength_eq]
      split <;> [simp; split <;> simp]
    cases r with
    | nil => simp [continuation] at hfound; omega
    | cons second r =>
      by_cases hsecond : secondFits b second = true
      · rw [continuation, if_pos hsecond] at hc hfound
        have htail : ∀ x ∈ (r.take (continuationLength b - 1)).takeWhile isContinuation, isContinuation x = true :=
          fun x hx => List.mem_takeWhile_imp hx
        have hge := continued_ge hfirst hsecond htail (by simpa using (beq_iff_eq.mp hfound).symm)
        omega
      · simp [continuation, hsecond] at hfound
        omega

def asciiBytes (word : List Char) : List UInt8 := word.map fun c => UInt8.ofNat c.toNat

/-- Words of ASCII that `cs` begins with or holds are the same in the bytes. -/
structure Shows (cs : List Char) (bytes : List UInt8) : Prop where
  starts {word : List Char} (hword : ∀ c ∈ word, c.toNat < 128) (h : word <+: cs) : asciiBytes word <+: bytes
  contained {word : List Char} (hword : ∀ c ∈ word, c.toNat < 128) (h : word <:+: cs) : asciiBytes word <:+: bytes

theorem shows_nil (bytes : List UInt8) : Shows [] bytes where
  starts _ h := by simp [List.prefix_nil.mp h, asciiBytes]
  contained _ h := by simp [List.eq_nil_of_infix_nil h, asciiBytes]

theorem Shows.cons {b : UInt8} {r : List UInt8} {c : Char} {n : Nat} (hhead : head b r = .char c n) {cs : List Char}
    (h : Shows cs (r.drop (n - 1))) : Shows (c :: cs) (b :: r) := by
  have hstarts {word : List Char} (hword : ∀ d ∈ word, d.toNat < 128) (hstart : word <+: c :: cs) :
      asciiBytes word <+: b :: r := by
    cases word with
    | nil => exact List.nil_prefix
    | cons d word =>
      obtain ⟨rfl, hrest⟩ := List.cons_prefix_cons.mp hstart
      obtain ⟨hd, hword⟩ := List.forall_mem_cons.mp hword
      obtain ⟨hb, rfl⟩ := head_ascii hhead hd
      have hbyte : UInt8.ofNat d.toNat = b := by rw [← hb, UInt8.ofNat_toNat]
      exact List.cons_prefix_cons.mpr ⟨hbyte, h.starts hword hrest⟩
  refine ⟨hstarts, fun hword hwithin => ?_⟩
  rcases List.infix_cons_iff.mp hwithin with hstart | hrest
  · exact (hstarts hword hstart).isInfix
  · exact List.infix_cons ((h.contained hword hrest).trans (List.drop_suffix _ _).isInfix)

theorem shows_of_decodeFrom {index : Nat} {bytes : List UInt8} {acc cs : List Char}
    (h : decodeFrom index bytes acc = .ok cs) : ∃ rest, cs = acc.reverse ++ rest ∧ Shows rest bytes := by
  fun_induction decodeFrom index bytes acc with
  | case1 index acc =>
    obtain rfl := Except.ok.inj h
    exact ⟨[], (List.append_nil _).symm, shows_nil []⟩
  | case2 index acc b r c n hhead ih =>
    obtain ⟨rest, rfl, hrest⟩ := ih h
    exact ⟨c :: rest, by simp, hrest.cons hhead⟩
  | case3 => cases h

theorem contained_of_decode {bytes : List UInt8} {cs word : List Char} (h : decode bytes = .ok cs)
    (hword : ∀ c ∈ word, c.toNat < 128) (hcontained : word <:+: cs) : asciiBytes word <:+: bytes := by
  obtain ⟨rest, rfl, hrest⟩ := shows_of_decodeFrom h
  exact hrest.contained hword hcontained

end Utf8

/-! Matches. -/

namespace Pattern

variable {a : Pattern} {starts : List Char → Bool}

/-- The pattern is found wherever something starts, and the match goes over no other start. -/
structure Finds (a : Pattern) (starts : List Char → Bool) : Prop where
  nil : starts [] = false
  found {t : List Char} (h : starts t = true) (before : Option Char) (pos : Nat) :
    ∃ m, a.foundAt? ⟨before, pos, t, []⟩ = some m
  apart {before : Option Char} {pos : Nat} {t : List Char} {m : Found}
    (h : a.foundAt? ⟨before, pos, t, []⟩ = some m) {u v : List Char} (ht : t = u ++ v) (hu : u ≠ [])
    (hstop : pos + u.length < m.stop) : starts v = false

theorem Finds.countP_tails_le (h : a.Finds starts) (t : List Char) : t.tails.countP starts ≤ (a.findAll t).length := by
  -- Nothing starts before the search is free to look.
  suffices hgo : ∀ before pos free acc, (∀ u v, t = u ++ v → pos + u.length < free → starts v = false) →
      acc.length + t.tails.countP starts ≤ (findAll.go a before pos free t acc).length by
    have hall := hgo none 0 0 [] fun u v _ hlt => absurd hlt (Nat.not_lt_zero _)
    rwa [List.length_nil, Nat.zero_add, ← List.length_reverse] at hall
  induction t with
  | nil =>
    intro before pos free acc _
    simp [findAll.go, h.nil]
  | cons c t ih =>
    intro before pos free acc hfree
    have hnext {stop : Nat} (hstop : ∀ u v, c :: t = u ++ v → u ≠ [] → pos + u.length < stop → starts v = false) :
        ∀ u v, t = u ++ v → pos + 1 + u.length < stop → starts v = false := by
      rintro u v rfl hlt
      exact hstop (c :: u) v rfl (List.cons_ne_nil c u) (by rw [List.length_cons]; omega)
    rw [List.tails_cons, List.countP_cons, findAll.go]
    by_cases hpos : pos < free
    · have hhere : starts (c :: t) = false := hfree [] (c :: t) rfl hpos
      have hrest := ih (some c) (pos + 1) free acc (hnext fun u v huv _ => hfree u v huv)
      rw [if_pos hpos, hhere]
      simpa using hrest
    · rw [if_neg hpos]
      cases hfound : a.foundAt? ⟨before, pos, c :: t, []⟩ with
      | some m =>
        have hrest := ih (some c) (pos + 1) m.stop (m :: acc) (hnext fun u v huv hu => h.apart hfound huv hu)
        rw [List.length_cons] at hrest
        dsimp only
        split <;> omega
      | none =>
        have hhere : starts (c :: t) = false := by
          by_contra hstarts
          obtain ⟨m, hm⟩ := h.found (by simpa using hstarts) before pos
          cases hfound.symm.trans hm
        have hrest := ih (some c) (pos + 1) free acc (hnext fun u v huv _ => hfree u v huv)
        rw [hhere]
        simpa using hrest

end Pattern

/-! Lines. -/

theorem tails_sublist_of_suffix {s t : List Char} (h : s <:+ t) : s.tails.Sublist t.tails := by
  obtain ⟨u, rfl⟩ := h
  induction u with
  | nil => exact List.Sublist.refl _
  | cons c u ih =>
    rw [List.cons_append, List.tails_cons]
    exact ih.cons _

theorem prefix_of_foldr_consToLines {s l : List Char} {ls : List (List Char)}
    (h : s.foldr consToLines [] = l :: ls) : l <+: s := by
  induction s generalizing l ls with
  | nil => cases h
  | cons c s ih =>
    rw [List.foldr_cons, consToLines.eq_def] at h
    split at h
    case isTrue =>
      obtain ⟨rfl, -⟩ := List.cons.inj h
      exact List.nil_prefix
    case isFalse =>
      split at h
      case h_1 =>
        obtain ⟨rfl, -⟩ := List.cons.inj h
        exact List.cons_prefix_cons.mpr ⟨rfl, List.nil_prefix⟩
      case h_2 first rest hlines =>
        obtain ⟨rfl, -⟩ := List.cons.inj h
        exact List.cons_prefix_cons.mpr ⟨rfl, ih hlines⟩

/-- What starts in a text starts in one that goes on, and it starts with no line end. -/
structure WithinLine (starts : List Char → Bool) : Prop where
  nil : starts [] = false
  mono {s t : List Char} (h : s <+: t) (hs : starts s = true) : starts t = true
  unified {s : List Char} (h : starts (unifyNewlines s) = true) : starts s = true

namespace WithinLine

variable {starts : List Char → Bool}

theorem countP_unified_le (h : WithinLine starts) (s : List Char) :
    (unifyNewlines s).tails.countP starts ≤ s.tails.countP starts := by
  match s with
  | [] => simp [unifyNewlines, unifyNewlines.go]
  | d :: s =>
    have hhere : (if starts (unifyNewlines (d :: s)) = true then 1 else 0) ≤ if starts (d :: s) = true then 1 else 0 := by
      by_cases hstarts : starts (unifyNewlines (d :: s)) = true
      · rw [if_pos (h.unified hstarts)]
        split <;> omega
      · rw [if_neg hstarts]
        omega
    by_cases hd : d = '\r'
    · obtain ⟨r, hsuffix, hr⟩ := unifyNewlines_return s
      have hlength := hsuffix.length_le
      have hrest := h.countP_unified_le r
      have hsublist := (tails_sublist_of_suffix hsuffix).countP_le (p := starts)
      rw [hd, hr] at hhere
      rw [hd, hr, List.tails_cons, List.tails_cons, List.countP_cons, List.countP_cons]
      omega
    · have hrest := h.countP_unified_le s
      rw [unifyNewlines_cons hd] at hhere
      rw [unifyNewlines_cons hd, List.tails_cons, List.tails_cons, List.countP_cons, List.countP_cons]
      omega
termination_by s.length

/-- No two lines have their start in common, so that there are no more lines with one than starts. -/
theorem countP_lines_le (h : WithinLine starts) (t : List Char) :
    (splitLines t).countP (fun l => l.tails.any starts) ≤ t.tails.countP starts := by
  refine le_trans ?_ (h.countP_unified_le t)
  rw [splitLines]
  induction unifyNewlines t with
  | nil => simp
  | cons c s ih =>
    rw [List.foldr_cons, consToLines.eq_def, List.tails_cons, List.countP_cons]
    split
    case isTrue =>
      rw [List.countP_cons_of_neg (by simp [h.nil])]
      omega
    case isFalse =>
      cases hlines : s.foldr consToLines [] with
      | nil =>
        by_cases hstarts : starts [c] = true
        · rw [if_pos (h.mono (by simp) hstarts)]
          exact List.countP_le_length.trans (by simp)
        · simp [h.nil, hstarts]
      | cons first rest =>
        rw [hlines, List.countP_cons] at ih
        rw [List.countP_cons]
        -- A new character makes a start of the first line at most, which is one of the text as well.
        by_cases hstarts : starts (c :: first) = true
        · have hprefix : c :: first <+: c :: s := List.cons_prefix_cons.mpr ⟨rfl, prefix_of_foldr_consToLines hlines⟩
          rw [if_pos (h.mono hprefix hstarts)]
          split <;> omega
        · have hsame : (c :: first).tails.any starts = first.tails.any starts := by simp [hstarts]
          rw [hsame]
          omega

end WithinLine

end QualityGate.Text
