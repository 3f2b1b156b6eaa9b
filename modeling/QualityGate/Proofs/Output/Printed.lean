import Mathlib
import QualityGate.Output.Lines
import QualityGate.Proofs.Outcome
import QualityGate.Proofs.Text.Matching
import QualityGate.Proofs.Text.Numeral

/-! What tools print, read again: lines of plain text, numbers in digits, and runs
of one class of characters after another. -/

namespace QualityGate

open Text

theorem Failure.wholeNumber_digits {ds : List Char} (h : ∀ c ∈ ds, isDecimal c = true) (hne : ds ≠ []) :
    Failure.wholeNumber 10 ds = if Numeral.mostDigits < ds.length then .error (.badValue (Numeral.tooLongText ds.length))
      else .ok (Numeral.valueIn 10 (ds.map Numeral.asciiDigit)) := by
  rw [Failure.wholeNumber, Numeral.whole_digits h hne]
  split
  · simp only [Except.mapError, ofNumeral]
  · simp only [Except.mapError]

namespace Output

/-! Lines. -/

/-- Text on one line, without escape characters. -/
def Plain (t : List Char) : Prop := ∀ c ∈ t, isLineBreak c = false ∧ c ≠ '\x1b'

theorem plain_iff {t : List Char} : Plain t ↔ t.all (fun c => !isLineBreak c && c != '\x1b') = true := by
  simp [Plain]

instance (t : List Char) : Decidable (Plain t) := decidable_of_iff _ plain_iff.symm

theorem Plain.append {t u : List Char} (ht : Plain t) (hu : Plain u) : Plain (t ++ u) :=
  List.forall_mem_append.mpr ⟨ht, hu⟩

theorem plain_of_isDecimal {t : List Char} (h : ∀ c ∈ t, isDecimal c = true) : Plain t := by
  intro c hc
  refine ⟨isLineBreak_of_isBlank (isBlank_of_isWordChar (isWordChar_of_isDecimal (h c hc))), ?_⟩
  rintro rfl
  exact absurd (h _ hc) (by decide)

theorem Plain.newline_notMem {t : List Char} (h : Plain t) : '\n' ∉ t := newline_notMem_of_line fun c hc => (h c hc).1

theorem anyChar_of_newline_notMem {t : List Char} (h : '\n' ∉ t) : ∀ c ∈ t, Pattern.anyChar c = true := by
  intro c hc
  rw [Pattern.anyChar, bne_iff_ne]
  rintro rfl
  exact h hc

/-- Nothing is left at the end of a text of one line. -/
theorem eq_nil_of_atEnd {t w r : List Char} (ht : '\n' ∉ t) (hrest : t = w ++ r) (hr : r = [] ∨ r = ['\n']) : r = [] := by
  refine hr.resolve_right fun hr => ht ?_
  rw [hrest, hr]
  exact List.mem_append_right w List.mem_cons_self

theorem stripEscapes_go_of_plain {s : List Char} (h : '\x1b' ∉ s) (acc : List Char) :
    stripEscapes.go s acc = s.reverse ++ acc := by
  induction s generalizing acc with
  | nil => rw [stripEscapes.go.eq_def, List.reverse_nil, List.nil_append]
  | cons c s ih =>
    obtain ⟨hc, hs⟩ := not_or.mp (mt List.mem_cons.mpr h)
    rw [stripEscapes.go, ih hs, List.reverse_cons, List.append_assoc, List.singleton_append]
    rintro r rfl
    exact absurd rfl hc

theorem stripEscapes_of_plain {s : List Char} (h : '\x1b' ∉ s) : stripEscapes s = s := by
  rw [stripEscapes, stripEscapes_go_of_plain h, List.append_nil, List.reverse_reverse]

theorem afterSequence?_append_newline (s : List Char) :
    afterSequence? (s ++ ['\n']) = (afterSequence? s).map (· ++ ['\n']) := by
  rw [afterSequence?, afterSequence?, List.dropWhile_append]
  cases h : s.dropWhile isParameter with
  | nil => rfl
  | cons c r =>
    rw [List.isEmpty_cons, if_neg Bool.false_ne_true, List.cons_append]
    dsimp only
    split <;> rfl

theorem stripEscapes_go_sequence {s r : List Char} (h : afterSequence? s = some r) (acc : List Char) :
    stripEscapes.go ('\x1b' :: '[' :: s) acc = stripEscapes.go r acc := by
  rw [stripEscapes.go]
  split
  case h_1 r' h' =>
    rw [h] at h'
    rw [Option.some.inj h']
  case h_2 h' =>
    rw [h] at h'
    cases h'

theorem stripEscapes_go_open {s : List Char} (h : afterSequence? s = none) (acc : List Char) :
    stripEscapes.go ('\x1b' :: '[' :: s) acc = stripEscapes.go ('[' :: s) ('\x1b' :: acc) := by
  rw [stripEscapes.go]
  split
  case h_1 r' h' =>
    rw [h] at h'
    cases h'
  case h_2 => rfl

/-- No escape sequence goes over the end of a line. -/
theorem stripEscapes_append_newline (s : List Char) : stripEscapes (s ++ ['\n']) = stripEscapes s ++ ['\n'] := by
  suffices hgo : ∀ acc, stripEscapes.go (s ++ ['\n']) acc = '\n' :: stripEscapes.go s acc by
    rw [stripEscapes, hgo, List.reverse_cons, ← stripEscapes]
  intro acc
  induction s, acc using stripEscapes.go.induct with
  | case1 acc =>
    rw [stripEscapes.go, List.nil_append, stripEscapes.go, stripEscapes.go]
    exact fun _ h => absurd h (by decide)
  | case2 acc s r h _ ih =>
    have happend : afterSequence? (s ++ ['\n']) = some (r ++ ['\n']) := by rw [afterSequence?_append_newline, h]; rfl
    rw [List.cons_append, List.cons_append, stripEscapes_go_sequence happend, ih, stripEscapes_go_sequence h]
  | case3 acc s h ih =>
    have happend : afterSequence? (s ++ ['\n']) = none := by rw [afterSequence?_append_newline, h]; rfl
    rw [List.cons_append, List.cons_append, stripEscapes_go_open happend, ← List.cons_append, ih, stripEscapes_go_open h]
  | case4 acc c s hc ih =>
    rw [List.cons_append, stripEscapes.go, ih, stripEscapes.go]
    · exact hc
    · intro r hescape hopen
      cases s with
      | nil => cases hopen
      | cons x s =>
        obtain ⟨rfl, -⟩ := List.cons.inj hopen
        exact hc s hescape rfl

theorem escape_notMem_unlines {ls : List (List Char)} (h : ∀ l ∈ ls, Plain l) : '\x1b' ∉ unlines ls := by
  intro hmem
  obtain ⟨l, hl, hc⟩ := List.mem_flatMap.mp hmem
  rcases List.mem_append.mp hc with hc | hc
  · exact (h l hl _ hc).2 rfl
  · simp at hc

theorem stripEscapes_unlines {ls : List (List Char)} (h : ∀ l ∈ ls, Plain l) : stripEscapes (unlines ls) = unlines ls :=
  stripEscapes_of_plain (escape_notMem_unlines h)

/-- Lines that were printed are read again, with one more for the empty error output. -/
theorem combinedLines_unlines {stdout : String} {ls : List (List Char)} (htext : stripEscapes stdout.toList = unlines ls)
    (h : ∀ l ∈ ls, ∀ c ∈ l, isLineBreak c = false) : combinedLines stdout "" = ls ++ [[]] := by
  have hlast : splitLines ['\n'] = [[]] := by decide
  change splitLines (stripEscapes (stdout.toList ++ ['\n'])) = _
  rw [stripEscapes_append_newline, htext, splitLines_unlines h, hlast]

/-! Numbers. -/

/-- Decimal digits, at least one. -/
def AreDigits (w : List Char) : Prop := w ≠ [] ∧ ∀ c ∈ w, isDecimal c = true

theorem areDigits_iff {w : List Char} : AreDigits w ↔ w ≠ [] ∧ w.all isDecimal = true := by
  simp [AreDigits]

instance (w : List Char) : Decidable (AreDigits w) := decidable_of_iff _ areDigits_iff.symm

theorem areDigits_toDigits (n : Nat) : AreDigits (Nat.toDigits 10 n) :=
  ⟨Nat.toDigits_ne_nil, fun _ => Numeral.isDecimal_of_mem_toDigits⟩

@[simp] theorem reads_digits {s : Cursor} {w r : List Char} {cs : List (String × List Char)} :
    Pattern.digits.Reads s w r cs ↔ AreDigits w ∧ cs = [] := by
  rw [Pattern.digits, Pattern.reads_many, AreDigits, Nat.one_le_iff_ne_zero, ne_eq, List.length_eq_zero_iff]

theorem numberOf_toDigits_iff {m : Found} {name : String} {n : Nat} (h : m.group? name = some (Nat.toDigits 10 n)) :
    numberOf m name = .ok n ↔ n < 10 ^ Numeral.mostDigits := by
  rw [numberOf, h]
  simp only [Failure.wholeNumber, Numeral.whole_toDigits]
  split
  case isTrue hmost =>
    refine iff_of_false nofun (by omega)
  case isFalse hmost => exact iff_of_true rfl (by omega)

/-! Numbers with too many digits. -/

section tooLong

variable {α : Type} {m : Found} {name : String} {e : Failure}

/-- The number in the group has too many digits, and that is the failure it ends in. -/
def TooLong (m : Found) (name : String) (e : Failure) : Prop :=
  ∃ ds, m.group? name = some ds ∧ Numeral.mostDigits < ds.length ∧ e = .badValue (Numeral.tooLongText ds.length)

/-- The group is absent, or has no more digits than can be read. -/
def Readable (m : Found) (name : String) : Prop := ∀ ds, m.group? name = some ds → ds.length ≤ Numeral.mostDigits

theorem readable_iff : Readable m name ↔ ∀ e, ¬ TooLong m name e := by
  constructor
  · rintro h e ⟨ds, hds, hlong, -⟩
    have hshort := h ds hds
    omega
  · intro h ds hds
    by_contra hlong
    exact h _ ⟨ds, hds, by omega, rfl⟩

theorem numberOf_eq_error_iff (hdigits : ∀ ds, m.group? name = some ds → AreDigits ds) :
    numberOf m name = .error e ↔ TooLong m name e := by
  unfold numberOf TooLong
  cases hds : m.group? name with
  | none => exact iff_of_false nofun (by simp)
  | some ds =>
    obtain ⟨hne, hall⟩ := hdigits ds hds
    dsimp only
    rw [Failure.wholeNumber_digits hall hne]
    by_cases hlong : Numeral.mostDigits < ds.length
    · rw [if_pos hlong]
      constructor
      · intro h
        exact ⟨ds, rfl, hlong, (Except.error.inj h).symm⟩
      · rintro ⟨ds', hds', -, rfl⟩
        rw [← Option.some.inj hds']
        rfl
    · rw [if_neg hlong]
      refine iff_of_false nofun ?_
      rintro ⟨ds', hds', hlong', -⟩
      exact hlong (Option.some.inj hds' ▸ hlong')

/-- The groups that say where something is are numbers. -/
def Placed (m : Found) : Prop := ∀ name ∈ ["line", "col"], ∀ ds, m.group? name = some ds → AreDigits ds

def IsPlace (name : String) (w : List Char) : Prop := name ∈ ["line", "col"] → AreDigits w

theorem captures_digits {name : String} : (Pattern.capture name Pattern.digits).CapturesAre IsPlace :=
  ⟨fun _ _ _ _ h _ => (reads_digits.mp h).1, trivial⟩

theorem captures_other {name : String} {a : Pattern} (hname : name ∉ ["line", "col"]) (ha : a.CapturesAre IsPlace) :
    (Pattern.capture name a).CapturesAre IsPlace :=
  ⟨fun _ _ _ _ _ h => absurd h hname, ha⟩

theorem placed_of_foundAt {a : Pattern} (ha : a.CapturesAre IsPlace) {before : Option Char} {pos : Nat}
    {rest : List Char} (hm : a.foundAt? ⟨before, pos, rest, []⟩ = some m) : Placed m := by
  intro name hname ds hds
  exact Pattern.group_of_foundAt ha hm hds hname

/-- The line has too many digits, or else the column. -/
def OutOfReach (m : Found) (e : Failure) : Prop := Outcome.FirstFails (TooLong m) ["line", "col"] e

theorem not_outOfReach_iff : (∀ e, ¬ OutOfReach m e) ↔ Readable m "line" ∧ Readable m "col" := by
  simp only [OutOfReach, Outcome.firstFails_cons, Outcome.firstFails_nil, and_false, or_false, readable_iff]
  constructor
  · intro h
    have hline : ∀ e, ¬ TooLong m "line" e := fun e he => h e (.inl he)
    exact ⟨hline, fun e he => h e (.inr ⟨hline, he⟩)⟩
  · rintro ⟨hline, hcolumn⟩ e (he | ⟨-, he⟩)
    · exact hline e he
    · exact hcolumn e he

theorem OutOfReach.tooLong (h : OutOfReach m e) :
    ∃ n, Numeral.mostDigits < n ∧ e = .badValue (Numeral.tooLongText n) := by
  obtain ⟨name, -, ds, -, hlong, he⟩ := h.exists_mem
  exact ⟨ds.length, hlong, he⟩

theorem place_eq_error_iff (hm : Placed m) {g : Nat → Nat → α} :
    (numberOf m "line" >>= fun line => numberOf m "col" >>= fun column => .ok (g line column) : Outcome α) = .error e ↔
      OutOfReach m e :=
  Outcome.bind_firstFails (fun _ => numberOf_eq_error_iff (hm "line" (by simp))) fun _ =>
    Outcome.bind_firstFails (fun _ => numberOf_eq_error_iff (hm "col" (by simp))) fun _ => Outcome.ok_firstFails

end tooLong

/-! Runs. -/

theorem head?_append_of_forall {q : Char → Prop} {w t : List Char} (hne : w ≠ []) (h : ∀ c ∈ w, q c) :
    ∀ c ∈ (w ++ t).head?, q c := by
  rw [List.head?_append_of_ne_nil w hne]
  exact fun c hc => h c (List.mem_of_mem_head? hc)

theorem isDecimal_of_isBlank {c : Char} (h : isBlank c = true) : isDecimal c = false := by
  by_contra hno
  rw [Numeral.isBlank_of_isDecimal (by simpa using hno)] at h
  cases h

end Output

end QualityGate
