import Mathlib
import QualityGate.Proofs.Lookup
import QualityGate.Proofs.Text.Numeral
import QualityGate.Schema.Reader

/-! What an accepted value says of what was read. Tables have distinct keys, and
are read back from whatever their keys and values are read back from. A whole
number is read back from its text unless that is too long. -/

namespace QualityGate

namespace Schema

namespace Checked

variable {α β : Type} {c : Checked α}

theorem pure_inj {a b : α} (h : (pure a : Checked α) = pure b) : a = b := Except.ok.inj h

theorem seq_eq_pure {f : Checked (α → β)} {b : β} (h : f <*> c = pure b) : ∃ g a, f = pure g ∧ c = pure a ∧ g a = b := by
  cases f with
  | error e => cases c <;> cases h
  | ok g =>
    cases c with
    | error e => cases h
    | ok a => exact ⟨g, a, rfl, rfl, pure_inj h⟩

theorem map_eq_pure {g : α → β} {b : β} (h : g <$> c = pure b) : ∃ a, c = pure a ∧ g a = b := by
  obtain ⟨_, a, hg, ha, hb⟩ := seq_eq_pure (f := pure g) h
  exact ⟨a, ha, pure_inj hg ▸ hb⟩

theorem under_eq_pure {place : Place} {a : α} (h : c.under place = pure a) : c = pure a := by
  cases c with
  | error e => cases h
  | ok a => exact h

theorem andThen_eq_pure {f : α → Checked β} {b : β} (h : c.andThen f = pure b) : ∃ a, c = pure a ∧ f a = pure b := by
  cases c with
  | error e => cases h
  | ok a => exact ⟨a, rfl, h⟩

theorem all_eq_pure {cs : List (Checked α)} {as : List α} (h : all cs = pure as) : cs = as.map pure := by
  induction cs generalizing as with
  | nil => rw [← pure_inj h, List.map_nil]
  | cons c cs ih =>
    obtain ⟨_, rest, hhead, hrest, rfl⟩ := seq_eq_pure h
    obtain ⟨a, ha, rfl⟩ := map_eq_pure hhead
    rw [ha, ih hrest, List.map_cons]

theorem all_map_pure (as : List α) : all (as.map pure) = pure as := by
  induction as with
  | nil => rfl
  | cons a as ih =>
    rw [List.map_cons, all, ih]
    rfl

end Checked

section fields

variable {α : Type} {entries : Entries} {name : String} {default a : α} {r : Reader α}

/-- A field that may be left out. -/
theorem optional_eq_pure (h : optional entries name default r = pure a) : a = default ∨ ∃ v, r v = pure a := by
  unfold optional at h
  split at h
  · exact .inr ⟨_, Checked.under_eq_pure h⟩
  · exact .inl (Checked.pure_inj h).symm

/-- A field that is there. -/
theorem read_of_optional {v : Input} (hget : entries.get? name = some v) (h : optional entries name default r = pure a) :
    r v = pure a := by
  simp only [optional, hget] at h
  exact Checked.under_eq_pure h

theorem record_eq_pure {r : Entries → Checked α} {v : Input} (h : record r v = pure a) :
    ∃ entries, v = .table entries ∧ r entries = pure a := by
  cases v with
  | table entries => exact ⟨entries, rfl, h⟩
  | _ => cases h

end fields

section tables

variable {κ α : Type} [BEq κ] [LawfulBEq κ] {key : Reader κ} {value : Reader α} {m : List (κ × α)}

theorem foldl_insertKey {acc : List (κ × α)} (h : ((acc ++ m).map Prod.fst).Nodup) :
    m.foldl (fun acc p => insertKey acc p.1 p.2) acc = acc ++ m := by
  induction m generalizing acc with
  | nil => simp
  | cons e m ih =>
    have hfresh : acc.any (·.1 == e.1) = false := by
      refine List.any_eq_false.mpr fun x hx hkey => ?_
      rw [List.map_append, List.map_cons, List.nodup_middle] at h
      exact (List.nodup_cons.mp h).1
        (List.mem_append_left _ (List.mem_map.mpr ⟨x, hx, beq_iff_eq.mp hkey⟩))
    have hinserted : insertKey acc e.1 e.2 = acc ++ [e] := by simp [insertKey, hfresh]
    rw [List.foldl_cons, hinserted, ih (by simpa using h), List.append_assoc, List.singleton_append]

/-- A table with distinct keys is read back from what its keys and values are read back from. -/
theorem mapOf_encoded {encode : κ × α → Input × Input} (hkeys : (m.map Prod.fst).Nodup)
    (hkey : ∀ e ∈ m, key (encode e).1 = pure e.1) (hvalue : ∀ e ∈ m, value (encode e).2 = pure e.2) :
    mapOf key value (.table (m.map encode)) = pure m := by
  have hread : (m.map encode).map (fun e => Prod.mk <$> ((key e.1).under (.name "[key]")).under e.1.asPlace <*>
      (value e.2).under e.1.asPlace) = m.map pure := by
    rw [List.map_map]
    refine List.map_congr_left fun e he => ?_
    rw [Function.comp, hkey e he, hvalue e he]
    rfl
  rw [mapOf, hread, Checked.all_map_pure]
  change pure (m.foldl (fun acc p => insertKey acc p.1 p.2) []) = pure m
  rw [foldl_insertKey (by simpa using hkeys), List.nil_append]

theorem nodup_foldl_insertKey (pairs acc : List (κ × α)) (h : (acc.map Prod.fst).Nodup) :
    ((pairs.foldl (fun acc p => insertKey acc p.1 p.2) acc).map Prod.fst).Nodup := by
  induction pairs generalizing acc with
  | nil => exact h
  | cons p pairs ih => exact ih _ (nodup_insertKey acc p.2 h)

/-- Whatever is read as a table has distinct keys. -/
theorem nodup_of_mapOf {v : Input} (h : mapOf key value v = pure m) : (m.map Prod.fst).Nodup := by
  cases v with
  | table entries =>
    obtain ⟨pairs, -, hpairs⟩ := Checked.andThen_eq_pure h
    rw [← Checked.pure_inj hpairs]
    exact nodup_foldl_insertKey pairs [] List.nodup_nil
  | _ => cases h

theorem nodup_of_optional {entries : Entries} {name : String} {default : List (κ × α)}
    (hdefault : (default.map Prod.fst).Nodup) (h : optional entries name default (mapOf key value) = pure m) :
    (m.map Prod.fst).Nodup := by
  obtain rfl | ⟨v, hv⟩ := optional_eq_pure h
  · exact hdefault
  · exact nodup_of_mapOf hv

omit [LawfulBEq κ] in
/-- The keys of a table that is read are themselves read. -/
theorem keys_of_mapOf {entries : List (Input × Input)} (h : mapOf key value (.table entries) = pure m) :
    ∀ e ∈ entries, ∃ k, key e.1 = pure k := by
  intro e he
  obtain ⟨pairs, hpairs, -⟩ := Checked.andThen_eq_pure h
  have hall := Checked.all_eq_pure hpairs
  obtain ⟨p, -, hp⟩ := List.mem_map.mp (hall ▸ List.mem_map_of_mem he)
  obtain ⟨_, _, hkey, -, -⟩ := Checked.seq_eq_pure hp.symm
  obtain ⟨k, hk, -⟩ := Checked.map_eq_pure hkey
  exact ⟨k, Checked.under_eq_pure (Checked.under_eq_pure hk)⟩

end tables

section integers

variable {cs : List Char}

theorem withoutLeadingZeros?_eq_self (h : cs = ['0'] ∨ ∃ c r, cs = c :: r ∧ c ≠ '0' ∧ (c = '-' ∨ Numeral.isAsciiDigit c = true)) :
    withoutLeadingZeros? cs = some cs := by
  rcases h with rfl | ⟨c, r, rfl, hzero, hc⟩
  · rfl
  · rw [withoutLeadingZeros?.eq_def]
    split
    · rename_i heq
      exact absurd (List.cons.inj heq).1 hzero
    · rename_i heq
      obtain ⟨rfl, rfl⟩ := List.cons.inj heq
      exact if_pos (by simpa using hc)
    · rename_i heq
      cases heq

theorem withoutZeroFraction_eq_self (h : '.' ∉ cs) : withoutZeroFraction cs = cs := by
  have hpoint : ∀ c ∈ cs, (c != '.') = true := fun c hc => bne_iff_ne.mpr fun he => h (he ▸ hc)
  rw [withoutZeroFraction, List.dropWhile_eq_nil_iff.mpr hpoint]

theorem withoutUnderscores?_eq_self (hne : cs ≠ []) (h : '_' ∉ cs) : withoutUnderscores? cs = some cs := by
  rw [withoutUnderscores?, Text.splitAtChar_eq_splitOn, List.splitOn_eq_singleton h]
  simp [hne]

theorem unsignedInteger?_toDigits (n : Nat) : unsignedInteger? (Nat.toDigits 10 n) = some n := by
  have hdigits : ∀ c ∈ Nat.toDigits 10 n, Json.isAsciiDigit c = true := fun c hc => Json.isAsciiDigit_of_mem_toDigits hc
  have hall : Numeral.areDigits (Nat.toDigits 10 n) = true := by
    simpa [Numeral.areDigits] using show ∀ c ∈ Nat.toDigits 10 n, Numeral.isAsciiDigit c = true from hdigits
  have hzero : ((Nat.toDigits 10 n).length == 1 || (Nat.toDigits 10 n).head? != some '0') = true := by
    rcases Json.toDigits_eq_zero_or n with hn | ⟨d, ds, hd, hne⟩
    · simp [hn]
    · simp [hd, hne]
  rw [unsignedInteger?, hall, hzero, Numeral.valueIn_eq_asciiNat hdigits, Json.asciiNat_toDigits]
  rfl

/-- The text of a whole number is read as that number unless it is too long. -/
theorem integerOfText_toString (n : Int) :
    integerOfText (toString n) =
      if Numeral.mostDigits < (toString n).length then Checked.fail .intParsingSize else pure n := by
  obtain ⟨cs, hcs⟩ : ∃ cs, cs = (toString n).toList := ⟨_, rfl⟩
  have hdigit : ∀ c ∈ Nat.toDigits 10 n.natAbs, Numeral.isAsciiDigit c = true :=
    fun c hc => Json.isAsciiDigit_of_mem_toDigits hc
  obtain ⟨d, ds, hds, hd⟩ := Json.toDigits_eq_cons n.natAbs
  have hsign : cs = Nat.toDigits 10 n.natAbs ∧ Numeral.withSign false n.natAbs = n ∨
      cs = '-' :: Nat.toDigits 10 n.natAbs ∧ Numeral.withSign true n.natAbs = n := by
    rw [hcs, Json.int_toList]
    split
    · exact .inl ⟨rfl, Int.natAbs_of_nonneg ‹_›⟩
    · exact .inr ⟨rfl, by simp only [Numeral.withSign, if_true]; omega⟩
  have hchar : ∀ c ∈ cs, c = '-' ∨ Numeral.isAsciiDigit c = true := by
    rcases hsign with ⟨rfl, -⟩ | ⟨rfl, -⟩
    · exact fun c hc => .inr (hdigit c hc)
    · exact List.forall_mem_cons.mpr ⟨.inl rfl, fun c hc => .inr (hdigit c hc)⟩
  have hspace : ∀ c ∈ cs, Text.isSpace c = false := by
    intro c hc
    rcases hchar c hc with rfl | hc
    · decide
    · simp [Text.isSpace, Numeral.isBlank_of_isDecimal (Numeral.isDecimal_of_isAsciiDigit hc).1]
  have hother (c : Char) (hminus : c ≠ '-') (hc : Numeral.isAsciiDigit c = false) : c ∉ cs := by
    intro hmem
    rcases hchar c hmem with h | h
    · exact hminus h
    · simp [hc] at h
  have hzeros : withoutLeadingZeros? cs = some cs := by
    refine withoutLeadingZeros?_eq_self ?_
    rcases hsign with ⟨rfl, -⟩ | ⟨rfl, -⟩
    · rcases Json.toDigits_eq_zero_or n.natAbs with hzero | ⟨c, r, hc, hne⟩
      · exact .inl hzero
      · exact .inr ⟨c, r, hc, hne, .inr (hdigit c (by simp [hc]))⟩
    · exact .inr ⟨'-', _, rfl, by decide, .inl rfl⟩
  have hne : cs ≠ [] := by rcases hsign with ⟨rfl, -⟩ | ⟨rfl, -⟩ <;> simp
  have hfraction := withoutZeroFraction_eq_self (hother '.' (by decide) (by decide))
  have hunderscores := withoutUnderscores?_eq_self hne (hother '_' (by decide) (by decide))
  have hlength : (cs.takeWhile fun c => c == '-' || Numeral.isAsciiDigit c) = cs :=
    List.takeWhile_eq_self_iff.mpr fun c hc => by simpa using hchar c hc
  have hplus : '+' ∉ cs := hother '+' (by decide) (by decide)
  rw [integerOfText, ← hcs, Numeral.trimSpaces_of_visible hspace]
  split
  case h_1 h =>
    split at h
    · exact absurd List.mem_cons_self hplus
    · exact absurd List.mem_cons_self hplus
    · rw [Option.bind_some, hzeros] at h
      cases h
  case h_2 cs' h =>
    split at h
    · exact absurd List.mem_cons_self hplus
    · exact absurd List.mem_cons_self hplus
    · rw [Option.bind_some, hzeros, Option.map_some, hfraction] at h
      cases h
      simp only [hunderscores, Option.getD_some, hlength, gt_iff_lt, ← String.length_toList, ← hcs]
      split
      · rfl
      · rcases hsign with ⟨hdigits, hvalue⟩ | ⟨rfl, hvalue⟩
        · have hminus : d ≠ '-' := by
            rintro rfl
            simp [Json.isAsciiDigit] at hd
          have hunsigned := unsignedInteger?_toDigits n.natAbs
          rw [hds] at hdigits hunsigned
          simp [hdigits, hminus, hunsigned, hvalue]
        · simp only [unsignedInteger?_toDigits, hvalue]

end integers

end Schema

end QualityGate
