import Mathlib
import QualityGate.Proofs.Json.RoundTrip

/-! No text holds a carriage return, so none is changed by a reader that makes
every line end a line feed. -/

namespace QualityGate.Json

theorem digitChar_ne_return {d : Nat} (h : d < 16) : d.digitChar ≠ '\r' := by
  interval_cases d <;> decide

theorem return_notMem_codeUnitEscape {n : Nat} (h : n < 65536) : '\r' ∉ codeUnitEscape n := by
  have h1 := digitChar_ne_return (d := n / 4096) (by omega)
  have h2 := digitChar_ne_return (d := n / 256 % 16) (by omega)
  have h3 := digitChar_ne_return (d := n / 16 % 16) (by omega)
  have h4 := digitChar_ne_return (d := n % 16) (by omega)
  simp [codeUnitEscape, hexDigits_four h, h1.symm, h2.symm, h3.symm, h4.symm]

theorem return_notMem_escapeChar (c : Char) : '\r' ∉ escapeChar c := by
  have hvalid : c.toNat < 0xd800 ∨ 0xdfff < c.toNat ∧ c.toNat < 0x110000 := c.valid
  unfold escapeChar
  split
  case h_8 _ _ _ hreturn _ _ _ =>
    dsimp only
    split
    · simpa using Ne.symm hreturn
    split
    case isTrue h => exact return_notMem_codeUnitEscape h
    case isFalse h =>
      rw [List.mem_append, not_or]
      exact ⟨return_notMem_codeUnitEscape (by omega), return_notMem_codeUnitEscape (by omega)⟩
  all_goals decide

theorem return_notMem_quoted (s : String) : '\r' ∉ (quoted s).toList := by
  simp [quoted_toList, return_notMem_escapeChar]

theorem return_notMem_int (n : Int) : '\r' ∉ (toString n).toList := by
  have hdigits (m : Nat) : '\r' ∉ Nat.toDigits 10 m := fun h => by
    have hdigit := isAsciiDigit_of_mem_toDigits h
    simp [isAsciiDigit] at hdigit
  rw [int_toList]
  split <;> simp [hdigits]

/-- A text that is the same whichever way its lines are taken to end. -/
structure Spacing.NoReturn (sp : Spacing) : Prop where
  opening (depth : Nat) : '\r' ∉ (sp.opening depth).toList
  closing (depth : Nat) : '\r' ∉ (sp.closing depth).toList
  between (depth : Nat) : '\r' ∉ (sp.between depth).toList
  colon : '\r' ∉ sp.colon.toList

theorem indented_noReturn (width : Nat) : (indented width).NoReturn where
  opening depth := by simp [indented, newline]
  closing depth := by simp [indented, newline]
  between depth := by simp [indented, newline]
  colon := by simp [indented]

theorem return_notMem_intercalate {sep : String} (hsep : '\r' ∉ sep.toList) {items : List String}
    (h : ∀ s ∈ items, '\r' ∉ s.toList) : '\r' ∉ (sep.intercalate items).toList := by
  induction items with
  | nil => simp
  | cons s items ih =>
    cases items with
    | nil => simpa using h
    | cons t items =>
      have hrest := ih fun u hu => h u (List.mem_cons_of_mem s hu)
      simp only [String.intercalate_cons_cons, String.toList_append, List.mem_append, not_or]
      exact ⟨⟨h s List.mem_cons_self, hsep⟩, hrest⟩

theorem return_notMem_group {sp : Spacing} (hsp : sp.NoReturn) (depth : Nat) {opener closer : String}
    (hopener : '\r' ∉ opener.toList) (hcloser : '\r' ∉ closer.toList) {items : List String}
    (h : ∀ s ∈ items, '\r' ∉ s.toList) : '\r' ∉ (group sp depth opener closer items).toList := by
  have hitems := return_notMem_intercalate (hsp.between depth) h
  unfold group
  split
  · simp [hopener, hcloser]
  · simp only [String.toList_append, List.mem_append, not_or]
    exact ⟨⟨⟨⟨hopener, hsp.opening depth⟩, hitems⟩, hsp.closing depth⟩, hcloser⟩

mutual

theorem return_notMem_write {sp : Spacing} (hsp : sp.NoReturn) {room : Nat} (d : Nat) {v : Json}
    (hv : Formed room v) : '\r' ∉ (write sp d v).toList := by
  match v with
  | null | bool true | bool false => simp [write]
  | int n => simpa only [write] using return_notMem_int n
  | float x => exact absurd hv (by simp [Formed])
  | str s => simpa only [write] using return_notMem_quoted s
  | arr items =>
    rw [write]
    exact return_notMem_group hsp d (by decide) (by decide) (return_notMem_writeItems hsp (d + 1) hv.2)
  | obj fields =>
    rw [write]
    exact return_notMem_group hsp d (by decide) (by decide) (return_notMem_writeFields hsp (d + 1) hv.2.2)

theorem return_notMem_writeItems {sp : Spacing} (hsp : sp.NoReturn) {room : Nat} (d : Nat) {items : List Json}
    (h : FormedItems room items) : ∀ s ∈ writeItems sp d items, '\r' ∉ s.toList := by
  match items with
  | [] => simp [writeItems]
  | v :: vs =>
    rw [writeItems, List.forall_mem_cons]
    exact ⟨return_notMem_write hsp d h.1, return_notMem_writeItems hsp d h.2⟩

theorem return_notMem_writeFields {sp : Spacing} (hsp : sp.NoReturn) {room : Nat} (d : Nat)
    {fields : List (String × Json)} (h : FormedFields room fields) :
    ∀ s ∈ writeFields sp d fields, '\r' ∉ s.toList := by
  match fields with
  | [] => simp [writeFields]
  | (name, v) :: fs =>
    rw [writeFields, List.forall_mem_cons]
    have hv := return_notMem_write hsp d h.1
    exact ⟨by simp [return_notMem_quoted, hsp.colon, hv], return_notMem_writeFields hsp d h.2⟩

end

end QualityGate.Json
