import Mathlib
import QualityGate.Proofs.Hook.Site

/-! What installing and removing a hook does to the hook and its backup. A file that
is no managed hook is only ever moved from the one place to the other, when the
other is free. -/

namespace QualityGate.Hook

open Workspace Relation

inductive Move : Pair → Pair → Prop
  | placed {hook backup : Option Entry} {e : Entry} (hold : ∀ f ∈ hook, managed f = true) (hnew : managed e = true) :
    Move ⟨hook, backup⟩ ⟨some e, backup⟩
  | aside {e : Entry} (hown : managed e = false) : Move ⟨some e, none⟩ ⟨none, some e⟩
  | removed {e : Entry} {backup : Option Entry} (hold : managed e = true) : Move ⟨some e, backup⟩ ⟨none, backup⟩
  | restored {e : Entry} : Move ⟨none, some e⟩ ⟨some e, none⟩

/-- The files of a pair that are no managed hooks. -/
def ownFiles (p : Pair) : Multiset Entry := ((p.hook.toList ++ p.backup.toList).filter fun e => !managed e : List Entry)

theorem Move.ownFiles_eq {p q : Pair} (h : Move p q) : ownFiles p = ownFiles q := by
  cases h with
  | @placed hook backup e hold hnew =>
    cases hook with
    | none => simp [ownFiles, hnew]
    | some f => simp [ownFiles, hnew, hold f rfl]
  | aside hown => simp [ownFiles]
  | removed hold => simp [ownFiles, hold]
  | restored => simp [ownFiles]

theorem ownFiles_eq_of_moves {p q : Pair} (h : ReflTransGen Move p q) : ownFiles p = ownFiles q := by
  induction h with
  | refl => rfl
  | tail _ hmove ih => exact ih.trans hmove.ownFiles_eq

theorem mem_ownFiles {p : Pair} {e : Entry} :
    e ∈ ownFiles p ↔ (p.hook = some e ∨ p.backup = some e) ∧ managed e = false := by
  simp [ownFiles, or_and_right]

section sets

variable {place : List String} {k : HookKind} {w w' : Workspace} {project dir : Path} {p : Pair}

theorem Sets.present (h : Sets place k w w' p) (hw : Present w project dir place) (hhook : Plain p.hook)
    (hbackup : Plain p.backup) : Present w' project dir place := by
  have hpair (k' : HookKind) : Plain (pairAt place k' w').hook ∧ Plain (pairAt place k' w').backup := by
    by_cases hk : k' = k
    · rw [hk, h.pairAt_self]
      exact ⟨hhook, hbackup⟩
    · rw [h.pairAt_of_ne hk]
      exact ⟨hw.plain _ (slot_mem place k'), hw.plain _ (spare_mem place k')⟩
  have hplain (s : List String) (hs : s ∈ slots place) : Plain (w'.entryAt s) := by
    obtain ⟨k', rfl | rfl⟩ := mem_slots.mp hs
    · exact (hpair k').1
    · exact (hpair k').2
  exact hw.of_agree ⟨h.root.symm, fun q hq => (h.outside hq).symm, hw.plain, fun s hs => (hplain s hs).unlinked⟩ hplain

/-- One hook and its backup move; the others, and all that stands elsewhere, stay as they are. -/
structure Moved (place : List String) (k : HookKind) (w w' : Workspace) : Prop where
  moves : ReflTransGen Move (pairAt place k w) (pairAt place k w')
  others : ∀ k' ≠ k, pairAt place k' w' = pairAt place k' w
  outside : ∀ q ∉ slots place, ∀ e, w.entryAt q = some e → w'.entryAt q = some e

theorem Moved.refl (place : List String) (k : HookKind) (w : Workspace) : Moved place k w w :=
  ⟨.refl, fun _ _ => rfl, fun _ _ _ => id⟩

theorem Moved.trans {w'' : Workspace} (h : Moved place k w w') (h' : Moved place k w' w'') : Moved place k w w'' :=
  ⟨h.moves.trans h'.moves, fun k' hk => (h'.others k' hk).trans (h.others k' hk),
    fun q hq e he => h'.outside q hq e (h.outside q hq e he)⟩

theorem Sets.moved (h : Sets place k w w' p) (hmoves : ReflTransGen Move (pairAt place k w) p) : Moved place k w w' :=
  ⟨h.pairAt_self.symm ▸ hmoves, fun _ hk => h.pairAt_of_ne hk, fun _ hq _ he => (h.outside hq).trans he⟩

end sets

/-! Making room, writing and removing. -/

section steps

variable {place : List String} {w : Workspace} {project dir : Path}

/-- In a hooks directory that is there, every hook has its place. -/
theorem Present.site (h : Present w project dir place) (k : HookKind) : Site w project dir place k := by
  have hvariant (v : Workspace) (hv : Variant place k w v) : Present v project dir place := by
    have hplain (s : List String) (hs : s ∈ slots place) : Plain (v.entryAt s) := by
      by_cases hslot : s = slot place k
      · rw [hslot]
        exact hv.hook
      by_cases hspare : s = spare place k
      · rw [hspare]
        exact hv.backup.elim (fun hsame => hsame ▸ h.plain _ (spare_mem place k)) id
      · rw [hv.outside s hslot hspare]
        exact h.plain s hs
    refine h.of_agree ⟨hv.root.symm, fun q hq => ?_, h.plain, fun s hs => (hplain s hs).unlinked⟩ hplain
    exact (hv.outside q (fun he => hq (he ▸ slot_mem place k)) (fun he => hq (he ▸ spare_mem place k))).symm
  exact
    { known := fun v hv => (hvariant v hv).known
      directory := fun v hv => (hvariant v hv).directory
      plain := h.plain _ (slot_mem place k)
      alone := h.alone _ (slot_mem place k)
      outer := fun hunder => by
        have habove := not_above_root (h.plain _ (spare_mem place k)).ne_directory
        rw [List.isPrefixOf_iff_prefix.mpr hunder] at habove
        cases habove }

theorem Present.contains_backup (h : Present w project dir place) (k : HookKind) :
    w.contains (backupOf (hookPath dir k)) = (w.entryAt (spare place k)).isSome :=
  (h.site k).contains_backup (h.plain _ (spare_mem place k))

/-- The hook that has moved is a script now. -/
structure Placed (place : List String) (k : HookKind) (text : String) (w w' : Workspace) : Prop extends
    Moved place k w w' where
  hook : w'.entryAt (slot place k) = some (.file text.toUTF8 true)

/-- Placing a script takes at most two moves, the first of which makes room for it. -/
theorem moves_placed {p : Pair} {text : String} (hfree : ∀ e ∈ p.hook, managed e = false → p.backup = none)
    (htext : managed (.file text.toUTF8 true) = true) : ReflTransGen Move p (p.placed text) := by
  obtain ⟨hook, backup⟩ := p
  by_cases hold : ∀ e ∈ hook, managed e = true
  · rw [Pair.placed, Pair.kept_of_managed hold]
    exact .single (.placed hold htext)
  simp only [not_forall, Bool.not_eq_true] at hold
  obtain ⟨e, rfl, hown⟩ := hold
  obtain rfl : backup = none := hfree e rfl hown
  rw [Pair.placed, Pair.kept_of_own rfl hown]
  exact .tail (.single (.aside hown)) (.placed (by simp) htext)

/-- Either the hook is the script afterwards, or there is both a hook and a backup of the user's own, and nothing
changes. -/
theorem Present.place_cases (h : Present w project dir place) (k : HookKind) {text : String}
    (htext : managed (.file text.toUTF8 true) = true) :
    (∃ result w', placeScript dir k text w = (.ok result, w') ∧ Present w' project dir place ∧
      Placed place k text w w') ∨
    ∃ message, placeScript dir k text w = (.error (.hook message), w) := by
  have hsite := h.site k
  rcases hsite.place_cases text with ⟨result, w', hplace, hsets, hfree⟩ | ⟨message, hrefused, -⟩
  · left
    have hkept : Plain (pairAt place k w).kept :=
      hsite.kept_cases.elim (fun hsame => hsame ▸ h.plain _ (spare_mem place k)) id
    refine ⟨result, w', hplace, hsets.present h trivial hkept, hsets.moved (moves_placed ?_ htext), hsets.hook⟩
    intro e he hown
    have hmissing := hfree e he hown
    rwa [h.contains_backup k, Option.isSome_eq_false_iff, Option.isNone_iff_eq_none] at hmissing
  · exact .inr ⟨message, hrefused⟩

/-- An installation succeeds, or it fails because of a backup and changes nothing. -/
theorem HooksDirectory.install_cases (h : HooksDirectory w project dir place) (k : HookKind) (level : EnforcementLevel)
    (tools : Tools) (name : String) :
    (∃ result w', install project k level tools name w = (.ok result, w') ∧ Present w' project dir place ∧
      Placed place k (script k level tools name) w w') ∨
    ∃ message, install project k level tools name w = (.error (.hook message), w) := by
  have htext := managed_script k level tools name true
  rcases h.found with hdir | ⟨hstands, hfree, hnone⟩
  · rw [install_eq h.known (createDirectories_of_directory hdir)]
    exact Present.place_cases ⟨h, hdir⟩ k htext
  · left
    obtain ⟨v, hcreate, hv, hsame⟩ := h.create hstands hfree
    have hslots (s : List String) (hs : s ∈ slots place) : v.entryAt s = w.entryAt s :=
      hsame s fun he => append_ne_place hs [] (by rw [he, List.append_nil])
    have hpairs (k' : HookKind) : pairAt place k' v = pairAt place k' w := by
      rw [pairAt, pairAt, hslots _ (slot_mem place k'), hslots _ (spare_mem place k')]
    have hcreated : Moved place k w v :=
      ⟨hpairs k ▸ .refl, fun k' _ => hpairs k', fun q _ e he => (hsame q fun hq => by simp [hq, hfree] at he).trans he⟩
    have hslot : v.entryAt (slot place k) = none := (hslots _ (slot_mem place k)).trans (hnone _ (slot_mem place k))
    rw [install_eq h.known hcreate]
    rcases hv.place_cases k htext with ⟨result, w', hplace, hw', hplaced⟩ | ⟨message, hplace⟩
    · exact ⟨result, w', hplace, hw', hcreated.trans hplaced.toMoved, hplaced.hook⟩
    · obtain ⟨result, w', hdone, -⟩ := (hv.site k).place_of_managed (script k level tools name) (by simp [hslot])
      rw [hdone] at hplace
      cases hplace

/-- An installation over a script that is there already changes nothing. -/
theorem Present.install_again (h : Present w project dir place) (k : HookKind) (level : EnforcementLevel)
    (tools : Tools) (name : String)
    (hplaced : w.entryAt (slot place k) = some (.file (script k level tools name).toUTF8 true)) :
    ∃ result w', install project k level tools name w = (.ok result, w') ∧ Unchanged w w' := by
  have hold : ∀ e ∈ w.entryAt (slot place k), managed e = true := by
    rw [hplaced]
    rintro _ ⟨⟩
    exact managed_script k level tools name true
  rw [install_eq h.known (createDirectories_of_directory h.directory)]
  obtain ⟨result, w', hplace, hsets⟩ := (h.site k).place_of_managed (script k level tools name) hold
  have hsame : w'.entryAt = w.entryAt := by
    rw [hsets.entryAt, ← hplaced]
    simp
  exact ⟨result, w', hplace, hsets.root, hsame⟩

theorem Present.uninstall_own (h : Present w project dir place) (k : HookKind)
    (hown : (w.entryAt (slot place k)).any managed = false) :
    Hook.uninstall (dir.child (Labelled.label k)) w = (.ok none, w) := by
  rw [Hook.uninstall, Edit.get_bind, if_pos (by simp [isManagedFile_eq (h.site k).hook, hown])]
  rfl

/-- A managed hook is removed, and what stands in the backup takes its place. -/
theorem Present.uninstall_managed (h : Present w project dir place) (k : HookKind) {e : Entry}
    (he : w.entryAt (slot place k) = some e) (hold : managed e = true) :
    ∃ w', Hook.uninstall (dir.child (Labelled.label k)) w = (.ok (some (dir.child (Labelled.label k))), w') ∧
      Sets place k w w' ⟨w.entryAt (spare place k), none⟩ := by
  obtain ⟨u, hsets, hu, hstart⟩ := (h.site k).uninstall_eq he hold
  have hplain : Plain (u.entryAt (spare place k)) := hsets.backup.symm ▸ h.plain _ (spare_mem place k)
  have hpresent := hsets.present h trivial (h.plain _ (spare_mem place k))
  obtain ⟨w', hdone, hback⟩ := hu.putBack_plain hplain (hpresent.alone _ (spare_mem place k)) hsets.hook
  rw [hsets.backup] at hback
  exact ⟨w', hstart.trans hdone, hsets.trans hback⟩

theorem Present.uninstall_cases (h : Present w project dir place) (k : HookKind) :
    ∃ result w', Hook.uninstall (dir.child (Labelled.label k)) w = (.ok result, w') ∧ Present w' project dir place ∧
      Moved place k w w' := by
  by_cases hown : (w.entryAt (slot place k)).any managed = false
  · exact ⟨none, w, h.uninstall_own k hown, h, .refl place k w⟩
  cases he : w.entryAt (slot place k) with
  | none => simp [he] at hown
  | some e =>
    have hold : managed e = true := by simpa [he] using hown
    obtain ⟨w', hdone, hsets⟩ := h.uninstall_managed k he hold
    refine ⟨_, w', hdone, hsets.present h (h.plain _ (spare_mem place k)) trivial, hsets.moved ?_⟩
    have hstart : pairAt place k w = ⟨some e, w.entryAt (spare place k)⟩ := by rw [pairAt, he]
    have hremoved : Move (pairAt place k w) ⟨none, w.entryAt (spare place k)⟩ := hstart ▸ .removed hold
    cases hbackup : w.entryAt (spare place k) with
    | none => exact .single (hbackup ▸ hremoved)
    | some b => exact .tail (.single (hbackup ▸ hremoved)) .restored

/-- Where there is no hooks directory nothing is removed. -/
theorem uninstall_of_missing (hstands : StandsAt w dir place) (hfree : w.entryAt place = none) (name : String) :
    Hook.uninstall (dir.child name) w = (.ok none, w) := by
  have hlocate : w.locate (dir.child name) = .error .notFound := by
    rw [locate, absolute_child]
    exact walk_child_of_free name true (hfree ▸ hstands.locate)
  have hfile : isManagedFile w (dir.child name) = false := by
    simp only [isManagedFile, isFile, stat, hlocate, Bool.false_and]
  rw [Hook.uninstall, Edit.get_bind, if_pos (by simp [hfile])]
  rfl

theorem HooksDirectory.uninstall_cases (h : HooksDirectory w project dir place) (k : HookKind) :
    ∃ result w', Hook.uninstall (dir.child (Labelled.label k)) w = (.ok result, w') ∧
      HooksDirectory w' project dir place ∧ Moved place k w w' := by
  rcases h.found with hdir | ⟨hstands, hfree, -⟩
  · obtain ⟨result, w', hdone, hw', hmoved⟩ := Present.uninstall_cases ⟨h, hdir⟩ k
    exact ⟨result, w', hdone, hw'.toHooksDirectory, hmoved⟩
  · exact ⟨none, w, uninstall_of_missing hstands hfree _, h, .refl place k w⟩

end steps

end QualityGate.Hook
