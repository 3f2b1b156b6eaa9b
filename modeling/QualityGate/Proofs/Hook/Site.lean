import Mathlib
import QualityGate.Proofs.Hook.Directory
import QualityGate.Proofs.Hook.Script
import QualityGate.Proofs.Workspace.Edit

/-! The place of one hook and its backup, and what installing a script there and
removing it again does to the two. The backup may be anything: what counts is
whether something is found by its path. -/

namespace QualityGate.Hook

open Workspace

/-- What stands at a hook and at its backup. -/
structure Pair where
  hook : Option Entry
  backup : Option Entry

def pairAt (place : List String) (k : HookKind) (w : Workspace) : Pair :=
  ⟨w.entryAt (slot place k), w.entryAt (spare place k)⟩

/-- Nothing but one hook and its backup is concerned, and these become `p`. -/
structure Sets (place : List String) (k : HookKind) (w w' : Workspace) (p : Pair) : Prop where
  root : w'.root = w.root
  entryAt : w'.entryAt = Function.update (Function.update w.entryAt (slot place k) p.hook) (spare place k) p.backup

section sets

variable {place : List String} {k : HookKind} {w w' : Workspace} {p : Pair} {e : Option Entry}

theorem sets_of_replaced (h : Replaced w w' (slot place k) e) : Sets place k w w' ⟨e, w.entryAt (spare place k)⟩ where
  root := h.root
  entryAt := by
    have hspare : w.entryAt (spare place k) = Function.update w.entryAt (slot place k) e (spare place k) := by
      rw [Function.update_of_ne (slot_ne_spare place k k).symm]
    rw [h.entryAt]
    dsimp only
    rw [hspare, Function.update_eq_self]

theorem Sets.pairAt_self (h : Sets place k w w' p) : pairAt place k w' = p := by
  rw [pairAt, h.entryAt, Function.update_self, Function.update_of_ne (slot_ne_spare place k k), Function.update_self]

theorem Sets.hook (h : Sets place k w w' p) : w'.entryAt (slot place k) = p.hook := congrArg Pair.hook h.pairAt_self

theorem Sets.backup (h : Sets place k w w' p) : w'.entryAt (spare place k) = p.backup :=
  congrArg Pair.backup h.pairAt_self

theorem Sets.pairAt_of_ne (h : Sets place k w w' p) {k' : HookKind} (hk : k' ≠ k) :
    pairAt place k' w' = pairAt place k' w := by
  have hslot : slot place k' ≠ slot place k := fun he => hk (slot_injective he)
  have hspare : spare place k' ≠ spare place k := fun he => hk (spare_injective he)
  rw [pairAt, h.entryAt, Function.update_of_ne (slot_ne_spare place k' k), Function.update_of_ne hslot,
    Function.update_of_ne hspare, Function.update_of_ne (slot_ne_spare place k k').symm]
  rfl

theorem Sets.of_ne (h : Sets place k w w' p) {q : List String} (hslot : q ≠ slot place k) (hspare : q ≠ spare place k) :
    w'.entryAt q = w.entryAt q := by
  rw [h.entryAt, Function.update_of_ne hspare, Function.update_of_ne hslot]

theorem Sets.outside (h : Sets place k w w' p) {q : List String} (hq : q ∉ slots place) :
    w'.entryAt q = w.entryAt q :=
  h.of_ne (fun he => hq (he ▸ slot_mem place k)) (fun he => hq (he ▸ spare_mem place k))

theorem Sets.trans {w'' : Workspace} {p' : Pair} (h : Sets place k w w' p) (h' : Sets place k w' w'' p') :
    Sets place k w w'' p' where
  root := h'.root.trans h.root
  entryAt := by
    rw [h'.entryAt]
    funext q
    by_cases hspare : q = spare place k
    · rw [hspare, Function.update_self, Function.update_self]
    rw [Function.update_of_ne hspare, Function.update_of_ne hspare]
    by_cases hslot : q = slot place k
    · rw [hslot, Function.update_self, Function.update_self]
    · rw [Function.update_of_ne hslot, Function.update_of_ne hslot]
      exact h.of_ne hslot hspare

theorem Sets.refl (place : List String) (k : HookKind) (w : Workspace) : Sets place k w w (pairAt place k w) :=
  ⟨rfl, by simp [pairAt]⟩

theorem Sets.unchanged (h : Sets place k w w' (pairAt place k w)) : Unchanged w w' :=
  ⟨h.root, by rw [h.entryAt]; simp [pairAt]⟩

end sets

/-- A workspace that differs in one hook and its backup alone. The hook is a file or missing, and so is the backup,
unless it is what it was. -/
structure Variant (place : List String) (k : HookKind) (w v : Workspace) : Prop where
  root : v.root = w.root
  outside : ∀ q, q ≠ slot place k → q ≠ spare place k → v.entryAt q = w.entryAt q
  hook : Plain (v.entryAt (slot place k))
  backup : v.entryAt (spare place k) = w.entryAt (spare place k) ∨ Plain (v.entryAt (spare place k))

/-- The hooks directory `dir` stands at `place` and is found there whatever becomes of one hook and its backup. The
hook is a file or missing. -/
structure Site (w : Workspace) (project dir : Path) (place : List String) (k : HookKind) : Prop where
  known : ∀ v, Variant place k w v → Git.hooksDirectory? v project = .ok (some dir)
  directory : ∀ v, Variant place k w v → v.locate dir = .ok ⟨place, some .directory⟩
  plain : Plain (w.entryAt (slot place k))
  alone : ∀ rest ≠ [], w.entryAt (slot place k ++ rest) = none
  outer : ¬ spare place k <+: w.root.parts

/-- Where a hook is, by path. -/
abbrev hookPath (dir : Path) (k : HookKind) : Path := dir.child (Labelled.label k)

section site

variable {place : List String} {k : HookKind} {w v w' : Workspace} {project dir : Path} {p : Pair} {e : Entry}

theorem Variant.trans (h : Variant place k w v) (h' : Variant place k v w') : Variant place k w w' where
  root := h'.root.trans h.root
  outside q hslot hspare := (h'.outside q hslot hspare).trans (h.outside q hslot hspare)
  hook := h'.hook
  backup := by
    rcases h'.backup with hsame | hplain
    · rw [hsame]
      exact h.backup
    · exact .inr hplain

theorem Sets.variant (h : Sets place k w w' p) (hhook : Plain p.hook)
    (hbackup : p.backup = w.entryAt (spare place k) ∨ Plain p.backup) : Variant place k w w' where
  root := h.root
  outside _ hslot hspare := h.of_ne hslot hspare
  hook := h.hook.symm ▸ hhook
  backup := h.backup.symm ▸ hbackup

theorem slot_append_ne_spare {rest : List String} (hrest : rest ≠ []) : slot place k ++ rest ≠ spare place k := by
  intro he
  have hlong := congrArg List.length he
  have hpos := List.length_pos_iff.mpr hrest
  simp only [slot, spare, List.length_append, List.length_singleton] at hlong
  omega

theorem Site.of_variant (h : Site w project dir place k) (hv : Variant place k w v) : Site v project dir place k where
  known u hu := h.known u (hv.trans hu)
  directory u hu := h.directory u (hv.trans hu)
  plain := hv.hook
  alone rest hrest := by
    rw [hv.outside _ (fun he => hrest (List.append_right_eq_self.mp he)) (slot_append_ne_spare hrest)]
    exact h.alone rest hrest
  outer := hv.root ▸ h.outer

theorem Sets.site (h : Sets place k w w' p) (hw : Site w project dir place k) (hhook : Plain p.hook)
    (hbackup : p.backup = w.entryAt (spare place k) ∨ Plain p.backup) : Site w' project dir place k :=
  hw.of_variant (h.variant hhook hbackup)

theorem backupOf_hookPath (dir : Path) (k : HookKind) :
    backupOf (hookPath dir k) = dir.child (Labelled.label k ++ backupSuffix) := by
  simp [backupOf, Path.withName, Path.child, Path.name]

namespace Site

theorem here (h : Site w project dir place k) : w.locate dir = .ok ⟨place, some .directory⟩ :=
  h.directory w ⟨rfl, fun _ _ _ => rfl, h.plain, .inl rfl⟩

theorem found (h : Site w project dir place k) : Git.hooksDirectory? w project = .ok (some dir) :=
  h.known w ⟨rfl, fun _ _ _ => rfl, h.plain, .inl rfl⟩

theorem hook (h : Site w project dir place k) : StandsAt w (hookPath dir k) (slot place k) :=
  standsAt_child h.here (by cases k <;> decide) h.plain

theorem locateLink_backup (h : Site w project dir place k) :
    w.locateLink (backupOf (hookPath dir k)) = .ok ⟨spare place k, w.entryAt (spare place k)⟩ := by
  rw [backupOf_hookPath]
  exact locateLink_child (by cases k <;> decide) h.here

theorem backup (h : Site w project dir place k) (hplain : Plain (w.entryAt (spare place k))) :
    StandsAt w (backupOf (hookPath dir k)) (spare place k) := by
  rw [backupOf_hookPath]
  exact standsAt_child h.here (by cases k <;> decide) hplain

theorem contains_backup (h : Site w project dir place k) (hplain : Plain (w.entryAt (spare place k))) :
    w.contains (backupOf (hookPath dir k)) = (w.entryAt (spare place k)).isSome := (h.backup hplain).contains

/-- A backup that is not found by its path is no directory. -/
theorem backup_ne_directory (h : Site w project dir place k)
    (hmissing : w.contains (backupOf (hookPath dir k)) = false) : w.entryAt (spare place k) ≠ some .directory := by
  intro hdirectory
  obtain ⟨left, hon⟩ := walk_on h.here
  have hlocate : w.locate (backupOf (hookPath dir k)) = .ok ⟨spare place k, some .directory⟩ := by
    rw [backupOf_hookPath, locate, absolute_child, hon true _ (List.cons_ne_nil _ _), ← hdirectory]
    refine walk_last (by cases k <;> decide) fun target => ?_
    rw [show w.entryAt (place ++ _) = _ from hdirectory]
    rintro ⟨⟩
  simp [contains, stat, hlocate, Except.isOk, Except.toBool] at hmissing

end Site

/-! Making room and writing. -/

/-- What an installation does once the directory is there. -/
def placeScript (dir : Path) (k : HookKind) (text : String) : Edit Installed := do
  let p := dir.child (Labelled.label k)
  let (action, backup) ← makeRoom p text
  Edit.change (·.writeText p text)
  Edit.change (·.makeExecutable p)
  return ⟨k, p, action, backup⟩

theorem install_eq (hknown : Git.hooksDirectory? w project = .ok (some dir))
    (hcreate : w.createDirectories dir = .ok v) (k : HookKind) (level : EnforcementLevel) (tools : Tools)
    (name : String) : install project k level tools name w = placeScript dir k (script k level tools name) v := by
  rw [install, Edit.get_bind, Edit.bind_of_ok (Edit.lift_of_ok hknown)]
  exact Edit.bind_of_ok (Edit.change_of_ok hcreate)

namespace Pair

/-- What is kept in the backup while a script stands in the hook's place: a hook of the user's own is moved there. -/
def kept (p : Pair) : Option Entry :=
  match p.hook with
  | some e => if managed e then p.backup else some e
  | none => p.backup

def placed (p : Pair) (text : String) : Pair := ⟨some (.file text.toUTF8 true), p.kept⟩

theorem kept_of_managed (hold : ∀ e ∈ p.hook, managed e = true) : p.kept = p.backup := by
  cases he : p.hook with
  | none => simp [kept, he]
  | some e => simp [kept, he, hold e he]

theorem kept_of_own (he : p.hook = some e) (hown : managed e = false) : p.kept = some e := by
  simp [kept, he, hown]

end Pair

theorem Site.kept_cases (h : Site w project dir place k) :
    (pairAt place k w).kept = w.entryAt (spare place k) ∨ Plain (pairAt place k w).kept := by
  cases he : w.entryAt (slot place k) with
  | none => exact .inl (Pair.kept_of_managed (by simp [pairAt, he]))
  | some e =>
    cases hm : managed e with
    | true => exact .inl (Pair.kept_of_managed (by simp [pairAt, he, hm]))
    | false =>
      rw [Pair.kept_of_own he hm, ← he]
      exact .inr h.plain

namespace Site

theorem writes (h : Site w project dir place k) (text : String) :
    ∃ w₁ w₂, w.writeText (hookPath dir k) text = .ok w₁ ∧ w₁.makeExecutable (hookPath dir k) = .ok w₂ ∧
      Sets place k w w₂ ⟨some (.file text.toUTF8 true), w.entryAt (spare place k)⟩ := by
  obtain ⟨w₁, executable, hwrite, hwritten⟩ := h.hook.writeText text
  have h₁ := (sets_of_replaced hwritten).site h trivial (.inl rfl)
  obtain ⟨w₂, hexecutable, hmade⟩ := h₁.hook.makeExecutable hwritten.self
  exact ⟨w₁, w₂, hwrite, hexecutable, sets_of_replaced (hwritten.trans hmade)⟩

/-- A place that is free, or that holds a managed hook, is left for the script as it is. -/
theorem makeRoom_of_managed (h : Site w project dir place k) (text : String)
    (hold : ∀ e ∈ w.entryAt (slot place k), managed e = true) :
    ∃ action, makeRoom (hookPath dir k) text w = (.ok (action, none), w) := by
  have hstands := h.hook
  rw [makeRoom, Edit.get_bind]
  cases he : w.entryAt (slot place k) with
  | none =>
    rw [if_pos (by simp [hstands.contains, hstands.isLink, he])]
    exact ⟨_, rfl⟩
  | some e =>
    have hmanaged : managed e = true := hold e (by rw [he]; rfl)
    rw [if_neg (by simp [hstands.contains, he]), if_pos (by simp [isManagedFile_eq hstands, he, hmanaged])]
    obtain ⟨found, hread⟩ := readText_of_managed hstands he hmanaged
    rw [Edit.bind_of_ok (Edit.lift_of_ok hread)]
    exact ⟨_, rfl⟩

section own

variable (text : String) (he : w.entryAt (slot place k) = some e) (hown : managed e = false)
include he hown

theorem makeRoom_of_own (h : Site w project dir place k)
    (hmissing : w.contains (backupOf (hookPath dir k)) = false) :
    ∃ w', makeRoom (hookPath dir k) text w = (.ok (.installed, some (backupOf (hookPath dir k))), w') ∧
      Sets place k w w' ⟨none, some e⟩ := by
  have hstands := h.hook
  have hapart : ¬ spare place k <+: slot place k := fun hunder =>
    slot_ne_spare place k k (hunder.eq_of_length (by simp [slot, spare])).symm
  refine ⟨{ w.drop (spare place k) with
    entries := (w.drop (spare place k)).entries.map fun x => (rebase (slot place k) (spare place k) x.1, x.2) }, ?_,
    rfl, he ▸ entryAt_rename h.plain.ne_directory (h.backup_ne_directory hmissing) hapart h.alone⟩
  rw [makeRoom, Edit.get_bind, if_neg (by simp [hstands.contains, he]),
    if_neg (by simp [isManagedFile_eq hstands, he, hown]), if_neg (by simp [hmissing])]
  refine Edit.bind_of_ok (Edit.change_of_ok ?_)
  rw [← rename_entries, Workspace.rename, hstands.locateLink, h.locateLink_backup, he]

theorem makeRoom_of_taken (h : Site w project dir place k)
    (htaken : w.contains (backupOf (hookPath dir k)) = true) :
    ∃ message, makeRoom (hookPath dir k) text w = (.error (.hook message), w) := by
  have hstands := h.hook
  rw [makeRoom, Edit.get_bind, if_neg (by simp [hstands.contains, he]),
    if_neg (by simp [isManagedFile_eq hstands, he, hown]), if_pos htaken]
  exact ⟨_, rfl⟩

end own

theorem place_of_room {w₁ : Workspace} {text : String} {room : Action × Option Path}
    (hroom : makeRoom (hookPath dir k) text w = (.ok room, w₁)) (h : Site w₁ project dir place k) :
    ∃ result w', placeScript dir k text w = (.ok result, w') ∧
      Sets place k w₁ w' ⟨some (.file text.toUTF8 true), w₁.entryAt (spare place k)⟩ := by
  obtain ⟨w₂, w₃, hwrite, hexecutable, hsets⟩ := h.writes text
  refine ⟨⟨k, hookPath dir k, room.1, room.2⟩, w₃, ?_, hsets⟩
  rw [placeScript, Edit.bind_of_ok hroom]
  exact (Edit.bind_of_ok (Edit.change_of_ok hwrite)).trans (Edit.bind_of_ok (Edit.change_of_ok hexecutable))

theorem place_of_managed (h : Site w project dir place k) (text : String)
    (hold : ∀ e ∈ w.entryAt (slot place k), managed e = true) :
    ∃ result w', placeScript dir k text w = (.ok result, w') ∧
      Sets place k w w' ⟨some (.file text.toUTF8 true), w.entryAt (spare place k)⟩ := by
  obtain ⟨action, hroom⟩ := h.makeRoom_of_managed text hold
  exact place_of_room hroom h

/-- Either the script is placed, or there is both a hook of the user's own and a backup, and nothing changes. -/
theorem place_cases (h : Site w project dir place k) (text : String) :
    (∃ result w', placeScript dir k text w = (.ok result, w') ∧
      Sets place k w w' ((pairAt place k w).placed text) ∧
      ∀ e ∈ w.entryAt (slot place k), managed e = false → w.contains (backupOf (hookPath dir k)) = false) ∨
    ∃ message, placeScript dir k text w = (.error (.hook message), w) ∧
      (∃ e, w.entryAt (slot place k) = some e ∧ managed e = false) ∧
      w.contains (backupOf (hookPath dir k)) = true := by
  by_cases hold : ∀ e ∈ w.entryAt (slot place k), managed e = true
  · obtain ⟨result, w', hplace, hsets⟩ := h.place_of_managed text hold
    rw [Pair.placed, Pair.kept_of_managed hold]
    refine .inl ⟨result, w', hplace, hsets, fun e he hown => ?_⟩
    simp [hold e he] at hown
  simp only [not_forall, Bool.not_eq_true] at hold
  obtain ⟨e, he, hown⟩ := hold
  cases hbackup : w.contains (backupOf (hookPath dir k)) with
  | true =>
    obtain ⟨message, hroom⟩ := h.makeRoom_of_taken text he hown hbackup
    exact .inr ⟨message, by rw [placeScript]; exact Edit.bind_of_error hroom, ⟨e, he, hown⟩, rfl⟩
  | false =>
    obtain ⟨w₁, hroom, haside⟩ := h.makeRoom_of_own text he hown hbackup
    have h₁ := haside.site h trivial (.inr (he ▸ h.plain))
    obtain ⟨result, w', hplace, hsets⟩ := place_of_room hroom h₁
    rw [haside.backup] at hsets
    rw [Pair.placed, Pair.kept_of_own he hown]
    exact .inl ⟨result, w', hplace, haside.trans hsets, fun _ _ _ => rfl⟩

end Site

/-! Removing. -/

/-- What a removal does once the hook is gone. -/
def putBack (p : Path) : Edit (Option Path) := do
  let backup := backupOf p
  if (← get).contains backup then Edit.change (·.rename backup p)
  return some p

theorem putBack_of_missing {p : Path} (h : w.contains (backupOf p) = false) : putBack p w = (.ok (some p), w) := by
  rw [putBack, Edit.get_bind, if_neg (by simp [h])]
  rfl

theorem putBack_of_rename {p : Path} (h : w.contains (backupOf p) = true)
    (hrename : w.rename (backupOf p) p = .ok w') : putBack p w = (.ok (some p), w') := by
  rw [putBack, Edit.get_bind, if_pos h]
  exact Edit.bind_of_ok (Edit.change_of_ok hrename)

namespace Site

/-- A managed hook is removed first of all. -/
theorem uninstall_eq (h : Site w project dir place k) (he : w.entryAt (slot place k) = some e)
    (hold : managed e = true) :
    ∃ u, Sets place k w u ⟨none, w.entryAt (spare place k)⟩ ∧ Site u project dir place k ∧
      Hook.uninstall (hookPath dir k) w = putBack (hookPath dir k) u := by
  obtain ⟨u, hremove, hremoved⟩ := h.hook.remove he
  have hsets := sets_of_replaced hremoved
  have hmanaged : isManagedFile w (hookPath dir k) = true := by
    rw [isManagedFile_eq h.hook, he]
    exact hold
  refine ⟨u, hsets, hsets.site h trivial (.inl rfl), ?_⟩
  rw [Hook.uninstall, Edit.get_bind, if_neg (by simp [hmanaged])]
  exact Edit.bind_of_ok (Edit.change_of_ok hremove)

/-- A backup that is found by its path takes the place of a hook that is missing. -/
theorem putBack_found (h : Site w project dir place k)
    (hfound : w.contains (backupOf (hookPath dir k)) = true) :
    ∃ w', putBack (hookPath dir k) w = (.ok (some (hookPath dir k)), w') ∧
      pairAt place k w' = ⟨w.entryAt (spare place k), none⟩ := by
  cases hb : w.entryAt (spare place k) with
  | none =>
    rw [h.contains_backup (hb ▸ trivial), hb] at hfound
    cases hfound
  | some b =>
    have hapart : ¬ slot place k <+: spare place k := fun hunder =>
      slot_ne_spare place k k (hunder.eq_of_length (by simp [slot, spare]))
    obtain ⟨w', hrename, -, hsource, htarget⟩ := rename_moves (hb ▸ h.locateLink_backup) h.hook.locateLink hb
      h.plain.ne_directory h.outer hapart
    refine ⟨w', putBack_of_rename hfound hrename, ?_⟩
    rw [pairAt, hsource, htarget]

/-- A file in the backup is moved, and nothing else changes. -/
theorem putBack_plain (h : Site w project dir place k) (hplain : Plain (w.entryAt (spare place k)))
    (halone : ∀ rest ≠ [], w.entryAt (spare place k ++ rest) = none) (hfree : w.entryAt (slot place k) = none) :
    ∃ w', putBack (hookPath dir k) w = (.ok (some (hookPath dir k)), w') ∧
      Sets place k w w' ⟨w.entryAt (spare place k), none⟩ := by
  have hcontains := h.contains_backup hplain
  cases hb : w.entryAt (spare place k) with
  | none =>
    have hstart : pairAt place k w = ⟨none, none⟩ := by rw [pairAt, hfree, hb]
    exact ⟨w, putBack_of_missing (hcontains.trans (by rw [hb]; rfl)), hstart ▸ Sets.refl place k w⟩
  | some b =>
    have hapart : ¬ slot place k <+: spare place k := fun hunder =>
      slot_ne_spare place k k (hunder.eq_of_length (by simp [slot, spare]))
    obtain ⟨w', hrename, hroot, hentry⟩ := (h.backup hplain).rename h.hook hb hapart halone
    refine ⟨w', putBack_of_rename (hcontains.trans (by rw [hb]; rfl)) hrename, hroot, ?_⟩
    rw [hentry, Function.update_comm (slot_ne_spare place k k).symm]

end Site

end site

end QualityGate.Hook
