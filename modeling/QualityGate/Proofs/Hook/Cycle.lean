import Mathlib
import QualityGate.Proofs.Hook.Kept

/-! From the first installation of a hook to its removal. The removal brings back
what stood there, except that a backup that is found where there is no hook is
taken for the hook's own. -/

namespace QualityGate.Hook

open Workspace

variable {w v w' : Workspace} {project dir : Path} {place : List String} {k : HookKind} {e : Entry}

/-- The hooks directory is missing and can be made. -/
structure Unmade (w : Workspace) (project dir : Path) (place : List String) (k : HookKind) : Prop where
  known : Git.hooksDirectory? w project = .ok (some dir)
  stands : StandsAt w dir place
  free : w.entryAt place = none
  hook : w.entryAt (slot place k) = none
  backup : w.entryAt (spare place k) = none
  made : Site (w.put place .directory) project dir place k

theorem Unmade.contains_backup (h : Unmade w project dir place k) :
    w.contains (backupOf (hookPath dir k)) = false := by
  have hlocate : w.locate (backupOf (hookPath dir k)) = .error .notFound := by
    rw [backupOf_hookPath, locate, absolute_child]
    exact walk_child_of_free _ true (h.free ▸ h.stands.locate)
  simp [contains, stat, hlocate, Except.isOk, Except.toBool]

/-- The directory is opened for an installation, and hook and backup are as before. -/
structure Opened (w v : Workspace) (project dir : Path) (place : List String) (k : HookKind) : Prop where
  known : Git.hooksDirectory? w project = .ok (some dir)
  created : w.createDirectories dir = .ok v
  site : Site v project dir place k
  pairAt : pairAt place k v = pairAt place k w
  contains : v.contains (backupOf (hookPath dir k)) = w.contains (backupOf (hookPath dir k))

theorem opened (h : Site w project dir place k ∨ Unmade w project dir place k) :
    ∃ v, Opened w v project dir place k := by
  rcases h with h | h
  · exact ⟨w, h.found, createDirectories_of_directory h.here, h, rfl, rfl⟩
  have hothers (q : List String) (hq : q ≠ place) : (w.put place .directory).entryAt q = w.entryAt q :=
    (replaced_put h.stands.plain .directory).of_ne hq
  have hslot : slot place k ≠ place := by simp [slot]
  have hspare : spare place k ≠ place := by simp [spare]
  have hfree : (w.put place .directory).entryAt (spare place k) = none := (hothers _ hspare).trans h.backup
  refine ⟨_, h.known, createDirectories_of_free h.stands h.free, h.made, ?_, ?_⟩
  · rw [Hook.pairAt, Hook.pairAt, hothers _ hslot, hothers _ hspare]
  · rw [h.made.contains_backup (hfree ▸ trivial), hfree, h.contains_backup]
    rfl

theorem Opened.install_eq (h : Opened w v project dir place k) (level : EnforcementLevel) (tools : Tools)
    (name : String) : install project k level tools name w = placeScript dir k (script k level tools name) v :=
  Hook.install_eq h.known h.created k level tools name

/-- Over a script any number of installations succeed, and leave a script there. -/
theorem Site.install_over (h : Site w project dir place k) (he : w.entryAt (slot place k) = some e)
    (hold : managed e = true) (again : List (EnforcementLevel × Tools × String)) :
    ∃ results w' e', (again.mapM fun x => install project k x.1 x.2.1 x.2.2) w = (.ok results, w') ∧
      managed e' = true ∧ Sets place k w w' ⟨some e', w.entryAt (spare place k)⟩ := by
  induction again generalizing w e with
  | nil => exact ⟨[], w, e, rfl, hold, he ▸ Sets.refl place k w⟩
  | cons x again ih =>
    obtain ⟨level, tools, name⟩ := x
    have hfirst := install_eq h.found (createDirectories_of_directory h.here) k level tools name
    obtain ⟨result, v, hplace, hsets⟩ := h.place_of_managed (script k level tools name) fun f hf => by
      rw [← Option.some.inj (he.symm.trans hf)]
      exact hold
    obtain ⟨results, w', e', hrest, hold', hsets'⟩ :=
      ih (hsets.site h trivial (.inl rfl)) hsets.hook (managed_script k level tools name true)
    refine ⟨result :: results, w', e', ?_, hold', ?_⟩
    · rw [List.mapM_cons, Edit.bind_of_ok (hfirst.trans hplace)]
      exact Edit.bind_of_ok hrest
    · rw [hsets.backup] at hsets'
      exact hsets.trans hsets'

theorem mapM_uninstall_unmanaged (kinds : List HookKind)
    (h : ∀ k ∈ kinds, isManagedFile w (hookPath dir k) = false) :
    (kinds.mapM fun k => uninstall (hookPath dir k) : Edit (List (Option Path))) w =
      (.ok (kinds.map fun _ => none), w) := by
  induction kinds with
  | nil => rfl
  | cons k kinds ih =>
    obtain ⟨hhead, htail⟩ := List.forall_mem_cons.mp h
    have hfirst : uninstall (hookPath dir k) w = (.ok none, w) := by
      rw [uninstall, Edit.get_bind, if_pos (by simp [hhead])]
      rfl
    rw [List.mapM_cons, Edit.bind_of_ok hfirst]
    exact Edit.bind_of_ok (ih htail)

/-- Among hooks that are not managed one script is removed. -/
theorem uninstallAll_single {p : Path} {before after : List HookKind}
    (hknown : Git.hooksDirectory? w project = .ok (some dir))
    (hbefore : ∀ k ∈ before, isManagedFile w (hookPath dir k) = false)
    (hdone : uninstall (hookPath dir k) w = (.ok (some p), w'))
    (hafter : ∀ k ∈ after, isManagedFile w' (hookPath dir k) = false) :
    uninstallAll project (before ++ k :: after) w = (.ok [p], w') := by
  have hall : ((before ++ k :: after).mapM fun k => uninstall (hookPath dir k) : Edit (List (Option Path))) w =
      (.ok (before.map (fun _ => none) ++ some p :: after.map fun _ => none), w') := by
    rw [List.mapM_append, Edit.bind_of_ok (mapM_uninstall_unmanaged before hbefore), List.mapM_cons]
    refine Edit.bind_of_ok ((Edit.bind_of_ok hdone).trans ?_)
    exact Edit.bind_of_ok (mapM_uninstall_unmanaged after hafter)
  rw [uninstallAll, Edit.get_bind, Edit.bind_of_ok (Edit.lift_of_ok hknown)]
  dsimp only
  rw [Edit.bind_of_ok hall]
  simp [pure, ExceptT.pure, ExceptT.mk, StateT.pure]

/-- A hook and its backup after a script was installed and removed, by whether the backup was found at first. -/
def Pair.restored (p : Pair) (found : Bool) : Pair :=
  match p.hook with
  | some e => ⟨some e, none⟩
  | none => if found then ⟨p.backup, none⟩ else p

theorem plain_of_managed (h : managed e = true) : Plain (some e) := by
  cases e with
  | file data executable => exact trivial
  | directory => cases h
  | link target => cases h

/-- What is left of a script that stands over a hook once it is removed. -/
theorem Site.uninstall_placed (h : Site v project dir place k)
    (hown : ∀ e ∈ v.entryAt (slot place k), managed e = false) (hold : managed e = true)
    (hplaced : Sets place k v w ⟨some e, (pairAt place k v).kept⟩) :
    ∃ w', uninstall (hookPath dir k) w = (.ok (some (hookPath dir k)), w') ∧
      pairAt place k w' = (pairAt place k v).restored (v.contains (backupOf (hookPath dir k))) := by
  have hw : Site w project dir place k := hplaced.site h (plain_of_managed hold) h.kept_cases
  obtain ⟨u, hremoved, hu, hstart⟩ := hw.uninstall_eq hplaced.hook hold
  rw [hplaced.backup] at hremoved
  have hsets := hplaced.trans hremoved
  rw [hstart]
  cases hhook : v.entryAt (slot place k) with
  | some f =>
    have hback : u.entryAt (spare place k) = some f :=
      hsets.backup.trans (Pair.kept_of_own hhook (hown f hhook))
    have hplain : Plain (u.entryAt (spare place k)) := by
      rw [hback, ← hhook]
      exact h.plain
    obtain ⟨w', hdone, hpair⟩ := hu.putBack_found (by rw [hu.contains_backup hplain, hback]; rfl)
    refine ⟨w', hdone, hpair.trans ?_⟩
    simp [Pair.restored, pairAt, hhook, hback]
  | none =>
    have hstart : pairAt place k v = ⟨none, v.entryAt (spare place k)⟩ := by rw [pairAt, hhook]
    have hkept : (pairAt place k v).kept = v.entryAt (spare place k) :=
      Pair.kept_of_managed (by simp [pairAt, hhook])
    rw [hkept, ← hstart] at hsets
    -- Nothing has changed but for the script that is gone again, so the backup is found if it was.
    have hcontains := hsets.unchanged.contains (backupOf (hookPath dir k))
    cases hfound : v.contains (backupOf (hookPath dir k)) with
    | false =>
      refine ⟨u, putBack_of_missing (hcontains.trans hfound), ?_⟩
      rw [hsets.pairAt_self]
      simp [Pair.restored, hstart]
    | true =>
      obtain ⟨w', hdone, hpair⟩ := hu.putBack_found (hcontains.trans hfound)
      refine ⟨w', hdone, hpair.trans ?_⟩
      rw [hsets.backup]
      simp [Pair.restored, pairAt, hhook]

theorem Pair.restored_eq_iff (p : Pair) (found : Bool) (hfound : found = true → p.backup ≠ none) :
    p.restored found = p ↔ (p.hook = none → found = false) ∧ (p.hook ≠ none → p.backup = none) := by
  obtain ⟨hook, backup⟩ := p
  cases hook with
  | some e => simp [restored, eq_comm]
  | none =>
    cases found with
    | false => simp [restored]
    | true => simpa [restored, eq_comm] using hfound rfl

/-- A repository in which these files stand in the hooks directory. -/
def repositoryOf (files : List (String × Entry)) : Workspace where
  root := ⟨"/", ["w"]⟩
  entries := (["w", ".git"], .directory) :: (["w", ".git", "hooks"], .directory) ::
    files.map fun x => (["w", ".git", "hooks", x.1], x.2)

section repositoryOf

variable {files : List (String × Entry)}

theorem entryAt_repositoryOf (name : String) :
    (repositoryOf files).entryAt ["w", ".git", "hooks", name] = files.lookup name := by
  have hfiles : (files.map fun x => (["w", ".git", "hooks", x.1], x.2)).lookup ["w", ".git", "hooks", name] =
      files.lookup name := lookup_map_key (f := fun name => ["w", ".git", "hooks", name]) fun x _ => by simp
  simp [entryAt, repositoryOf, List.lookup_cons, hfiles]

theorem repositoryOf_present (hplain : ∀ x ∈ files, Plain (some x.2)) :
    Present (repositoryOf files) ⟨"/", ["w"]⟩ ⟨"/", ["w", ".git", "hooks"]⟩ ["w", ".git", "hooks"] := by
  let project : Path := ⟨"/", ["w"]⟩
  let place := ["w", ".git", "hooks"]
  have hgit : (repositoryOf files).locate (project.child ".git") = .ok ⟨["w", ".git"], some .directory⟩ := by
    simp [project, repositoryOf, locate, absolute, Path.join, Path.isAbsolute, Path.child, walk, entryAt]
  have hdir : (repositoryOf files).locate ⟨"/", place⟩ = .ok ⟨place, some .directory⟩ := by
    simp [place, repositoryOf, locate, absolute, Path.join, Path.isAbsolute, walk, entryAt, List.lookup]
  have hdirectory : Git.directory? (repositoryOf files) project = .ok (some (project.child ".git")) := by
    rw [Git.directory?, if_pos (isDirectory_iff.mpr ⟨_, hgit⟩)]
  have hnamed (name : String) : Plain ((repositoryOf files).entryAt (place ++ [name])) := by
    rw [show place ++ [name] = ["w", ".git", "hooks", name] from rfl, entryAt_repositoryOf]
    cases hlookup : files.lookup name with
    | none => exact trivial
    | some e =>
      obtain ⟨before, after, rfl, -⟩ := List.lookup_eq_some_iff.mp hlookup
      exact hplain (name, e) (by simp)
  have hshort : ∀ x ∈ (repositoryOf files).entries, x.1.length < 5 := by
    intro x hx
    simp only [repositoryOf, List.mem_cons, List.mem_map] at hx
    obtain rfl | rfl | ⟨file, -, rfl⟩ := hx <;> simp
  exact
    { known := Git.hooksDirectory_eq_some.mpr ⟨_, hdirectory, rfl⟩
      found := .inl hdir
      plain := fun s hs => by
        obtain ⟨k, rfl | rfl⟩ := mem_slots.mp hs
        · exact hnamed _
        · exact hnamed _
      alone := fun s hs rest hrest => by
        have hpos := List.length_pos_iff.mpr hrest
        have hlength : (s ++ rest).length = 4 + rest.length := by rw [List.length_append, length_of_mem_slots hs]; rfl
        exact entryAt_of_deep hshort (by simp [repositoryOf]) (by omega)
      repository := ⟨_, _, hgit, by decide⟩
      directory := hdir }

end repositoryOf

section cycle

variable (h : Site w project dir place k ∨ Unmade w project dir place k)
  (hown : ∀ e ∈ w.entryAt (slot place k), managed e = false) {level : EnforcementLevel} {tools : Tools}
  {name : String} {result : Installed} (hdone : install project k level tools name w = (.ok result, w'))
  (again : List (EnforcementLevel × Tools × String))
include h hown hdone

/-- Any number of installations and one removal. -/
theorem install_uninstall :
    ∃ results w₁ w₂, (again.mapM fun x => install project k x.1 x.2.1 x.2.2) w' = (.ok results, w₁) ∧
      (∀ before after, (∀ k' ∈ before, isManagedFile w₁ (hookPath dir k') = false) →
        (∀ k' ∈ after, isManagedFile w₂ (hookPath dir k') = false) →
        uninstallAll project (before ++ k :: after) w₁ = (.ok [hookPath dir k], w₂)) ∧
      pairAt place k w₂ = (pairAt place k w).restored (w.contains (backupOf (hookPath dir k))) := by
  obtain ⟨v, hv⟩ := opened h
  have hhook : v.entryAt (slot place k) = w.entryAt (slot place k) := congrArg Pair.hook hv.pairAt
  rw [hv.install_eq] at hdone
  rcases hv.site.place_cases (script k level tools name) with ⟨_, u, hplace, hplaced, -⟩ | ⟨_, hrefused, -, -⟩
  swap
  · rw [hrefused] at hdone
    cases hdone
  obtain ⟨-, rfl⟩ := Prod.mk.inj (hplace.symm.trans hdone)
  have hu : Site u project dir place k := hplaced.site hv.site trivial hv.site.kept_cases
  obtain ⟨results, w₁, e, hagain, hold, hover⟩ :=
    hu.install_over hplaced.hook (managed_script k level tools name true) again
  rw [hplaced.backup] at hover
  have hstands := hplaced.trans hover
  have hw₁ : Site w₁ project dir place k := hstands.site hv.site (plain_of_managed hold) hv.site.kept_cases
  obtain ⟨w₂, hremoved, hpair⟩ := hv.site.uninstall_placed (by rw [hhook]; exact hown) hold hstands
  rw [hv.pairAt, hv.contains] at hpair
  exact ⟨results, w₁, w₂, hagain, fun before after hbefore hafter =>
    uninstallAll_single hw₁.found hbefore hremoved hafter, hpair⟩

/-- A script that was installed, once or more often, is all that is removed where no other hook is managed. What stood
at the hook and its backup comes back, unless there was no hook and yet something that the path of the backup led to:
then that becomes the hook. A link in the backup that led nowhere is lost to a hook of the user's own. -/
theorem uninstall_restores_iff :
    ∃ results w₁ w₂, (again.mapM fun x => install project k x.1 x.2.1 x.2.2) w' = (.ok results, w₁) ∧
      (∀ before after, (∀ k' ∈ before, isManagedFile w₁ (hookPath dir k') = false) →
        (∀ k' ∈ after, isManagedFile w₂ (hookPath dir k') = false) →
        uninstallAll project (before ++ k :: after) w₁ = (.ok [hookPath dir k], w₂)) ∧
      pairAt place k w₂ = (pairAt place k w).restored (w.contains (backupOf (hookPath dir k))) ∧
      (pairAt place k w₂ = pairAt place k w ↔
        (w.entryAt (slot place k) = none → w.contains (backupOf (hookPath dir k)) = false) ∧
          (w.entryAt (slot place k) ≠ none → w.entryAt (spare place k) = none)) := by
  obtain ⟨results, w₁, w₂, hagain, hremoved, hpair⟩ := install_uninstall h hown hdone again
  refine ⟨results, w₁, w₂, hagain, hremoved, hpair, ?_⟩
  rw [hpair]
  refine Pair.restored_eq_iff _ _ fun hfound hnone => ?_
  obtain ⟨v, hv⟩ := opened h
  have hfree : v.entryAt (spare place k) = none := (congrArg Pair.backup hv.pairAt).trans hnone
  rw [← hv.contains, hv.site.contains_backup (hfree ▸ trivial), hfree] at hfound
  cases hfound

end cycle

/-- The first of two installations moves a hook aside, and removing the script brings it back. -/
theorem uninstall_restores_own :
    let theirs : Entry := .file "#!/bin/sh\n".toUTF8 true
    let w := repositoryOf [("pre-commit", theirs)]
    let place := ["w", ".git", "hooks"]
    let dir : Path := ⟨"/", place⟩
    (Site w w.root dir place .preCommit ∨ Unmade w w.root dir place .preCommit) ∧
      (∀ e ∈ w.entryAt (slot place .preCommit), managed e = false) ∧
      ∃ result w', install w.root .preCommit .advisory {} "bastion" w = (.ok result, w') ∧
        ∃ results w₁ w₂, ([(.zeroTolerance, {}, "bastion")].mapM fun x => install w.root .preCommit x.1 x.2.1 x.2.2) w' =
            (.ok results, w₁) ∧
          uninstallAll w.root [.preCommit] w₁ = (.ok [hookPath dir .preCommit], w₂) ∧
          pairAt place .preCommit w₂ = ⟨some theirs, none⟩ := by
  intro theirs w place dir
  have hpresent : Present w w.root dir place := repositoryOf_present (by simp [theirs])
  have hsite := hpresent.site .preCommit
  have hslot : w.entryAt (slot place .preCommit) = some theirs := entryAt_repositoryOf _
  have hspare : w.entryAt (spare place .preCommit) = none := entryAt_repositoryOf _
  have hown : managed theirs = false := (own_iff _).mp (.inl (by simp [CarriesMarker, theirs]; decide))
  have hall : ∀ e ∈ w.entryAt (slot place .preCommit), managed e = false := by
    rw [hslot]
    rintro _ ⟨⟩
    exact hown
  refine ⟨.inl hsite, hall, ?_⟩
  have hdirectory := createDirectories_of_directory hsite.here
  rcases hsite.place_cases (script .preCommit .advisory {} "bastion") with ⟨result, w', hplace, -⟩ | ⟨_, -, -, htaken⟩
  · have hdone : install w.root .preCommit .advisory {} "bastion" w = (.ok result, w') :=
      (install_eq hsite.found hdirectory ..).trans hplace
    obtain ⟨results, w₁, w₂, hagain, hremoved, hpair, -⟩ := uninstall_restores_iff (.inl hsite) hall hdone
      [(.zeroTolerance, {}, "bastion")]
    refine ⟨result, w', hdone, results, w₁, w₂, hagain, hremoved [] [] (by simp) (by simp), ?_⟩
    rw [hpair, pairAt, hslot, hspare]
    rfl
  · rw [hpresent.contains_backup, hspare] at htaken
    cases htaken

/-- Where there was no hook, but a backup from before, the backup is left behind as a hook. -/
theorem uninstall_leaves_hook :
    let old : Entry := .file "#!/bin/sh\necho old\n".toUTF8 false
    let w := repositoryOf [("pre-commit.bastion-backup", old)]
    let place := ["w", ".git", "hooks"]
    pairAt place .preCommit w = ⟨none, some old⟩ ∧
      ∃ result w₁ w₂, install w.root .preCommit .advisory {} "bastion" w = (.ok result, w₁) ∧
        uninstallAll w.root [.preCommit] w₁ = (.ok [⟨"/", place ++ ["pre-commit"]⟩], w₂) ∧
        pairAt place .preCommit w₂ = ⟨some old, none⟩ := by
  intro old w place
  have hpresent : Present w w.root ⟨"/", place⟩ place := repositoryOf_present (by simp [old])
  have hsite := hpresent.site .preCommit
  have hslot : w.entryAt (slot place .preCommit) = none := entryAt_repositoryOf _
  have hspare : w.entryAt (spare place .preCommit) = some old := entryAt_repositoryOf _
  have hfound : w.contains (backupOf (hookPath ⟨"/", place⟩ .preCommit)) = true := by
    rw [hpresent.contains_backup, hspare]
    rfl
  have hpair : pairAt place .preCommit w = ⟨none, some old⟩ := by rw [pairAt, hslot, hspare]
  obtain ⟨result, w₁, hplace, -⟩ := hsite.place_of_managed (script .preCommit .advisory {} "bastion")
    (by simp [hslot])
  have hdone : install w.root .preCommit .advisory {} "bastion" w = (.ok result, w₁) :=
    (install_eq hsite.found (createDirectories_of_directory hsite.here) ..).trans hplace
  obtain ⟨results, w₂, w₃, hagain, hremoved, hrestored⟩ :=
    install_uninstall (.inl hsite) (by simp [hslot]) hdone []
  cases hagain
  refine ⟨hpair, result, w₁, w₃, hdone, hremoved [] [] (by simp) (by simp), ?_⟩
  rw [hrestored, hpair, hfound]
  rfl

end QualityGate.Hook
