import Mathlib
import QualityGate.Proofs.Hook.Effect

/-! No hook of the user's own is lost, whatever is installed and removed and in
whatever order. -/

namespace QualityGate.Hook

open Workspace Relation

/-- A file that has the marker among its bytes. -/
def CarriesMarker : Entry → Prop
  | .file data _ => Text.Utf8.asciiBytes marker.toList <:+: data.data.toList
  | _ => False

/-- A file of the user's own: the marker is not in its bytes, or it is not read there because the file is no text. -/
def Own (e : Entry) : Prop := ¬ CarriesMarker e ∨ managed e = false

theorem own_iff (e : Entry) : Own e ↔ managed e = false := by
  refine ⟨fun h => h.elim (fun hmarker => ?_) id, .inr⟩
  cases e with
  | file data executable => exact Bool.eq_false_iff.mpr fun hmanaged => hmarker (marker_of_managed hmanaged)
  | directory => rfl
  | link target => rfl

inductive Call where
  | install (k : HookKind) (level : EnforcementLevel) (tools : Tools) (name : String)
  | installAll (level : EnforcementLevel) (tools : Tools) (name : String) (kinds : List HookKind)
  | uninstallAll (kinds : List HookKind)

/-- The files after a call, which may have failed. -/
def Call.after (project : Path) (w : Workspace) : Call → Workspace
  | .install k level tools name => (Hook.install project k level tools name w).2
  | .installAll level tools name kinds => (Hook.installAll project level tools name kinds w).2
  | .uninstallAll kinds => (Hook.uninstallAll project kinds w).2

def afterAll (project : Path) (calls : List Call) (w : Workspace) : Workspace := calls.foldl (Call.after project) w

/-- Hooks and their backups have moved, if at all, and what stands elsewhere stays there. -/
structure AllMoved (place : List String) (w w' : Workspace) : Prop where
  moves : ∀ k, ReflTransGen Move (pairAt place k w) (pairAt place k w')
  outside : ∀ q ∉ slots place, ∀ e, w.entryAt q = some e → w'.entryAt q = some e

section

variable {w w' : Workspace} {project dir : Path} {place : List String}

theorem allMoved_refl (place : List String) (w : Workspace) : AllMoved place w w := ⟨fun _ => .refl, fun _ _ _ => id⟩

theorem allMoved_trans (u v w : Workspace) (h : AllMoved place u v) (h' : AllMoved place v w) : AllMoved place u w :=
  ⟨fun k => (h.moves k).trans (h'.moves k), fun q hq e he => h'.outside q hq e (h.outside q hq e he)⟩

theorem Moved.all {k : HookKind} (h : Moved place k w w') : AllMoved place w w' := by
  refine ⟨fun k' => ?_, h.outside⟩
  by_cases hk : k' = k
  · rw [hk]
    exact h.moves
  · rw [h.others k' hk]

theorem HooksDirectory.after_install (h : HooksDirectory w project dir place) (k : HookKind) (level : EnforcementLevel)
    (tools : Tools) (name : String) :
    HooksDirectory (install project k level tools name w).2 project dir place ∧
      AllMoved place w (install project k level tools name w).2 := by
  rcases h.install_cases k level tools name with ⟨result, w', hdone, hw', hplaced⟩ | ⟨message, hfailed⟩
  · rw [hdone]
    exact ⟨hw'.toHooksDirectory, hplaced.toMoved.all⟩
  · rw [hfailed]
    exact ⟨h, allMoved_refl place w⟩

theorem uninstallAll_state (hknown : Git.hooksDirectory? w project = .ok (some dir)) (kinds : List HookKind) :
    (uninstallAll project kinds w).2 =
      (((kinds.mapM fun k => uninstall (dir.child (Labelled.label k))) : Edit (List (Option Path))) w).2 := by
  rw [uninstallAll, Edit.get_bind, Edit.bind_of_ok (Edit.lift_of_ok hknown)]
  dsimp only
  exact Edit.bind_state (P := fun v => v = _) rfl fun removed v hv => by rw [hv]; rfl

/-- What one call preserves. -/
theorem HooksDirectory.after_call (h : HooksDirectory w project dir place) (c : Call) :
    HooksDirectory (c.after project w) project dir place ∧ AllMoved place w (c.after project w) := by
  cases c with
  | install k level tools name => exact h.after_install k level tools name
  | installAll level tools name kinds =>
    exact Edit.mapM_keeps (P := fun v => HooksDirectory v project dir place) (allMoved_refl place) allMoved_trans kinds
      (fun k _ v hv => hv.after_install k level tools name) h
  | uninstallAll kinds =>
    rw [Call.after, uninstallAll_state h.known]
    refine Edit.mapM_keeps (P := fun v => HooksDirectory v project dir place) (allMoved_refl place) allMoved_trans kinds
      (fun k _ v hv => ?_) h
    obtain ⟨result, w', hdone, hw', hmoved⟩ := hv.uninstall_cases k
    rw [hdone]
    exact ⟨hw', hmoved.all⟩

/-- What any number of calls preserves. -/
theorem HooksDirectory.after_calls (h : HooksDirectory w project dir place) (calls : List Call) :
    HooksDirectory (afterAll project calls w) project dir place ∧ AllMoved place w (afterAll project calls w) := by
  induction calls generalizing w with
  | nil => exact ⟨h, allMoved_refl place w⟩
  | cons c calls ih =>
    obtain ⟨hw', hmoved⟩ := h.after_call c
    obtain ⟨hlast, hrest⟩ := ih hw'
    exact ⟨hlast, allMoved_trans _ _ _ hmoved hrest⟩

/-! Installing once more. -/

theorem Present.of_unchanged (h : Present w project dir place) (hsame : Unchanged w w') :
    Present w' project dir place := by
  have hplain (s : List String) (hs : s ∈ slots place) : Plain (w'.entryAt s) := hsame.entryAt ▸ h.plain s hs
  exact h.of_agree ⟨hsame.root.symm, fun q _ => by rw [hsame.entryAt], h.plain, fun s hs => (hplain s hs).unlinked⟩
    hplain

section again

variable {level : EnforcementLevel} {tools : Tools} {name : String} {kinds : List HookKind}

/-- Whether a hook is the script that is installed with some level, tools and section. -/
def IsScript (place : List String) (level : EnforcementLevel) (tools : Tools) (name : String) (w : Workspace)
    (k : HookKind) : Prop :=
  w.entryAt (slot place k) = some (.file (script k level tools name).toUTF8 true)

theorem Placed.keeps {k : HookKind} (h : Placed place k (script k level tools name) w w') {k' : HookKind}
    (hscript : IsScript place level tools name w k') : IsScript place level tools name w' k' := by
  by_cases hk : k' = k
  · rw [hk]
    exact h.hook
  · exact (congrArg Pair.hook (h.others k' hk)).trans hscript

theorem HooksDirectory.install_placed (h : HooksDirectory w project dir place) {k : HookKind} {result : Installed}
    (hdone : install project k level tools name w = (.ok result, w')) :
    Present w' project dir place ∧ Placed place k (script k level tools name) w w' := by
  rcases h.install_cases k level tools name with ⟨result', v, hv, hpresent, hplaced⟩ | ⟨message, hfailed⟩
  · rw [hv] at hdone
    obtain ⟨-, rfl⟩ := Prod.mk.inj hdone
    exact ⟨hpresent, hplaced⟩
  · rw [hfailed] at hdone
    cases hdone

/-- Hooks that were installed one after the other are all there in the end. -/
theorem HooksDirectory.installAll_scripts (h : HooksDirectory w project dir place) {results : List Installed}
    (hdone : installAll project level tools name kinds w = (.ok results, w')) :
    (∀ k, IsScript place level tools name w k → IsScript place level tools name w' k) ∧
      (Present w project dir place ∨ kinds ≠ [] → Present w' project dir place) ∧
      ∀ k ∈ kinds, IsScript place level tools name w' k := by
  induction kinds generalizing w results with
  | nil =>
    cases hdone
    exact ⟨fun _ => id, by simp, nofun⟩
  | cons k kinds ih =>
    rw [installAll, List.mapM_cons] at hdone
    obtain ⟨result, v, hfirst, hrest⟩ := Edit.bind_eq_ok hdone
    obtain ⟨rest, v', hlast, hpure⟩ := Edit.bind_eq_ok hrest
    obtain ⟨-, rfl⟩ := Prod.mk.inj hpure
    obtain ⟨hv, hplaced⟩ := h.install_placed hfirst
    obtain ⟨hkept, hpresent, hall⟩ := ih hv.toHooksDirectory hlast
    refine ⟨fun k' hk' => hkept k' (hplaced.keeps hk'), fun _ => hpresent (.inl hv), ?_⟩
    exact List.forall_mem_cons.mpr ⟨hkept k hplaced.hook, hall⟩

theorem Present.installAll_again (h : Present w project dir place)
    (hall : ∀ k ∈ kinds, IsScript place level tools name w k) :
    ∃ results w', installAll project level tools name kinds w = (.ok results, w') ∧ Unchanged w w' := by
  induction kinds generalizing w with
  | nil => exact ⟨[], w, rfl, Unchanged.refl w⟩
  | cons k kinds ih =>
    obtain ⟨hhead, htail⟩ := List.forall_mem_cons.mp hall
    obtain ⟨result, v, hfirst, hsame⟩ := h.install_again k level tools name hhead
    have htail' (k' : HookKind) (hk' : k' ∈ kinds) : IsScript place level tools name v k' := by
      rw [IsScript, hsame.entryAt]
      exact htail k' hk'
    obtain ⟨results, w', hrest, hsame'⟩ := ih (h.of_unchanged hsame) htail'
    refine ⟨result :: results, w', ?_, hsame.trans hsame'⟩
    rw [installAll, List.mapM_cons, Edit.bind_of_ok hfirst]
    exact Edit.bind_of_ok hrest

end again

/-- In a hooks directory in which every hook and backup is a file or missing, any calls leave each file of the user's
own in the hook or the backup of its kind, as it was. No call loses one: what it does to a hook and its backup is a
chain of moves, and what stands elsewhere stays there. An installation that fails because of a backup changes nothing,
and one that has succeeded changes nothing when it is done again. -/
theorem own_hooks_kept (h : HooksDirectory w project dir place) (calls : List Call) :
    (∀ k e, Own e → w.entryAt (slot place k) = some e ∨ w.entryAt (spare place k) = some e →
      (afterAll project calls w).entryAt (slot place k) = some e ∨
        (afterAll project calls w).entryAt (spare place k) = some e) ∧
    (∀ c : Call,
      AllMoved place (afterAll project calls w) (c.after project (afterAll project calls w)) ∧
      ∀ k, ownFiles (pairAt place k (c.after project (afterAll project calls w))) = ownFiles (pairAt place k w)) ∧
    (∀ k level tools name message v,
      install project k level tools name (afterAll project calls w) = (.error (.hook message), v) →
      v = afterAll project calls w) ∧
    (∀ k level tools name result v,
      install project k level tools name (afterAll project calls w) = (.ok result, v) →
      ∃ result' v', install project k level tools name v = (.ok result', v') ∧ Unchanged v v') ∧
    ∀ level tools name kinds results v,
      installAll project level tools name kinds (afterAll project calls w) = (.ok results, v) →
      ∃ results' v', installAll project level tools name kinds v = (.ok results', v') ∧ Unchanged v v' := by
  obtain ⟨hw', hmoved⟩ := h.after_calls calls
  have hown (k : HookKind) := ownFiles_eq_of_moves (hmoved.moves k)
  refine ⟨fun k e he hstood => ?_, fun c => ?_, fun k level tools name message v hfailed => ?_,
    fun k level tools name result v hdone => ?_, fun level tools name kinds results v hdone => ?_⟩
  · have hmem : e ∈ ownFiles (pairAt place k w) := mem_ownFiles.mpr ⟨hstood, (own_iff e).mp he⟩
    rw [hown k] at hmem
    exact (mem_ownFiles.mp hmem).1
  · have hcall := (hw'.after_call c).2
    exact ⟨hcall, fun k => ((hown k).trans (ownFiles_eq_of_moves (hcall.moves k))).symm⟩
  · rcases hw'.install_cases k level tools name with ⟨result, v', hdone, -⟩ | ⟨message', hrefused⟩
    · rw [hdone] at hfailed
      cases hfailed
    · rw [hrefused] at hfailed
      exact (Prod.mk.inj hfailed).2.symm
  · obtain ⟨hv, hplaced⟩ := hw'.install_placed hdone
    exact hv.install_again k level tools name hplaced.hook
  · obtain ⟨-, hpresent, hall⟩ := hw'.installAll_scripts hdone
    by_cases hkinds : kinds = []
    · subst hkinds
      exact ⟨[], v, rfl, Unchanged.refl v⟩
    · exact (hpresent (.inr hkinds)).installAll_again hall

theorem entryAt_of_deep {n : Nat} (hentries : ∀ x ∈ w.entries, x.1.length < n) (hroot : w.root.parts.length < n)
    {q : List String} (hq : n ≤ q.length) : w.entryAt q = none := by
  have habove : ¬ q.isPrefixOf w.root.parts = true := fun hunder => by
    have hshort := (List.isPrefixOf_iff_prefix.mp hunder).length_le
    omega
  rw [entryAt, if_neg habove]
  refine List.lookup_eq_none_iff.mpr fun x hx => ?_
  have hne : q ≠ x.1 := fun he => absurd (hentries x hx) (by rw [← he]; omega)
  simpa using hne

/-- A hook that is no text is moved aside, and back when the script over it is removed. -/
theorem own_hooks_kept_undecodable :
    let theirs : Entry := .file ⟨#[0xff]⟩ true
    let place := ["w", ".git", "hooks"]
    let w : Workspace :=
      { root := ⟨"/", ["w"]⟩
        entries := [(["w", ".git"], .directory), (place, .directory), (place ++ ["pre-commit"], theirs)] }
    let calls : List Call := [.install .preCommit .advisory {} "bastion", .uninstallAll [.prePush, .preCommit]]
    HooksDirectory w w.root ⟨"/", place⟩ place ∧ Own theirs ∧ w.entryAt (slot place .preCommit) = some theirs ∧
      ((afterAll w.root calls w).entryAt (slot place .preCommit) = some theirs ∨
        (afterAll w.root calls w).entryAt (spare place .preCommit) = some theirs) := by
  intro theirs place w calls
  have hgit : w.locate (w.root.child ".git") = .ok ⟨["w", ".git"], some .directory⟩ := by
    simp [w, locate, absolute, Path.join, Path.isAbsolute, Path.child, walk, entryAt]
  have hdir : w.locate ⟨"/", place⟩ = .ok ⟨place, some .directory⟩ := by
    simp [w, place, locate, absolute, Path.join, Path.isAbsolute, walk, entryAt, List.lookup]
  have hdirectory : Git.directory? w w.root = .ok (some (w.root.child ".git")) := by
    rw [Git.directory?, if_pos (isDirectory_iff.mpr ⟨_, hgit⟩)]
  have hplain : ∀ s ∈ slots place, Plain (w.entryAt s) := by
    intro s hs
    obtain ⟨k, rfl | rfl⟩ := mem_slots.mp hs <;> cases k <;> exact trivial
  have halone : ∀ s ∈ slots place, ∀ rest ≠ [], w.entryAt (s ++ rest) = none := by
    intro s hs rest hrest
    have hpos := List.length_pos_iff.mpr hrest
    have hlength : (s ++ rest).length = 4 + rest.length := by rw [List.length_append, length_of_mem_slots hs]; rfl
    exact entryAt_of_deep (n := 5) (by decide) (by decide) (by omega)
  have hw : HooksDirectory w w.root ⟨"/", place⟩ place :=
    ⟨Git.hooksDirectory_eq_some.mpr ⟨_, hdirectory, rfl⟩, .inl hdir, hplain, halone, _, _, hgit, by decide⟩
  have hown : Own theirs := .inl (by simp [CarriesMarker, theirs]; decide)
  exact ⟨hw, hown, rfl, (own_hooks_kept hw calls).1 .preCommit theirs hown (.inl rfl)⟩

end

end QualityGate.Hook
