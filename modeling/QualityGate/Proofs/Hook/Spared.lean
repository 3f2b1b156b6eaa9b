import Mathlib
import QualityGate.Git.Store
import QualityGate.Proofs.Hook.Site
import QualityGate.Proofs.Run
import QualityGate.Proofs.Workspace.Spared

/-! Installing hooks, removing them and setting what they read spares every file
that has another name and does not lie below a hook. -/

namespace QualityGate

open Workspace

/-- A place that is not named as something that is made or written when hooks are installed. -/
structure Elsewhere (name : String) (place : List String) : Prop where
  last : place.getLast? = some name
  slot : ∀ k : HookKind, Labelled.label k ≠ name
  hooks : name ≠ "hooks"
  config : name ≠ "config"

/-- No link leads to a file of the name, and the hooks of a project and their backups are not on the way to any of the
places, nor will they be as long as the ways are kept. -/
structure Clear (name : String) (ways : List (List String)) (project : Path) (w : Workspace) : Prop where
  unaimed : Unaimed name w
  hooks : ∀ v, KeepsWays ways w v → ∀ dir, Git.hooksDirectory? v project = .ok (some dir) → ∀ u, KeepsWays ways v u →
    ∀ k, OffWays ways u (Hook.hookPath dir k) ∧ OffWays ways u (Hook.backupOf (Hook.hookPath dir k))

theorem Clear.kept {name : String} {ways : List (List String)} {project : Path} {w w' : Workspace}
    (h : Clear name ways project w) (hkept : KeepsWays ways w w') : Clear name ways project w' :=
  ⟨hkept.unaimed h.unaimed, fun v hv => h.hooks v (hkept.trans hv)⟩

namespace Edit

variable {α β : Type} {ways : List (List String)} {place : List String} {w : Workspace}

theorem spares_lift (o : Outcome α) : Spares ways place w (lift o w).2 := by
  cases o <;> exact .refl ways place w

theorem spares_change {g : Workspace → Outcome Workspace} (h : ∀ w', g w = .ok w' → Spares ways place w w') :
    Spares ways place w (change g w).2 := by
  cases hg : g w with
  | ok v =>
    rw [change_of_ok hg]
    exact h v hg
  | error e =>
    rw [change_of_error hg]
    exact .refl ways place w

theorem spares_bind {x : Edit α} {f : α → Edit β} (hx : Spares ways place w (x w).2)
    (hf : ∀ a v, KeepsWays ways w v → Spares ways place v (f a v).2) : Spares ways place w ((x >>= f) w).2 := by
  refine bind_state hx fun a v hgo => ?_
  rw [hgo] at hx
  exact hx.trans (hf a v hx.toKeepsWays)

theorem spares_mapM {f : α → Edit β} (as : List α)
    (h : ∀ a v, KeepsWays ways w v → Spares ways place v (f a v).2) : Spares ways place w (as.mapM f w).2 :=
  (mapM_keeps (P := KeepsWays ways w) (Spares.refl ways place) (fun _ _ _ => Spares.trans) as
    (fun a _ v hv => ⟨hv.trans (h a v hv).toKeepsWays, h a v hv⟩) (.refl ways w)).2

end Edit

namespace Git

variable {ways : List (List String)} {place : List String} {name : String} {w w' : Workspace} {project target dir : Path}

theorem isDirectory_of_directory (h : directory? w project = .ok (some target)) : w.isDirectory target = true := by
  rw [directory?] at h
  by_cases hdir : w.isDirectory (project.child ".git") = true
  · rw [if_pos hdir] at h
    cases h
    exact hdir
  rw [if_neg hdir] at h
  split at h
  case isFalse => cases h
  case isTrue =>
    obtain ⟨text, -, h⟩ := Outcome.bind_eq_ok h
    dsimp only at h
    split at h
    case isFalse => cases h
    case isTrue =>
      obtain ⟨there, -, h⟩ := Outcome.bind_eq_ok h
      by_cases hthere : w.isDirectory there = true
      · rw [if_pos hthere] at h
        cases h
        exact hthere
      · rw [if_neg hthere] at h
        cases h

/-- Where a value is set, the configuration of a repository is written. -/
theorem exists_write_of_withValueAt? {key value : String} (h : withValueAt? w dir key value = some w') :
    ∃ r data, w.write (configFile r) data = .ok w' := by
  unfold withValueAt? at h
  split at h
  case isTrue => cases h
  case isFalse =>
    simp only [Option.bind_eq_bind, Option.bind_some] at h
    obtain ⟨⟨r, f⟩, -, h⟩ := Option.bind_eq_some_iff.mp h
    obtain ⟨_, -, h⟩ := Option.bind_eq_some_iff.mp h
    split at h
    case h_2 => cases h
    case h_1 =>
      split at h
      case isTrue => cases h
      case isFalse =>
        obtain ⟨text, -, h⟩ := Option.bind_eq_some_iff.mp h
        obtain ⟨text', -, h⟩ := Option.bind_eq_some_iff.mp h
        cases hwrite : w.write (configFile r) (toBytes text') with
        | error e =>
          rw [hwrite] at h
          cases h
        | ok v =>
          rw [hwrite] at h
          exact ⟨r, _, Option.some.inj h ▸ hwrite⟩

theorem spares_withValueAt? (h : Elsewhere name place) (hw : Unaimed name w) {key value : String}
    (hset : withValueAt? w dir key value = some w') : Spares ways place w w' := by
  obtain ⟨r, data, hwrite⟩ := exists_write_of_withValueAt? hset
  exact spares_write h.last hw (Ne.symm h.config) hwrite

theorem setConfig_spares (h : Elsewhere name place) (c : Command) (key value : String) (hw : Unaimed name w) :
    Spares ways place w (c.setConfig dir key value w).2 := by
  rw [Command.setConfig, Edit.get_bind]
  refine Edit.spares_bind (Edit.spares_lift _) fun started v hv => ?_
  rw [Edit.get_bind]
  cases hset : if started && c.isInstalled then withValueAt? v dir key value else none with
  | none => exact .refl ways place v
  | some v' =>
    split at hset
    case isTrue => exact spares_withValueAt? h (hv.unaimed hw) hset
    case isFalse => cases hset

theorem configureProtection_spares (h : Elsewhere name place) (c : Command) (sectionName : String)
    (protection strict : Bool) (hw : Unaimed name w) :
    Spares ways place w (c.configureProtection dir sectionName protection strict w).2 :=
  Edit.spares_bind (setConfig_spares h c _ _ hw) fun _ _ hv =>
    Edit.spares_bind (setConfig_spares h c _ _ (hv.unaimed hw)) fun _ _ _ => .refl ways place _

end Git

namespace Hook

variable {ways : List (List String)} {place : List String} {name : String} {w : Workspace} {project dir : Path}

theorem label_ne_dots (k : HookKind) : Labelled.label k ≠ ".." ∧ Labelled.label k ++ backupSuffix ≠ ".." := by
  cases k <;> decide

/-- Where no hook's name and no backup's is on the ways, no hook is. -/
theorem clear_of_named (hw : Unaimed name w)
    (h : ∀ way ∈ ways, ∀ k : HookKind, Labelled.label k ∉ way ∧ Labelled.label k ++ backupSuffix ∉ way) :
    Clear name ways project w := by
  refine ⟨hw, fun v _ dir _ u _ k => ?_⟩
  obtain ⟨hdots, hdots'⟩ := label_ne_dots k
  rw [backupOf_hookPath]
  exact ⟨offWays_of_named hdots fun way hway => (h way hway k).1, offWays_of_named hdots' fun way hway => (h way hway k).2⟩

/-- Where the hooks directory of a project is found in it, and past no link. -/
def site (project : Path) : Path := (project.child ".git").child "hooks"

theorem hooksDirectory_of_unlinked (hdots : ".." ∉ (w.absolute (site project)).parts)
    (hunlinked : Unlinked w (w.absolute (site project)).parts)
    (hgit : w.entryAt (w.absolute (project.child ".git")).parts = some .directory)
    (hfound : Git.hooksDirectory? w project = .ok (some dir)) : dir = site project := by
  obtain ⟨target, htarget, rfl⟩ := Git.hooksDirectory_eq_some.mp hfound
  rw [Git.directory?] at htarget
  split at htarget
  case isTrue => rw [← Option.some.inj (Except.ok.inj htarget), site]
  split at htarget
  case isFalse => cases htarget
  case isTrue hfile =>
    obtain ⟨q, data, executable, hlocate⟩ := isFile_iff.mp hfile
    have habove : (w.absolute (project.child ".git")).parts <+: (w.absolute (site project)).parts :=
      absolute_child w (project.child ".git") "hooks" ▸ List.prefix_append _ _
    obtain ⟨rfl, hentry, -⟩ := walk_above hdots hunlinked habove hlocate
    rw [hgit] at hentry
    cases hentry

theorem clear_of_unlinked (hw : Unaimed name w) (hdots : ".." ∉ (w.absolute (site project)).parts)
    (hunlinked : Unlinked w (w.absolute (site project)).parts)
    (hgit : w.entryAt (w.absolute (project.child ".git")).parts = some .directory)
    (hsite : (w.absolute (site project)).parts ∈ ways)
    (h : ∀ way ∈ ways, ∀ s, ¬ (w.absolute (site project)).parts ++ [s] <+: way) : Clear name ways project w := by
  refine ⟨hw, fun v hv dir hfound u hu k => ?_⟩
  have hplace {u : Workspace} (hu : KeepsWays ways w u) (p : Path) : u.absolute p = w.absolute p := by
    rw [absolute, absolute, hu.root]
  have habove : (w.absolute (project.child ".git")).parts <+: (w.absolute (site project)).parts :=
    absolute_child w (project.child ".git") "hooks" ▸ List.prefix_append _ _
  obtain rfl : dir = site project := by
    refine hooksDirectory_of_unlinked ?_ ?_ ?_ hfound
    · rwa [hplace hv]
    · rw [hplace hv]
      exact hv.unlinked_place hsite hunlinked
    · rw [hplace hv]
      exact hv.above _ hsite _ habove hgit
  obtain ⟨hlabel, hbackup⟩ := label_ne_dots k
  have hoff {s : String} (hs : s ≠ "..") : OffWays ways u ((site project).child s) := by
    have hkept := hv.trans hu
    refine offWays_of_unlinked ?_ hs ?_ fun way hway => ?_
    · rwa [hplace hkept]
    · rw [hplace hkept]
      exact hkept.unlinked_place hsite hunlinked
    · rw [hplace hkept]
      exact h way hway s
  rw [backupOf_hookPath]
  exact ⟨hoff hlabel, hoff hbackup⟩

theorem makeRoom_spares (hplace : place ∈ ways) {k : HookKind} (text : String) (hoff : OffWays ways w (hookPath dir k))
    (hoff' : OffWays ways w (backupOf (hookPath dir k))) : Spares ways place w (makeRoom (hookPath dir k) text w).2 := by
  rw [makeRoom, Edit.get_bind]
  split
  · exact .refl ways place w
  split
  · exact Edit.spares_bind (Edit.spares_lift _) fun _ _ _ => .refl ways place _
  dsimp only
  split
  · exact .refl ways place w
  · refine Edit.spares_bind (Edit.spares_change fun w' hrename => ?_) fun _ _ _ => .refl ways place _
    exact spares_renamed hoff hoff' hplace hrename

theorem install_spares (h : Elsewhere name place) (hplace : place ∈ ways) (level : EnforcementLevel) (tools : Tools)
    (sectionName : String) (k : HookKind) (hw : Clear name ways project w) :
    Spares ways place w (install project k level tools sectionName w).2 := by
  rw [install, Edit.get_bind]
  cases hfound : Git.hooksDirectory? w project with
  | error e => exact .refl ways place w
  | ok found =>
    rw [Edit.bind_of_ok (Edit.lift_of_ok rfl)]
    cases found with
    | none => exact .refl ways place w
    | some dir =>
      have hoff := hw.hooks w (.refl ways w) dir hfound
      obtain ⟨target, htarget, rfl⟩ := Git.hooksDirectory_eq_some.mp hfound
      refine Edit.spares_bind (Edit.spares_change fun w' hmade => ?_) fun _ v hv => ?_
      · exact spares_createDirectories h.last (Ne.symm h.hooks) (by decide) (Git.isDirectory_of_directory htarget) hmade
      refine Edit.spares_bind (makeRoom_spares hplace _ (hoff v hv k).1 (hoff v hv k).2) fun _ u hu => ?_
      have hu := hv.trans hu
      refine Edit.spares_bind (Edit.spares_change fun w' hwrite => ?_) fun _ x hx => ?_
      · exact spares_write h.last (hu.unaimed hw.unaimed) (h.slot k) hwrite
      refine Edit.spares_bind (Edit.spares_change fun w' hmade => ?_) fun _ _ _ => .refl ways place _
      exact spares_makeExecutable h.last ((hu.trans hx).unaimed hw.unaimed) (h.slot k) hmade

theorem installAll_spares (h : Elsewhere name place) (hplace : place ∈ ways) (level : EnforcementLevel) (tools : Tools)
    (sectionName : String) (kinds : List HookKind) (hw : Clear name ways project w) :
    Spares ways place w (installAll project level tools sectionName kinds w).2 :=
  Edit.spares_mapM kinds fun k _ hv => install_spares h hplace level tools sectionName k (hw.kept hv)

theorem uninstall_spares (h : Elsewhere name place) (hplace : place ∈ ways) (k : HookKind)
    (hoff : ∀ v, KeepsWays ways w v → OffWays ways v (hookPath dir k) ∧ OffWays ways v (backupOf (hookPath dir k))) :
    Spares ways place w (uninstall (hookPath dir k) w).2 := by
  rw [uninstall, Edit.get_bind]
  split
  · exact .refl ways place w
  refine Edit.spares_bind (Edit.spares_change fun w' hremove => ?_) fun _ v hv => ?_
  · exact spares_remove h.last (h.slot k) (label_ne_dots k).1 hremove
  dsimp only
  rw [Edit.get_bind]
  split
  · refine Edit.spares_bind (Edit.spares_change fun w' hrename => ?_) fun _ _ _ => .refl ways place _
    exact spares_renamed (hoff v hv).2 (hoff v hv).1 hplace hrename
  · exact .refl ways place v

theorem uninstallAll_spares (h : Elsewhere name place) (hplace : place ∈ ways) (kinds : List HookKind)
    (hw : Clear name ways project w) : Spares ways place w (uninstallAll project kinds w).2 := by
  rw [uninstallAll, Edit.get_bind]
  cases hfound : Git.hooksDirectory? w project with
  | error e => exact .refl ways place w
  | ok found =>
    rw [Edit.bind_of_ok (Edit.lift_of_ok rfl)]
    cases found with
    | none => exact .refl ways place w
    | some dir =>
      have hoff := hw.hooks w (.refl ways w) dir hfound
      refine Edit.spares_bind (Edit.spares_mapM kinds fun k v hv => ?_) fun _ _ _ => .refl ways place _
      exact uninstall_spares h hplace k fun u hu => hoff u (hv.trans hu) k

end Hook

end QualityGate
