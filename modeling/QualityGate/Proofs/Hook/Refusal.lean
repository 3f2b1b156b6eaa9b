import Mathlib
import QualityGate.Proofs.Check.Settled
import QualityGate.Proofs.Hook.Cycle

/-! An installation that is refused. The refusal itself changes nothing, but the
hooks that were installed before it stay. -/

namespace QualityGate

/-- No failure that is a refusal to install a hook. -/
def Unrefused {α : Type} (o : Outcome α) : Prop := ∀ message, o ≠ .error (.hook message)

namespace Unrefused

variable {α β : Type}

@[simp] theorem ok (a : α) : Unrefused (.ok a : Outcome α) := nofun

theorem error {e : Failure} (h : ∀ message, e ≠ .hook message) : Unrefused (.error e : Outcome α) :=
  fun message he => h message (Except.error.inj he)

theorem bind {o : Outcome α} {f : α → Outcome β} (h : Unrefused o) (hf : ∀ a, Unrefused (f a)) :
    Unrefused (o >>= f) := by
  cases o with
  | ok a => exact hf a
  | error e => exact error fun message he => h message (by rw [he])

theorem mapError {ε : Type} {r : Except ε α} {f : ε → Failure} (hf : ∀ x message, f x ≠ .hook message) :
    Unrefused (r.mapError f) := by
  cases r with
  | ok a => exact ok a
  | error x => exact error (hf x)

end Unrefused

namespace Workspace

variable {w w' : Workspace} {p q : Path}

theorem unrefused_readText (w : Workspace) (p : Path) : Unrefused (w.readText p) := by
  have hbytes : Unrefused (w.readBytes p) := by
    unfold readBytes
    split
    · exact .ok _
    · exact .error nofun
    · exact .error nofun
  exact hbytes.bind fun data => (Unrefused.mapError nofun).bind fun text => .ok _

theorem unrefused_resolve (w : Workspace) (p : Path) : Unrefused (w.resolve p) := by
  unfold resolve
  rcases w.resolve_go_cases linkLimit [] (w.absolute p).parts with ⟨q, hq⟩ | ⟨detail, he⟩
  · rw [hq]
    exact .ok q
  · rw [he]
    exact .error nofun

theorem unrefused_write (w : Workspace) (p : Path) (s : String) : Unrefused (w.writeText p s) := by
  unfold writeText write
  split
  · exact .ok _
  · exact .ok _
  · exact .error nofun
  · exact .error nofun

theorem unrefused_makeExecutable (w : Workspace) (p : Path) : Unrefused (w.makeExecutable p) := by
  unfold makeExecutable
  split
  · exact .ok _
  · exact .ok _
  · exact .error nofun
  · exact .error nofun

theorem unrefused_rename (w : Workspace) (p q : Path) : Unrefused (w.rename p q) := by
  unfold rename
  split
  · exact .ok _
  · exact .error nofun
  · exact .error nofun
  · exact .error nofun

/-- Directories are added where nothing stood, and all that stood stays. -/
structure Grown (w w' : Workspace) : Prop where
  root : w'.root = w.root
  entryAt : ∀ q, w'.entryAt q = w.entryAt q ∨ w.entryAt q = none ∧ w'.entryAt q = some .directory

theorem Grown.refl (w : Workspace) : Grown w w := ⟨rfl, fun _ => .inl rfl⟩

theorem Grown.trans {v : Workspace} (h : Grown w v) (h' : Grown v w') : Grown w w' := by
  refine ⟨h'.root.trans h.root, fun q => ?_⟩
  rcases h'.entryAt q with hsame | ⟨hfree, hnew⟩
  · rw [hsame]
    exact h.entryAt q
  · rcases h.entryAt q with hsame | ⟨-, hdir⟩
    · exact .inr ⟨hsame.symm.trans hfree, hnew⟩
    · rw [hdir] at hfree
      cases hfree

theorem createDirectoryAt_cases (w : Workspace) (p : Path) :
    (∃ w', w.createDirectoryAt p (w.locateLink p) = .ok w' ∧ Grown w w') ∨
      ∃ f, w.createDirectoryAt p (w.locateLink p) = .error (.access f p.text) := by
  cases hlocate : w.locateLink p with
  | error f => exact .inr ⟨f, rfl⟩
  | ok l =>
    obtain ⟨place, e⟩ := l
    cases e with
    | some e =>
      rw [createDirectoryAt]
      · split
        · exact .inl ⟨w, rfl, .refl w⟩
        · exact .inr ⟨_, rfl⟩
      · simp
    | none =>
      have hfree : w.entryAt place = none := by
        rcases walk_agree (Agree.refl w) hlocate with ⟨hdir, -⟩ | ⟨hentry, -⟩
        · cases hdir
        · exact hentry
      have hput := replaced_put (hfree ▸ plain_none) .directory
      refine .inl ⟨_, rfl, hput.root, fun q => ?_⟩
      by_cases hq : q = place
      · subst hq
        exact .inr ⟨hfree, hput.self⟩
      · exact .inl (hput.of_ne hq)

theorem createDirectories_go_cases (n : Nat) (w : Workspace) (p : Path) :
    (∃ w', createDirectories.go w n p = .ok w' ∧ Grown w w') ∨
      ∃ f q, createDirectories.go w n p = .error (.access f q) := by
  induction n generalizing p with
  | zero =>
    rw [createDirectories.go]
    exact (createDirectoryAt_cases w p).imp_right fun h => h.imp fun _ hf => ⟨_, hf⟩
  | succ n ih =>
    rw [createDirectories.go]
    split
    · rcases ih p.parent with ⟨v, hv, hgrown⟩ | ⟨f, q, hf⟩
      · rw [Outcome.bind_of_ok hv]
        rcases createDirectoryAt_cases v p with ⟨w', hw', hgrown'⟩ | ⟨f, hf⟩
        · exact .inl ⟨w', hw', hgrown.trans hgrown'⟩
        · exact .inr ⟨f, _, hf⟩
      · rw [Outcome.bind_of_error hf]
        exact .inr ⟨f, q, rfl⟩
    · exact (createDirectoryAt_cases w p).imp_right fun h => h.imp fun _ hf => ⟨_, hf⟩

theorem unrefused_createDirectories (w : Workspace) (p : Path) : Unrefused (w.createDirectories p) := by
  rcases createDirectories_go_cases p.parts.length w p with ⟨w', hw', -⟩ | ⟨f, q, hf⟩
  · rw [createDirectories, hw']
    exact .ok w'
  · rw [createDirectories, hf]
    exact .error (by simp)

theorem grown_of_createDirectories (h : w.createDirectories p = .ok w') : Grown w w' := by
  rcases createDirectories_go_cases p.parts.length w p with ⟨v, hv, hgrown⟩ | ⟨f, q, hf⟩
  · rw [createDirectories, hv] at h
    exact Except.ok.inj h ▸ hgrown
  · rw [createDirectories, hf] at h
    cases h

end Workspace

theorem Git.unrefused_hooksDirectory (w : Workspace) (project : Path) :
    Unrefused (hooksDirectory? w project) := by
  refine .bind ?_ fun target => .ok _
  unfold directory?
  dsimp only
  split
  · exact .ok _
  split
  · refine (w.unrefused_readText _).bind fun text => ?_
    split
    · refine .bind ?_ fun target => .ok _
      unfold pointed
      dsimp only
      split
      · exact .ok _
      · exact w.unrefused_resolve _
    · exact .ok _
  · exact .ok _

namespace Edit

variable {α β : Type} {w w' : Workspace} {e : Failure} {message : String}

theorem bind_eq_error {x : Edit α} {f : α → Edit β} (h : (x >>= f) w = (.error e, w')) :
    x w = (.error e, w') ∨ ∃ a v, x w = (.ok a, v) ∧ f a v = (.error e, w') := by
  cases hx : x w with
  | mk r v =>
    cases r with
    | ok a =>
      rw [bind_of_ok hx] at h
      exact .inr ⟨a, v, rfl, h⟩
    | error e' =>
      rw [bind_of_error hx] at h
      cases h
      exact .inl rfl

/-- A list of edits fails at one of them, and those before it are done. -/
theorem mapM_eq_error {f : α → Edit β} {as : List α} (h : as.mapM f w = (.error e, w')) :
    ∃ done a rest bs v, as = done ++ a :: rest ∧ done.mapM f w = (.ok bs, v) ∧ f a v = (.error e, w') := by
  induction as generalizing w with
  | nil => cases h
  | cons a as ih =>
    rw [List.mapM_cons] at h
    rcases bind_eq_error h with hfirst | ⟨b, v, hfirst, h⟩
    · exact ⟨[], a, as, [], w, rfl, rfl, hfirst⟩
    rcases bind_eq_error h with hlater | ⟨bs, u, -, hpure⟩
    · obtain ⟨done, a', rest, bs, u, rfl, hdone, hfailed⟩ := ih hlater
      refine ⟨a :: done, a', rest, b :: bs, u, rfl, ?_, hfailed⟩
      rw [List.mapM_cons, bind_of_ok hfirst]
      exact bind_of_ok hdone
    · cases hpure

theorem lift_unrefused {o : Outcome α} (ho : Unrefused o) : lift o w ≠ (.error (.hook message), w') := by
  cases o with
  | ok a => nofun
  | error e =>
    intro h
    exact ho message (by rw [Except.error.inj (Prod.mk.inj h).1])

theorem change_unrefused {g : Workspace → Outcome Workspace} (hg : Unrefused (g w)) :
    change g w ≠ (.error (.hook message), w') := by
  cases h : g w with
  | ok v =>
    rw [change_of_ok h]
    nofun
  | error e =>
    rw [change_of_error h]
    intro he
    exact hg message (by rw [h, Except.error.inj (Prod.mk.inj he).1])

end Edit

namespace Hook

open Workspace

variable {w v w' : Workspace} {project dir : Path} {place : List String} {k : HookKind} {message : String}

/-- There is a hook of the user's own and a backup. -/
structure Taken (w : Workspace) (dir : Path) (k : HookKind) : Prop where
  hook : w.contains (hookPath dir k) = true ∨ w.isLink (hookPath dir k) = true
  own : isManagedFile w (hookPath dir k) = false
  backup : w.contains (backupOf (hookPath dir k)) = true

theorem makeRoom_refused {text : String} (h : makeRoom (hookPath dir k) text w = (.error (.hook message), w')) :
    w' = w ∧ Taken w dir k ∧
      message = (backupOf (hookPath dir k)).text ++ " already exists; move it away before installing" := by
  rw [makeRoom, Edit.get_bind] at h
  split at h
  case isTrue => cases h
  case isFalse hthere =>
  split at h
  case isTrue =>
    rcases Edit.bind_eq_error h with hread | ⟨text, v, -, hpure⟩
    · exact absurd hread (Edit.lift_unrefused (w.unrefused_readText _))
    · cases hpure
  case isFalse hown =>
  dsimp only at h
  split at h
  case isTrue hbackup =>
    cases h
    have hhook : w.contains (hookPath dir k) = true ∨ w.isLink (hookPath dir k) = true := by
      by_contra hnone
      simp only [not_or, Bool.not_eq_true] at hnone
      exact hthere (by simp [hnone.1, hnone.2])
    exact ⟨rfl, ⟨hhook, by simpa using hown, hbackup⟩, rfl⟩
  case isFalse =>
    rcases Edit.bind_eq_error h with hrename | ⟨u, v, -, hpure⟩
    · exact absurd hrename (Edit.change_unrefused (w.unrefused_rename _ _))
    · cases hpure

/-- There are two reasons to refuse a hook, and neither leaves more behind than an empty hooks directory. -/
theorem install_refused {level : EnforcementLevel} {tools : Tools} {name : String}
    (h : install project k level tools name w = (.error (.hook message), w')) :
    Grown w w' ∧
      (Git.hooksDirectory? w project = .ok none ∧ message = "Not a git repository: " ++ project.text ∨
        ∃ dir, Git.hooksDirectory? w project = .ok (some dir) ∧ Taken w' dir k ∧
          message = (backupOf (hookPath dir k)).text ++ " already exists; move it away before installing") := by
  rw [install, Edit.get_bind] at h
  cases hknown : Git.hooksDirectory? w project with
  | error e =>
    rcases Edit.bind_eq_error h with hlift | ⟨found, v, hlift, -⟩
    · exact absurd hlift (Edit.lift_unrefused (Git.unrefused_hooksDirectory w project))
    · rw [hknown] at hlift
      cases hlift
  | ok found =>
    rw [Edit.bind_of_ok (Edit.lift_of_ok hknown)] at h
    cases found with
    | none =>
      cases h
      exact ⟨.refl w, .inl ⟨rfl, rfl⟩⟩
    | some dir =>
      dsimp only at h
      rcases Edit.bind_eq_error h with hcreate | ⟨_, v, hcreate, h⟩
      · exact absurd hcreate (Edit.change_unrefused (w.unrefused_createDirectories dir))
      have hgrown := grown_of_createDirectories (Edit.change_eq_ok hcreate)
      rcases Edit.bind_eq_error h with hroom | ⟨room, v₁, -, h⟩
      · obtain ⟨rfl, htaken, hmessage⟩ := makeRoom_refused hroom
        exact ⟨hgrown, .inr ⟨dir, rfl, htaken, hmessage⟩⟩
      rcases Edit.bind_eq_error h with hwrite | ⟨_, v₂, -, h⟩
      · exact absurd hwrite (Edit.change_unrefused (v₁.unrefused_write _ _))
      rcases Edit.bind_eq_error h with hexecutable | ⟨_, v₃, -, hpure⟩
      · exact absurd hexecutable (Edit.change_unrefused (v₂.unrefused_makeExecutable _))
      · cases hpure

variable {level : EnforcementLevel} {tools : Tools} {name : String} {kinds : List HookKind}

theorem HooksDirectory.site_or_unmade (h : HooksDirectory w project dir place) (k : HookKind) :
    Site w project dir place k ∨ Unmade w project dir place k := by
  rcases h.found with hdir | ⟨hstands, hfree, hnone⟩
  · exact .inl (Present.site ⟨h, hdir⟩ k)
  obtain ⟨v, hcreate, hv, -⟩ := h.create hstands hfree
  have hput : w.put place .directory = v :=
    Except.ok.inj ((createDirectories_of_free hstands hfree).symm.trans hcreate)
  exact .inr ⟨h.known, hstands, hfree, hnone _ (slot_mem place k), hnone _ (spare_mem place k), hput ▸ hv.site k⟩

theorem HooksDirectory.contains_backup (h : HooksDirectory w project dir place) (hv : Opened w v project dir place k) :
    v.contains (backupOf (hookPath dir k)) = (w.entryAt (spare place k)).isSome := by
  have hspare : v.entryAt (spare place k) = w.entryAt (spare place k) := congrArg Pair.backup hv.pairAt
  rw [hv.site.contains_backup (hspare ▸ h.plain _ (spare_mem place k)), hspare]

/-- What an installation makes of the hook and its backup. -/
theorem HooksDirectory.install_pair (h : HooksDirectory w project dir place) {result : Installed}
    (hdone : install project k level tools name w = (.ok result, w')) :
    pairAt place k w' = (pairAt place k w).placed (script k level tools name) := by
  obtain ⟨v, hv⟩ := opened (h.site_or_unmade k)
  rw [hv.install_eq] at hdone
  rcases hv.site.place_cases (script k level tools name) with ⟨_, u, hplace, hplaced, -⟩ | ⟨_, hrefused, -⟩
  · rw [hplace] at hdone
    obtain ⟨-, rfl⟩ := Prod.mk.inj hdone
    rw [hplaced.pairAt_self, hv.pairAt]
  · rw [hrefused] at hdone
    cases hdone

theorem placed_again (p : Pair) {text : String} (htext : managed (.file text.toUTF8 true) = true) :
    (p.placed text).placed text = p.placed text := by
  have hold : ∀ e ∈ (p.placed text).hook, managed e = true := by
    rintro _ ⟨⟩
    exact htext
  rw [Pair.placed, Pair.kept_of_managed hold]
  rfl

/-- Hooks that were installed one after the other: each of their kinds has its script, and no other kind is
concerned. -/
structure AllPlaced (place : List String) (level : EnforcementLevel) (tools : Tools) (name : String)
    (kinds : List HookKind) (w w' : Workspace) : Prop where
  placed : ∀ k ∈ kinds, pairAt place k w' = (pairAt place k w).placed (script k level tools name)
  others : ∀ k ∉ kinds, pairAt place k w' = pairAt place k w
  outside : ∀ q ∉ slots place, ∀ e, w.entryAt q = some e → w'.entryAt q = some e

theorem HooksDirectory.installAll_placed (h : HooksDirectory w project dir place) {results : List Installed}
    (hdone : installAll project level tools name kinds w = (.ok results, w')) :
    HooksDirectory w' project dir place ∧ AllPlaced place level tools name kinds w w' := by
  induction kinds generalizing w results with
  | nil =>
    cases hdone
    exact ⟨h, nofun, fun _ _ => rfl, fun _ _ _ => id⟩
  | cons k kinds ih =>
    rw [installAll, List.mapM_cons] at hdone
    obtain ⟨result, v, hfirst, hrest⟩ := Edit.bind_eq_ok hdone
    obtain ⟨rest, v', hlast, hpure⟩ := Edit.bind_eq_ok hrest
    obtain ⟨-, rfl⟩ := Prod.mk.inj hpure
    obtain ⟨hv, hplaced⟩ := h.install_placed hfirst
    have hpair := h.install_pair hfirst
    obtain ⟨hw', hall⟩ := ih hv.toHooksDirectory hlast
    refine ⟨hw', fun k' hk' => ?_, fun k' hk' => ?_, fun q hq e he => hall.outside q hq e (hplaced.outside q hq e he)⟩
    · by_cases hk : k' = k
      · subst hk
        by_cases hagain : k' ∈ kinds
        · rw [hall.placed k' hagain, hpair, placed_again _ (managed_script k' level tools name true)]
        · rw [hall.others k' hagain, hpair]
      · have hmem : k' ∈ kinds := (List.mem_cons.mp hk').resolve_left hk
        rw [hall.placed k' hmem, hplaced.others k' hk]
    · obtain ⟨hk, hmem⟩ := not_or.mp (mt List.mem_cons.mpr hk')
      rw [hall.others k' hmem, hplaced.others k' hk]

/-- A hook of the user's own that has a backup already. -/
def Blocked (place : List String) (w : Workspace) (k : HookKind) : Prop :=
  ∃ own backup, pairAt place k w = ⟨some own, some backup⟩ ∧ managed own = false

theorem HooksDirectory.blocked_of_refused (h : HooksDirectory w project dir place)
    (hrefused : install project k level tools name w = (.error (.hook message), w')) : Blocked place w k := by
  obtain ⟨u, hu⟩ := opened (h.site_or_unmade k)
  rw [hu.install_eq] at hrefused
  rcases hu.site.place_cases (script k level tools name) with ⟨_, _, hplace, -⟩ | ⟨_, -, ⟨own, hslot, hown⟩, hfound⟩
  · rw [hplace] at hrefused
    cases hrefused
  rw [h.contains_backup hu] at hfound
  obtain ⟨backup, hbackup⟩ := Option.isSome_iff_exists.mp hfound
  have hown' : w.entryAt (slot place k) = some own := (congrArg Pair.hook hu.pairAt).symm.trans hslot
  exact ⟨own, backup, by rw [pairAt, hown', hbackup], hown⟩

/-- Hooks are installed up to one that is refused, and stay installed. -/
theorem installAll_refused (hfailed : installAll project level tools name kinds w = (.error (.hook message), w')) :
    ∃ done k rest results v, kinds = done ++ k :: rest ∧
      installAll project level tools name done w = (.ok results, v) ∧
      install project k level tools name v = (.error (.hook message), w') ∧ Grown v w' := by
  obtain ⟨done, k, rest, results, v, hkinds, hdone, hrefused⟩ := Edit.mapM_eq_error hfailed
  exact ⟨done, k, rest, results, v, hkinds, hdone, hrefused, (install_refused hrefused).1⟩

/-- In a hooks directory a refusal is for a hook of the user's own that has a backup already. -/
theorem HooksDirectory.installAll_refused (h : HooksDirectory w project dir place)
    (hfailed : installAll project level tools name kinds w = (.error (.hook message), w')) :
    ∃ done k rest, kinds = done ++ k :: rest ∧ k ∉ done ∧ AllPlaced place level tools name done w w' ∧
      Blocked place w k := by
  obtain ⟨done, k, rest, results, v, hkinds, hdone, hrefused, -⟩ := Hook.installAll_refused hfailed
  obtain ⟨hv, hall⟩ := h.installAll_placed hdone
  rcases hv.install_cases k level tools name with ⟨result, u, hinstalled, -⟩ | ⟨message', hsame⟩
  · rw [hinstalled] at hrefused
    cases hrefused
  obtain rfl : v = w' := (Prod.mk.inj (hsame.symm.trans hrefused)).2
  obtain ⟨own, backup, hpair, hown⟩ := hv.blocked_of_refused hrefused
  have hk : k ∉ done := fun hmem => by
    have hscript := hall.placed k hmem
    rw [hpair] at hscript
    rw [Option.some.inj (congrArg Pair.hook hscript), managed_script] at hown
    cases hown
  exact ⟨done, k, rest, hkinds, hk, hall, own, backup, (hall.others k hk).symm.trans hpair, hown⟩

theorem HooksDirectory.not_blocked_of_install (h : HooksDirectory w project dir place) {result : Installed}
    (hdone : install project k level tools name w = (.ok result, w')) : ¬ Blocked place w k := by
  rintro ⟨own, backup, hpair, hown⟩
  obtain ⟨u, hu⟩ := opened (h.site_or_unmade k)
  rw [hu.install_eq] at hdone
  rcases hu.site.place_cases (script k level tools name) with ⟨_, _, -, -, hfree⟩ | ⟨_, hrefused, -⟩
  · have hmissing := hfree own (congrArg Pair.hook (hu.pairAt.trans hpair)) hown
    rw [h.contains_backup hu, show w.entryAt (spare place k) = some backup from congrArg Pair.backup hpair] at hmissing
    cases hmissing
  · rw [hrefused] at hdone
    cases hdone

/-- Installing is refused for nothing but a blocked hook. -/
theorem HooksDirectory.installAll_refused_iff (h : HooksDirectory w project dir place) (level : EnforcementLevel)
    (tools : Tools) (name : String) (kinds : List HookKind) :
    (∃ message w', installAll project level tools name kinds w = (.error (.hook message), w')) ↔
      ∃ k ∈ kinds, Blocked place w k := by
  induction kinds generalizing w with
  | nil => exact iff_of_false (fun ⟨_, _, hfailed⟩ => nomatch hfailed) (by simp)
  | cons k kinds ih =>
    rw [List.exists_mem_cons_iff]
    rcases h.install_cases k level tools name with ⟨result, v, hdone, hv, hplaced⟩ | ⟨message, hrefused⟩
    · have hrest : (∃ message w', installAll project level tools name (k :: kinds) w = (.error (.hook message), w')) ↔
          ∃ message w', installAll project level tools name kinds v = (.error (.hook message), w') := by
        rw [installAll, List.mapM_cons, Edit.bind_of_ok hdone]
        constructor
        · rintro ⟨message, w', hfailed⟩
          rcases Edit.bind_eq_error hfailed with hlater | ⟨_, _, -, hpure⟩
          · exact ⟨message, w', hlater⟩
          · cases hpure
        · rintro ⟨message, w', hfailed⟩
          exact ⟨message, w', Edit.bind_of_error hfailed⟩
      rw [hrest, ih hv.toHooksDirectory, or_iff_right (h.not_blocked_of_install hdone)]
      refine exists_congr fun k' => and_congr_right fun hk' => ?_
      by_cases hk : k' = k
      · subst hk
        refine iff_of_false ?_ (h.not_blocked_of_install hdone)
        rintro ⟨own, backup, hpair, hown⟩
        rw [Option.some.inj (hplaced.hook.symm.trans (congrArg Pair.hook hpair)).symm, managed_script] at hown
        cases hown
      · rw [Blocked, Blocked, hplaced.others k' hk]
    · refine iff_of_true ⟨message, w, ?_⟩ (.inl (h.blocked_of_refused hrefused))
      rw [installAll, List.mapM_cons]
      exact Edit.bind_of_error hrefused

end Hook

end QualityGate
