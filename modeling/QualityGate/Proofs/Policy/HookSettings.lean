import Mathlib
import QualityGate.Proofs.Hook.Refusal
import QualityGate.Proofs.Observe
import QualityGate.Proofs.Policy.Transition

/-! Protection that comes with hooks. The hooks act only where git has taken the two
settings that they read; protection is reported as enabled also where it has not. -/

namespace QualityGate

namespace Git

variable {w w' : Workspace} {dir : Path} {key value : String}

theorem withValueAt?_of_invalid (hkey : Key.ofChars? (bytesOf key) = none) : withValueAt? w dir key value = none := by
  have htext (text : List Char) : withValue? text (bytesOf key) (bytesOf value) = none := by
    rw [withValue?, hkey]
    rfl
  simp only [withValueAt?, htext]
  simp [Option.bind_eq_none_iff]
  intro _ r f _ _ _
  split <;> rfl

theorem value?_of_invalid (hkey : Key.ofChars? (bytesOf key) = none) : value? w dir key = none := by
  rw [value?, hkey]
  split <;> rfl

namespace Command

/-- The files once git has set a key, if it does. -/
def set? (c : Command) (w : Workspace) (dir : Path) (key value : String) : Option Workspace :=
  match start w dir [key, value] with
  | .ok true => if c.isInstalled then withValueAt? w dir key value else none
  | _ => none

theorem setConfig_of_start {c : Command} {started : Bool} (h : start w dir [key, value] = .ok started) :
    c.setConfig dir key value w = (.ok (c.set? w dir key value).isSome, (c.set? w dir key value).getD w) := by
  have hset : (if started && c.isInstalled then withValueAt? w dir key value else none) = c.set? w dir key value := by
    rw [set?, h]
    cases started <;> rfl
  rw [setConfig, Edit.get_bind, Edit.bind_of_ok (Edit.lift_of_ok h), Edit.get_bind, hset]
  cases c.set? w dir key value <;> rfl

theorem setConfig_eq_ok {c : Command} {set : Bool} (h : c.setConfig dir key value w = (.ok set, w')) :
    set = (c.set? w dir key value).isSome ∧ w' = (c.set? w dir key value).getD w := by
  cases hstart : start w dir [key, value] with
  | ok started =>
    rw [setConfig_of_start hstart] at h
    cases h
    exact ⟨rfl, rfl⟩
  | error e =>
    rw [setConfig, Edit.get_bind] at h
    obtain ⟨started, v, hlift, -⟩ := Edit.bind_eq_ok h
    rw [hstart] at hlift
    cases hlift

theorem configureProtection_of_start {c : Command} {sectionName : String} {protection strict first second : Bool}
    (h : start w dir [protectionKey sectionName, truth protection] = .ok first)
    (h' : start ((c.set? w dir (protectionKey sectionName) (truth protection)).getD w) dir
      [strictKey sectionName, truth strict] = .ok second) :
    let w₁ := (c.set? w dir (protectionKey sectionName) (truth protection)).getD w
    ∃ set, c.configureProtection dir sectionName protection strict w =
      (.ok set, (c.set? w₁ dir (strictKey sectionName) (truth strict)).getD w₁) := by
  intro w₁
  refine ⟨(c.set? w₁ dir (strictKey sectionName) (truth strict)).isSome &&
    (c.set? w dir (protectionKey sectionName) (truth protection)).isSome, ?_⟩
  rw [configureProtection, Edit.bind_of_ok (setConfig_of_start h), Edit.bind_of_ok (setConfig_of_start h')]
  rfl

/-- Both settings are tried, whatever became of the first. -/
theorem configureProtection_eq_ok {c : Command} {sectionName : String} {protection strict set : Bool}
    (h : c.configureProtection dir sectionName protection strict w = (.ok set, w')) :
    let w₁ := (c.set? w dir (protectionKey sectionName) (truth protection)).getD w
    w' = (c.set? w₁ dir (strictKey sectionName) (truth strict)).getD w₁ := by
  obtain ⟨first, v, hfirst, h⟩ := Edit.bind_eq_ok h
  obtain ⟨second, v', hsecond, hpure⟩ := Edit.bind_eq_ok h
  obtain ⟨-, rfl⟩ := Prod.mk.inj hpure
  rw [← (setConfig_eq_ok hfirst).2]
  exact (setConfig_eq_ok hsecond).2

theorem set?_of_invalid (c : Command) (hkey : Key.ofChars? (bytesOf key) = none) : c.set? w dir key value = none := by
  rw [set?, withValueAt?_of_invalid hkey, ite_self]
  split <;> rfl

/-- Git keeps what it takes: the key has its value, another key has the value that it had, and no hook is
touched. -/
def Stores (c : Command) (place : List String) (w : Workspace) (dir : Path) (key value other : String) : Prop :=
  ∀ w', c.set? w dir key value = some w' →
    value? w' dir key = some (bytesOf value) ∧ value? w' dir other = value? w dir other ∧
      ∀ k, Hook.pairAt place k w' = Hook.pairAt place k w

/-- Git keeps both settings of protection when they are set one after the other. -/
def StoresProtection (c : Command) (place : List String) (w : Workspace) (dir : Path) (sectionName : String)
    (protection strict : Bool) : Prop :=
  c.Stores place w dir (protectionKey sectionName) (truth protection) (strictKey sectionName) ∧
    c.Stores place ((c.set? w dir (protectionKey sectionName) (truth protection)).getD w) dir (strictKey sectionName)
      (truth strict) (protectionKey sectionName)

/-- The settings of protection after both were tried: each has its value where git took it, and the value that
it had where git did not. -/
structure Tried (c : Command) (place : List String) (dir : Path) (sectionName : String) (protection strict : Bool)
    (w w' : Workspace) : Prop where
  protectionValue : value? w' dir (protectionKey sectionName) =
    if (c.set? w dir (protectionKey sectionName) (truth protection)).isSome then some (bytesOf (truth protection))
    else value? w dir (protectionKey sectionName)
  strictValue : value? w' dir (strictKey sectionName) =
    let w₁ := (c.set? w dir (protectionKey sectionName) (truth protection)).getD w
    if (c.set? w₁ dir (strictKey sectionName) (truth strict)).isSome then some (bytesOf (truth strict))
    else value? w dir (strictKey sectionName)
  hooks : ∀ k, Hook.pairAt place k w' = Hook.pairAt place k w

theorem Tried.of_set {c : Command} {place : List String} {sectionName : String} {protection strict : Bool}
    {w₁ w₂ : Workspace} (h : c.Tried place dir sectionName protection strict w w')
    (hprotection : c.set? w dir (protectionKey sectionName) (truth protection) = some w₁)
    (hstrict : c.set? w₁ dir (strictKey sectionName) (truth strict) = some w₂) :
    value? w' dir (protectionKey sectionName) = some (bytesOf (truth protection)) ∧
      value? w' dir (strictKey sectionName) = some (bytesOf (truth strict)) := by
  have hvalue := h.protectionValue
  have hvalue' := h.strictValue
  rw [hprotection] at hvalue hvalue'
  dsimp only [Option.getD_some] at hvalue'
  rw [hstrict] at hvalue'
  exact ⟨hvalue, hvalue'⟩

theorem Stores.getD {c : Command} {place : List String} {other : String} (h : c.Stores place w dir key value other) :
    let w' := (c.set? w dir key value).getD w
    value? w' dir key = (if (c.set? w dir key value).isSome then some (bytesOf value) else value? w dir key) ∧
      value? w' dir other = value? w dir other ∧ ∀ k, Hook.pairAt place k w' = Hook.pairAt place k w := by
  cases hset : c.set? w dir key value with
  | none => exact ⟨rfl, rfl, fun _ => rfl⟩
  | some w' => exact h w' hset

theorem configureProtection_tried {c : Command} {place : List String} {sectionName : String}
    {protection strict set : Bool} (hgit : c.StoresProtection place w dir sectionName protection strict)
    (h : c.configureProtection dir sectionName protection strict w = (.ok set, w')) :
    c.Tried place dir sectionName protection strict w w' := by
  obtain ⟨hprotection, hother, hhooks⟩ := hgit.1.getD
  obtain ⟨hstrict, hother', hhooks'⟩ := hgit.2.getD
  rw [← configureProtection_eq_ok h] at hstrict hother' hhooks'
  exact
    { protectionValue := hother'.trans hprotection
      strictValue := hstrict.trans (by rw [hother])
      hooks := fun k => (hhooks' k).trans (hhooks k) }

end Command

end Git

namespace Protection

variable {p : Protection} {s s' : Session} {state : PolicyState} {strict : Option Bool}

theorem perform_enable_hooked_eq_ok (h : p.perform (.enable strict true) s = (.ok state, s')) :
    state.enabled = true ∧ state.level = p.levelFor strict ∧
      ∃ results v set, Hook.installAll p.root (p.levelFor strict) p.config.tools p.config.gitConfigSection
          Hook.allKinds (p.count s).2.workspace = (.ok results, v) ∧
        (p.count s).2.git.configureProtection p.root p.config.gitConfigSection true
          (p.levelFor strict == .zeroTolerance) v = (.ok set, s'.workspace) := by
  cases hc : p.settledAfter s with
  | error e =>
    rw [perform_enable_of_error strict true hc] at h
    cases h
  | ok c =>
    rw [perform_enable_hooked strict hc, Run.bind_apply] at h
    split at h
    case h_2 => cases h
    case h_1 u s₁ hinstall =>
      rw [enter_apply] at h
      cases h
      refine ⟨rfl, rfl, ?_⟩
      rw [installHooks_apply] at hinstall
      split at hinstall
      case h_1 => cases hinstall
      case h_2 results v hdone =>
        obtain ⟨hset, rfl⟩ := Prod.mk.inj hinstall
        cases hconfigured : (p.count s).2.git.configureProtection p.root p.config.gitConfigSection true
            (p.levelFor strict == .zeroTolerance) v with
        | mk r w =>
          rw [hconfigured] at hset
          cases r with
          | error e => cases hset
          | ok set => exact ⟨results, v, set, hdone, hconfigured⟩

theorem perform_enable_hooked_of_set {c : ProjectClass} {results : List Hook.Installed} {v w : Workspace} {set : Bool}
    (hc : p.settledAfter s = .ok c)
    (hdone : Hook.installAll p.root (p.levelFor strict) p.config.tools p.config.gitConfigSection Hook.allKinds
      (p.count s).2.workspace = (.ok results, v))
    (hset : (p.count s).2.git.configureProtection p.root p.config.gitConfigSection true
      (p.levelFor strict == .zeroTolerance) v = (.ok set, w)) :
    ∃ s', p.perform (.enable strict true) s =
        (.ok { enabled := true, level := p.levelFor strict, projectClass := c }, s') ∧ s'.workspace = w := by
  have hinstall : p.installHooks (p.levelFor strict) (p.count s).2 = (.ok (), { (p.count s).2 with workspace := w }) := by
    rw [installHooks_apply, hdone]
    simp only [hset]
    rfl
  rw [perform_enable_hooked strict hc, Run.bind_apply, hinstall]
  exact ⟨_, enter_apply _ _, rfl⟩

def hooked (p : Protection) (level : EnforcementLevel) (w : Workspace) : Workspace :=
  (Hook.installAll p.root level p.config.tools p.config.gitConfigSection Hook.allKinds w).2

/-- Protection that is enabled with hooks has both hooks installed. The settings that the hooks read are as wanted
where git takes them; where it does not they are as they were, and a setting whose key git refuses is not there:
the hooks do nothing. -/
theorem enable_hooked_settings {dir : Path} {place : List String}
    (hdirectory : Hook.HooksDirectory (p.count s).2.workspace p.root dir place)
    (hgit : (p.count s).2.git.StoresProtection place (p.hooked (p.levelFor strict) (p.count s).2.workspace) p.root
      p.config.gitConfigSection true (p.levelFor strict == .zeroTolerance))
    (h : p.perform (.enable strict true) s = (.ok state, s')) :
    state.enabled = true ∧ state.level = p.levelFor strict ∧
      (∀ k, Hook.pairAt place k s'.workspace = (Hook.pairAt place k (p.count s).2.workspace).placed
        (Hook.script k state.level p.config.tools p.config.gitConfigSection)) ∧
      (p.count s).2.git.Tried place p.root p.config.gitConfigSection true (state.level == .zeroTolerance)
        (p.hooked state.level (p.count s).2.workspace) s'.workspace ∧
      ∀ key ∈ [Git.protectionKey p.config.gitConfigSection, Git.strictKey p.config.gitConfigSection],
        Git.Key.ofChars? (Git.bytesOf key) = none → Git.value? s'.workspace p.root key = none := by
  obtain ⟨henabled, hlevel, results, v, set, hdone, hconfigured⟩ := perform_enable_hooked_eq_ok h
  have hv : p.hooked (p.levelFor strict) (p.count s).2.workspace = v := congrArg Prod.snd hdone
  rw [hv] at hgit
  obtain ⟨-, hplaced⟩ := hdirectory.installAll_placed hdone
  have htried := Git.Command.configureProtection_tried hgit hconfigured
  rw [hlevel, hv]
  -- The hooks were placed before git was asked, and setting a key touches no hook.
  refine ⟨henabled, rfl, fun k => ?_, htried, fun key _ hkey => Git.value?_of_invalid hkey⟩
  rw [htried.hooks k]
  exact hplaced.placed k (by cases k <;> simp [Hook.allKinds])

end Protection

/-! A repository that is checked out, and its configuration. -/

namespace Git

/-- A key that says nothing about the repository itself. -/
def Key.IsPlain (k : Key) : Prop :=
  k ≠ ⟨chars "include", chars "path"⟩ ∧
    Format.nameOf k ∉ ["core.repositoryformatversion", "core.bare", "core.worktree"] ∧
    ¬ chars "extensions." <+: chars (Format.nameOf k)

instance (k : Key) : Decidable k.IsPlain := inferInstanceAs (Decidable (_ ∧ _ ∧ _))

theorem Format.setting_of_isPlain {f : Format} {k : Key} {value : Option (List Char)} (h : k.IsPlain) :
    f.setting k value = some f := by
  obtain ⟨-, hname, hextension⟩ := h
  simp only [List.mem_cons, List.not_mem_nil, or_false, not_or] at hname
  obtain ⟨hversion, hbare, hworktree⟩ := hname
  have hprefix : (chars "extensions.").isPrefixOf (chars (nameOf k)) = false := by
    rw [Bool.eq_false_iff, ne_eq, List.isPrefixOf_iff_prefix]
    exact hextension
  rw [setting]
  simp only [hversion, hprefix, beq_iff_eq, if_false, worktreeSetting]

theorem Format.ofSettings?_of_plain {s : Settings} (h : ∀ e ∈ s, e.1.IsPlain) : ofSettings? s = some {} := by
  have hfold : s.foldlM (fun f e => f.setting e.1 e.2) ({} : Format) = some {} := by
    induction s with
    | nil => rfl
    | cons e s ih =>
      obtain ⟨he, hs⟩ := List.forall_mem_cons.mp h
      rw [List.foldlM_cons, setting_of_isPlain he]
      exact ih hs
  rw [ofSettings?, hfold]
  rfl

theorem mapM_singletons {α : Type} {f : α → Option (List α)} {as : List α} (h : ∀ a ∈ as, f a = some [a]) :
    (do some (← as.mapM f).flatten) = some as := by
  induction as with
  | nil => rfl
  | cons a as ih =>
    obtain ⟨ha, has⟩ := List.forall_mem_cons.mp h
    have hrest := ih has
    cases hmap : as.mapM f with
    | none => simp [hmap] at hrest
    | some parts => simpa [List.mapM_cons, ha, hmap] using hrest

theorem withIncluded?_of_plain {w : Workspace} {depth : Nat} {file : Path} {text : List Char} {settings : Settings}
    (hs : settings? text = some settings) (hplain : ∀ e ∈ settings, e.1.IsPlain) :
    withIncluded? w (depth + 1) file text = some settings := by
  rw [withIncluded?, hs]
  refine mapM_singletons fun e he => ?_
  have hkey : (e.1 == (⟨chars "include", chars "path"⟩ : Key)) = false := beq_eq_false_iff_ne.mpr (hplain e he).1
  have hnone : e.2.bind (included? file e.1) = none := by simp [included?, hkey]
  simp [hkey, hnone]

end Git

section checkedOut

open Hook Git

def checkedOut (config : List Char) (hooks : List (List String × Entry)) : Workspace where
  root := ⟨"/", ["w"]⟩
  entries := [(["w", ".git"], .directory), (["w", ".git", "hooks"], .directory),
    (["w", ".git", "objects"], .directory), (["w", ".git", "refs"], .directory),
    (["w", ".git", "HEAD"], .file "ref: refs/heads/main\n".toUTF8 false),
    (["w", ".git", "config"], .file (toBytes config) false)] ++ hooks

def bothHooks (commit push : String) : List (List String × Entry) :=
  [(["w", ".git", "hooks", "pre-commit"], .file commit.toUTF8 true),
    (["w", ".git", "hooks", "pre-push"], .file push.toUTF8 true)]

def projectRoot : Path := ⟨"/", ["w"]⟩

def hooksPlace : List String := ["w", ".git", "hooks"]

def itsRepository : Repository := ⟨⟨"/", ["w", ".git"]⟩, ⟨"/", ["w", ".git"]⟩⟩

theorem checkedOut_directory (config : List Char) :
    HooksDirectory (checkedOut config []) projectRoot ⟨"/", hooksPlace⟩ hooksPlace := by
  have hgit : (checkedOut config []).locate (projectRoot.child ".git") = .ok ⟨["w", ".git"], some .directory⟩ := by cbv
  have hdirectory : directory? (checkedOut config []) projectRoot = .ok (some (projectRoot.child ".git")) := by cbv
  exact
    { known := hooksDirectory_eq_some.mpr ⟨_, hdirectory, rfl⟩
      found := .inl (by cbv)
      plain := fun s hs => by
        obtain ⟨k, rfl | rfl⟩ := mem_slots.mp hs <;> cases k <;> exact trivial
      alone := fun s hs rest hrest => by
        have hpos := List.length_pos_iff.mpr hrest
        have hlength : (s ++ rest).length = 4 + rest.length := by
          rw [List.length_append, length_of_mem_slots hs]
          rfl
        have hshort : ∀ x ∈ (checkedOut config []).entries, x.1.length < 5 := by simp [checkedOut]
        exact entryAt_of_deep hshort (by simp [checkedOut]) (by omega)
      repository := ⟨_, _, hgit, by decide⟩ }

theorem installAll_checkedOut (config : List Char) (level : EnforcementLevel) (tools : Tools) (name : String) :
    ∃ results, installAll projectRoot level tools name allKinds (checkedOut config []) = (.ok results,
      checkedOut config (bothHooks (script .preCommit level tools name) (script .prePush level tools name))) := by
  have hfirst (text : String) : ∃ result, placeScript ⟨"/", hooksPlace⟩ .preCommit text (checkedOut config []) =
      (.ok result, checkedOut config [(["w", ".git", "hooks", "pre-commit"], .file text.toUTF8 true)]) :=
    ⟨⟨.preCommit, ⟨"/", ["w", ".git", "hooks", "pre-commit"]⟩, .installed, none⟩, by cbv⟩
  have hsecond (text text' : String) : ∃ result, placeScript ⟨"/", hooksPlace⟩ .prePush text'
      (checkedOut config [(["w", ".git", "hooks", "pre-commit"], .file text.toUTF8 true)]) =
      (.ok result, checkedOut config (bothHooks text text')) :=
    ⟨⟨.prePush, ⟨"/", ["w", ".git", "hooks", "pre-push"]⟩, .installed, none⟩, by cbv⟩
  have hopen (hooks : List (List String × Entry)) :
      hooksDirectory? (checkedOut config hooks) projectRoot = .ok (some ⟨"/", hooksPlace⟩) ∧
        (checkedOut config hooks).createDirectories ⟨"/", hooksPlace⟩ = .ok (checkedOut config hooks) :=
    ⟨by cbv, by cbv⟩
  obtain ⟨result, hcommit⟩ := hfirst (script .preCommit level tools name)
  obtain ⟨result', hpush⟩ := hsecond (script .preCommit level tools name) (script .prePush level tools name)
  rw [← install_eq (hopen _).1 (hopen _).2] at hcommit hpush
  refine ⟨[result, result'], ?_⟩
  rw [installAll, allKinds, List.mapM_cons, Edit.bind_of_ok hcommit, List.mapM_cons]
  refine Edit.bind_of_ok ?_
  rw [Edit.bind_of_ok hpush]
  rfl

/-- A text without anything of interest to the repository itself says `settings`. -/
structure Says (text : List Char) (settings : Settings) : Prop where
  bytes : ofBytes (toBytes text) = text
  read : settings? text = some settings
  plain : ∀ e ∈ settings, e.1.IsPlain

section settings

variable {text text' : List Char} {said said' : Settings} {key value other : String} {k o : Key} (commit push : String)

/-- What git finds there. -/
structure Finds (w : Workspace) (text : List Char) : Prop where
  project : w.stat projectRoot = .ok .directory
  absolute : w.absolute projectRoot = projectRoot
  repository : nearest w (projectRoot.parts.length + 1) projectRoot = .here itsRepository
  config : w.locate ⟨"/", ["w", ".git", "config"]⟩ = .ok ⟨["w", ".git", "config"], some (.file (toBytes text) false)⟩
  lock : w.locateLink ⟨"/", ["w", ".git", "config.lock"]⟩ = .ok ⟨["w", ".git", "config.lock"], none⟩

theorem finds_checkedOut (text : List Char) : Finds (checkedOut text (bothHooks commit push)) text where
  project := by cbv
  absolute := by cbv
  repository := by cbv
  config := by cbv
  lock := by cbv

theorem fileText?_config (h : ofBytes (toBytes text) = text) :
    fileText? (checkedOut text (bothHooks commit push)) ⟨"/", ["w", ".git", "config"]⟩ = some text := by
  simp [fileText?, Workspace.contains, Workspace.stat, Workspace.readBytes, (finds_checkedOut commit push text).config,
    Except.isOk, Except.toBool, Except.toOption, h]

theorem around?_checkedOut (h : Says text said) :
    around? (checkedOut text (bothHooks commit push)) projectRoot = some (itsRepository, {}) := by
  have hfinds := finds_checkedOut commit push text
  have hfile : configFile itsRepository = ⟨"/", ["w", ".git", "config"]⟩ := rfl
  have hformat : format? (checkedOut text (bothHooks commit push)) itsRepository = some {} := by
    simp [format?, hfile, fileText?_config commit push h.bytes, h.read, Format.ofSettings?_of_plain h.plain,
      Format.isKnown, hasWorktree]
  simp only [around?, hfinds.absolute, hfinds.repository, hformat, Option.map_some]

theorem allSettings?_checkedOut (h : Says text said) :
    allSettings? (checkedOut text (bothHooks commit push)) itsRepository {} = some said := by
  have hfile : configFile itsRepository = ⟨"/", ["w", ".git", "config"]⟩ := rfl
  simp [allSettings?, hfile, fileText?_config commit push h.bytes, withIncluded?_of_plain h.read h.plain]

theorem value?_checkedOut (h : Says text said) (hoption : isOption key = false)
    (hkey : Key.ofChars? (bytesOf key) = some k) :
    value? (checkedOut text (bothHooks commit push)) projectRoot key = said.value? k := by
  simp [value?, hoption, hkey, around?_checkedOut commit push h, allSettings?_checkedOut commit push h]

theorem withValueAt?_checkedOut (h : Says text said) (hoption : isOption key = false)
    (htext : withValue? text (bytesOf key) (bytesOf value) = some text') :
    withValueAt? (checkedOut text (bothHooks commit push)) projectRoot key value =
      some (checkedOut text' (bothHooks commit push)) := by
  have hfile : configFile itsRepository = ⟨"/", ["w", ".git", "config"]⟩ := rfl
  have hlock : (⟨"/", ["w", ".git", "config"]⟩ : Path).withName
      ((⟨"/", ["w", ".git", "config"]⟩ : Path).name ++ ".lock") = ⟨"/", ["w", ".git", "config.lock"]⟩ := rfl
  have hfinds := finds_checkedOut commit push text
  have hwrite : (checkedOut text (bothHooks commit push)).write ⟨"/", ["w", ".git", "config"]⟩ (toBytes text') =
      .ok (checkedOut text' (bothHooks commit push)) := by
    rw [Workspace.write, hfinds.config]
    rfl
  simp [withValueAt?, hoption, around?_checkedOut commit push h, allSettings?_checkedOut commit push h, hfile,
    hfinds.config, fileText?_config commit push h.bytes, htext]
  rw [hlock, hfinds.lock, hwrite]
  rfl

theorem start_checkedOut (hkey : ¬ '\x00' ∈ key.toList) (hvalue : ¬ '\x00' ∈ value.toList) :
    Command.start (checkedOut text (bothHooks commit push)) projectRoot [key, value] = .ok true := by
  simp [Command.start, hkey, hvalue, (finds_checkedOut commit push text).project]

theorem set?_checkedOut (h : Says text said) (hoption : isOption key = false) (hkey : ¬ '\x00' ∈ key.toList)
    (hvalue : ¬ '\x00' ∈ value.toList) (htext : withValue? text (bytesOf key) (bytesOf value) = some text') :
    ({} : Command).set? (checkedOut text (bothHooks commit push)) projectRoot key value =
      some (checkedOut text' (bothHooks commit push)) := by
  rw [Command.set?, start_checkedOut commit push hkey hvalue, withValueAt?_checkedOut commit push h hoption htext]
  rfl

theorem pairAt_checkedOut (text text' : List Char) (k : HookKind) :
    pairAt hooksPlace k (checkedOut text (bothHooks commit push)) =
      pairAt hooksPlace k (checkedOut text' (bothHooks commit push)) := by
  cases k <;> cbv

theorem stores_checkedOut (h : Says text said) (h' : Says text' said') (hnul : '\x00' ∉ key.toList)
    (hnul' : '\x00' ∉ value.toList) (hoption : isOption key = false) (hoption' : isOption other = false)
    (htext : withValue? text (bytesOf key) (bytesOf value) = some text')
    (hkey : Key.ofChars? (bytesOf key) = some k) (hother : Key.ofChars? (bytesOf other) = some o)
    (hvalue : said'.value? k = some (bytesOf value)) (hsame : said'.value? o = said.value? o) :
    ({} : Command).Stores hooksPlace (checkedOut text (bothHooks commit push)) projectRoot key value other := by
  intro w' hset
  rw [set?_checkedOut commit push h hoption hnul hnul' htext] at hset
  obtain rfl := Option.some.inj hset
  refine ⟨?_, ?_, pairAt_checkedOut commit push text' text⟩
  · rw [value?_checkedOut commit push h' hoption hkey, hvalue]
  · rw [value?_checkedOut commit push h' hoption' hother, value?_checkedOut commit push h hoption' hother, hsame]

end settings

/-- Protection under a section's name, in a fresh repository without tools. -/
def namedProtection (name : String) : Protection := .standard projectRoot { gitConfigSection := name } none

def freshSession : Session := { workspace := checkedOut [] [], now := { year := 2024, month := 1, day := 2 } }

theorem freshSession_count (name : String) :
    ((namedProtection name).count freshSession).2.workspace = checkedOut [] [] ∧
      ((namedProtection name).count freshSession).2.git = {} := by
  have hsame : Run.Observes (namedProtection name).count := Count.run_observes _ _ _
  exact ⟨(hsame freshSession).workspace, (hsame freshSession).git⟩

theorem namedProtection_class (name : String) : (namedProtection name).settledAfter freshSession = .ok .unknown := by
  let counted : ErrorCount :=
    { origins := [("type-check", .none), ("lint", .none)], failedTools := ["eslint"], suspiciousZero := true }
  have hcount : ((namedProtection name).count freshSession).1 = .ok counted := by cbv
  rw [Protection.settledAfter, Protection.classAfter, hcount]
  rfl

theorem namedProtection_hooked (name : String) : ∃ commit push,
    (namedProtection name).hooked .advisory (checkedOut [] []) = checkedOut [] (bothHooks commit push) := by
  obtain ⟨results, hdone⟩ := installAll_checkedOut [] .advisory {} name
  exact ⟨_, _, congrArg Prod.snd hdone⟩

theorem namedProtection_enabled {name : String} {set : Bool} {w : Workspace}
    (h : ({} : Command).configureProtection projectRoot name true false
      ((namedProtection name).hooked .advisory (checkedOut [] [])) = (.ok set, w)) :
    ∃ s', (namedProtection name).perform (.enable none true) freshSession =
      (.ok { enabled := true, level := .advisory, projectClass := .unknown }, s') ∧ s'.workspace = w := by
  obtain ⟨hworkspace, hgit⟩ := freshSession_count name
  obtain ⟨results, hdone⟩ := installAll_checkedOut [] .advisory {} name
  have hv : (namedProtection name).hooked .advisory (checkedOut [] []) = _ := congrArg Prod.snd hdone
  rw [hv] at h
  exact Protection.perform_enable_hooked_of_set (namedProtection_class name) (by rw [hworkspace]; exact hdone)
    (by rw [hgit]; exact h)

def protectionEntry : Key × Option (List Char) := (⟨chars "bastion", chars "protection-mode"⟩, some (chars "true"))

def strictEntry : Key × Option (List Char) := (⟨chars "bastion", chars "strict-mode"⟩, some (chars "false"))

def protectedText : List Char := chars "[bastion]\n\tprotection-mode = true\n"

def relaxedText : List Char := protectedText ++ chars "\tstrict-mode = false\n"

theorem bastion_says :
    Says [] [] ∧ Says protectedText [protectionEntry] ∧ Says relaxedText [protectionEntry, strictEntry] :=
  ⟨⟨by decide +kernel, by decide +kernel, nofun⟩, ⟨by decide +kernel, by decide +kernel, by decide +kernel⟩,
    ⟨by decide +kernel, by decide +kernel, by decide +kernel⟩⟩

/-- Both keys are read, and each is written below the ones before it. -/
theorem bastion_keys :
    (Key.ofChars? (bytesOf (protectionKey "bastion")) = some protectionEntry.1 ∧
        Key.ofChars? (bytesOf (strictKey "bastion")) = some strictEntry.1) ∧
      withValue? [] (bytesOf (protectionKey "bastion")) (bytesOf (truth true)) = some protectedText ∧
      withValue? protectedText (bytesOf (strictKey "bastion")) (bytesOf (truth false)) = some relaxedText := by
  decide +kernel

theorem bastion_set (commit push : String) :
    ({} : Command).set? (checkedOut [] (bothHooks commit push)) projectRoot (protectionKey "bastion") (truth true) =
        some (checkedOut protectedText (bothHooks commit push)) ∧
      ({} : Command).set? (checkedOut protectedText (bothHooks commit push)) projectRoot (strictKey "bastion")
        (truth false) = some (checkedOut relaxedText (bothHooks commit push)) := by
  obtain ⟨hnothing, hprotected, -⟩ := bastion_says
  obtain ⟨-, hfirst, hsecond⟩ := bastion_keys
  exact ⟨set?_checkedOut commit push hnothing (by decide) (by decide) (by decide) hfirst,
    set?_checkedOut commit push hprotected (by decide) (by decide) (by decide) hsecond⟩

theorem bastion_stores (commit push : String) :
    ({} : Command).StoresProtection hooksPlace (checkedOut [] (bothHooks commit push)) projectRoot "bastion" true
      false := by
  obtain ⟨hnothing, hprotected, hrelaxed⟩ := bastion_says
  obtain ⟨⟨hprotection, hstrict⟩, hfirst, hsecond⟩ := bastion_keys
  refine ⟨?_, ?_⟩
  · exact stores_checkedOut commit push hnothing hprotected (by decide) (by decide) (by decide) (by decide) hfirst
      hprotection hstrict (by cbv) rfl
  · rw [(bastion_set commit push).1]
    exact stores_checkedOut commit push hprotected hrelaxed (by decide) (by decide) (by decide) (by decide) hsecond
      hstrict hprotection (by cbv) rfl

/-- In a fresh repository git takes both settings. -/
theorem enable_hooked_fresh :
    ∃ s', (namedProtection "bastion").perform (.enable none true) freshSession =
        (.ok { enabled := true, level := .advisory, projectClass := .unknown }, s') ∧
      (∀ k, (pairAt hooksPlace k s'.workspace).hook =
        some (.file (script k .advisory {} "bastion").toUTF8 true)) ∧
      value? s'.workspace projectRoot "bastion.protection-mode" = some (bytesOf "true") ∧
      value? s'.workspace projectRoot "bastion.strict-mode" = some (bytesOf "false") := by
  obtain ⟨commit, push, hhooked⟩ := namedProtection_hooked "bastion"
  obtain ⟨hworkspace, hgit⟩ := freshSession_count "bastion"
  obtain ⟨hset, hset'⟩ := bastion_set commit push
  have hstart : Command.start (checkedOut [] (bothHooks commit push)) projectRoot
      [protectionKey "bastion", truth true] = .ok true :=
    start_checkedOut commit push (by decide) (by decide)
  have hstart' : Command.start (checkedOut protectedText (bothHooks commit push)) projectRoot
      [strictKey "bastion", truth false] = .ok true :=
    start_checkedOut commit push (by decide) (by decide)
  obtain ⟨set, hconfigured⟩ := Command.configureProtection_of_start (c := {}) hstart (by rw [hset]; exact hstart')
  obtain ⟨s', hperformed, -⟩ := namedProtection_enabled (by rw [hhooked]; exact hconfigured)
  obtain ⟨-, -, hhooks, htried, -⟩ := Protection.enable_hooked_settings (p := namedProtection "bastion")
    (by rw [hworkspace]; exact checkedOut_directory [])
    (by rw [hworkspace, hgit]; exact hhooked ▸ bastion_stores commit push) hperformed
  rw [hgit, hworkspace, hhooked] at htried
  exact ⟨s', hperformed, fun k => congrArg Pair.hook (hhooks k), htried.of_set hset hset'⟩

/-- Git takes no key whose section has an underscore. Protection is enabled all the same, and its hooks are
there and do nothing. -/
theorem enable_hooked_unset :
    HooksDirectory freshSession.workspace projectRoot ⟨"/", hooksPlace⟩ hooksPlace ∧
      ∃ s', (namedProtection "bad_section").perform (.enable none true) freshSession =
          (.ok { enabled := true, level := .advisory, projectClass := .unknown }, s') ∧
        ({} : Command).set? s'.workspace projectRoot "bad_section.protection-mode" "true" = none ∧
        value? s'.workspace projectRoot "bad_section.protection-mode" = none ∧
        value? s'.workspace projectRoot "bad_section.strict-mode" = none := by
  have hprotection : Key.ofChars? (bytesOf (protectionKey "bad_section")) = none := by decide +kernel
  have hstrict : Key.ofChars? (bytesOf (strictKey "bad_section")) = none := by decide +kernel
  obtain ⟨commit, push, hhooked⟩ := namedProtection_hooked "bad_section"
  have hstart : Command.start (checkedOut [] (bothHooks commit push)) projectRoot
      [protectionKey "bad_section", truth true] = .ok true :=
    start_checkedOut commit push (by decide) (by decide)
  have hstart' : Command.start (checkedOut [] (bothHooks commit push)) projectRoot
      [strictKey "bad_section", truth false] = .ok true :=
    start_checkedOut commit push (by decide) (by decide)
  obtain ⟨set, hconfigured⟩ := Command.configureProtection_of_start (c := {}) hstart
    (by rw [Command.set?_of_invalid _ hprotection]; exact hstart')
  obtain ⟨s', hperformed, -⟩ := namedProtection_enabled (by rw [hhooked]; exact hconfigured)
  exact ⟨checkedOut_directory [], s', hperformed, Command.set?_of_invalid _ hprotection,
    value?_of_invalid hprotection, value?_of_invalid hstrict⟩

end checkedOut

end QualityGate
