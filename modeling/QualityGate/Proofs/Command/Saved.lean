import Mathlib
import QualityGate.Command.Perform
import QualityGate.Proofs.Hook.Spared
import QualityGate.Proofs.Persisted

/-! The saved state of a project: what a command loads is what the last one has
saved, where nothing else comes between. -/

open QualityGate.Workspace

namespace QualityGate.Command

/-- Where the state of a project is saved. -/
def statePath (root : Path) : Path := (Config.directory root).child "policy.json"

/-- Its place in the tree, if there is no link on the way. -/
def statePlace (w : Workspace) (root : Path) : List String := (w.absolute (statePath root)).parts

/-- The hooks directory stands in the project's repository, past no link. -/
structure HooksInside (root : Path) (w : Workspace) : Prop where
  repository : w.entryAt (w.absolute (root.child ".git")).parts = some .directory
  unlinked : Unlinked w (w.absolute (Hook.site root)).parts

/-- The state has a place of its own: no link is on the way to it or leads to a file of its name, and the project does not
lie below a hook or a backup of its own. -/
structure Apart (root : Path) (w : Workspace) : Prop where
  dots : ".." ∉ statePlace w root
  unlinked : Unlinked w (statePlace w root)
  unaimed : Unaimed "policy.json" w
  hooks : (∀ k : HookKind, Labelled.label k ∉ statePlace w root ∧
      Labelled.label k ++ Hook.backupSuffix ∉ statePlace w root) ∨ HooksInside root w

/-- What commands keep of that, with the ways that they keep. -/
structure Guarded (ways : List (List String)) (root : Path) (w : Workspace) : Prop where
  way : statePlace w root ∈ ways
  dots : ".." ∉ statePlace w root
  unlinked : Unlinked w (statePlace w root)
  clear : Clear "policy.json" ways root w

/-- What is saved is a state: nothing without protection, and its text otherwise. -/
inductive Saved (root : Path) (w : Workspace) : PolicyState → Prop
  | nothing (h : w.entryAt (statePlace w root) = none) : Saved root w {}
  | text {state : PolicyState} {executable : Bool} (he : state.enabled = true) (hreached : Reached w (statePlace w root))
      (h : w.entryAt (statePlace w root) = some (.file (PolicyStore.text state).toUTF8 executable)) : Saved root w state

section saved

variable {ways : List (List String)} {root : Path} {w w' : Workspace} {state state' : PolicyState}

theorem statePlace_eq (w : Workspace) (root : Path) :
    statePlace w root = (w.absolute (Config.directory root)).parts ++ ["policy.json"] := absolute_child w _ _

theorem statePlace_of_root (h : w'.root = w.root) (root : Path) : statePlace w' root = statePlace w root := by
  rw [statePlace, statePlace, absolute, absolute, h]

theorem elsewhere_statePlace (w : Workspace) (root : Path) : Elsewhere "policy.json" (statePlace w root) where
  last := by rw [statePlace_eq, List.getLast?_concat]
  slot k := by cases k <;> decide
  hooks := by decide
  config := by decide

theorem Apart.guarded (h : Apart root w) : ∃ ways, Guarded ways root w := by
  rcases h.hooks with hnamed | hinside
  · exact ⟨[statePlace w root],
      { way := List.mem_singleton_self _
        dots := h.dots
        unlinked := h.unlinked
        clear := Hook.clear_of_named h.unaimed fun way hway k => List.mem_singleton.mp hway ▸ hnamed k }⟩
  · have hplace : statePlace w root = (w.absolute root).parts ++ [".bastion", "policy.json"] := by
      rw [statePlace_eq, show Config.directory root = root.child ".bastion" from rfl, absolute_child, List.append_assoc]
      rfl
    have hsite : (w.absolute (Hook.site root)).parts = (w.absolute root).parts ++ [".git", "hooks"] := by
      rw [Hook.site, absolute_child, absolute_child, List.append_assoc]
      rfl
    have hdots : ".." ∉ (w.absolute (Hook.site root)).parts := by
      have hroot : ".." ∉ (w.absolute root).parts := fun hmem => h.dots (hplace ▸ List.mem_append_left _ hmem)
      simp [hsite, hroot]
    refine ⟨[statePlace w root, (w.absolute (Hook.site root)).parts],
      { way := List.mem_cons_self
        dots := h.dots
        unlinked := h.unlinked
        clear := Hook.clear_of_unlinked h.unaimed hdots hinside.unlinked hinside.repository
          (List.mem_cons_of_mem _ List.mem_cons_self) fun way hway s hprefix => ?_ }⟩
    have hlong := hprefix.length_le
    obtain rfl | rfl : way = statePlace w root ∨ way = (w.absolute (Hook.site root)).parts := by simpa using hway
    all_goals
      simp only [hplace, hsite, List.length_append, List.length_cons, List.length_nil] at hlong
      omega

theorem Guarded.kept (h : Guarded ways root w) (hkept : KeepsWays ways w w') : Guarded ways root w' := by
  have hplace := statePlace_of_root hkept.root root
  exact
    { way := hplace ▸ h.way
      dots := hplace ▸ h.dots
      unlinked := hplace ▸ hkept.unlinked_place h.way h.unlinked
      clear := h.clear.kept hkept }

theorem Saved.spared (h : Saved root w state) (hway : statePlace w root ∈ ways)
    (hspared : Spares ways (statePlace w root) w w') : Saved root w' state := by
  have hplace := statePlace_of_root hspared.root root
  cases h with
  | nothing h => exact .nothing (by rw [hplace, hspared.file, h])
  | text he hreached h => exact .text he (hplace ▸ hspared.reached hway hreached) (by rw [hplace, hspared.file, h])

theorem Saved.enabled_or (h : Saved root w state) : (if state.enabled then state else {}) = state := by
  cases h with
  | nothing => rfl
  | text he => rw [if_pos he]

/-- The directory for the state is made on the way to it. -/
theorem Guarded.opens (h : Guarded ways root w) (hw : w.createDirectories (Config.directory root) = .ok w') :
    Spares ways (statePlace w root) w w' ∧ Reached w' (statePlace w' root) := by
  have hplace := statePlace_eq w root
  have hbelow : (w.absolute (Config.directory root)).parts <+: statePlace w root := hplace ▸ List.prefix_append _ _
  obtain ⟨hspares, hdirs⟩ := createDirectories_above h.dots h.unlinked hbelow (by simp [hplace]) h.way hw
  refine ⟨hspares, fun q hq hne => hdirs q ?_⟩
  rw [statePlace_of_root hspares.root, hplace] at hq hne
  exact (List.prefix_concat_iff.mp hq).resolve_left hne

theorem Guarded.walk (h : Guarded ways root w) (hreached : Reached w (statePlace w root)) (followLast : Bool) :
    w.walk followLast linkLimit [] (statePlace w root) = .ok ⟨statePlace w root, w.entryAt (statePlace w root)⟩ := by
  have hnonempty : statePlace w root ≠ [] := by simp [statePlace_eq]
  have hplace : Reached w ([] ++ statePlace w root) := hreached
  exact walk_reached h.dots hnonempty hplace (h.unlinked _ (List.prefix_refl _))

/-- Where the directory for the state is there, it is not made again. -/
theorem Guarded.open_of_reached (h : Guarded ways root w) (hreached : Reached w (statePlace w root)) :
    w.createDirectories (Config.directory root) = .ok w := by
  have hplace := statePlace_eq w root
  have hdots : ".." ∉ (w.absolute (Config.directory root)).parts := fun hmem =>
    h.dots (hplace ▸ List.mem_append_left _ hmem)
  have habove : ∀ rest, rest <+: (w.absolute (Config.directory root)).parts → rest ≠ [] →
      w.entryAt ([] ++ rest) = some .directory := by
    refine fun rest hrest _ => hreached rest (hrest.trans (hplace ▸ List.prefix_append _ _)) fun he => ?_
    have hlong := hrest.length_le
    rw [he, hplace, List.length_append, List.length_singleton] at hlong
    omega
  exact createDirectories_of_directory (walk_directories hdots habove)

theorem Saved.plain (hsaved : Saved root w state) : Plain (w.entryAt (statePlace w root)) := by
  cases hsaved with
  | nothing hnone => exact hnone ▸ plain_none
  | text _ _ hfile => exact hfile ▸ plain_file _ _

section reached

variable (h : Guarded ways root w) (hreached : Reached w (statePlace w root))

include h hreached

theorem load_saved (hsaved : Saved root w state) : PolicyStore.load w (statePath root) = .ok state := by
  have hlocate : w.locate (statePath root) = .ok ⟨statePlace w root, w.entryAt (statePlace w root)⟩ :=
    h.walk hreached true
  cases hsaved with
  | nothing hnone =>
    refine PolicyStore.load_of_missing ?_
    rw [contains, stat, hlocate, hnone]
    rfl
  | text _ _ hfile =>
    refine PolicyStore.load_of_text ?_
    rw [readBytes, stat, hlocate, hfile]

theorem save_saved (hsaved : Saved root w state) (he : state'.enabled = true) :
    ∃ w', PolicyStore.save (statePath root) state' w = .ok w' ∧ Guarded ways root w' ∧ Saved root w' state' := by
  have hplain := hsaved.plain
  have hparent : (statePath root).parent = Config.directory root := by simp [statePath, Path.child, Path.parent]
  have hwrite : ∃ executable, w.writeText (statePath root) (PolicyStore.text state') =
      .ok (w.put (statePlace w root) (.file (PolicyStore.text state').toUTF8 executable)) := by
    have hlocate : w.locate (statePath root) = .ok ⟨statePlace w root, w.entryAt (statePlace w root)⟩ :=
      h.walk hreached true
    cases hsaved with
    | nothing hnone => exact ⟨false, by rw [writeText, write, hlocate, hnone]⟩
    | @text _ executable _ _ hfile => exact ⟨executable, by rw [writeText, write, hlocate, hfile]⟩
  obtain ⟨executable, hwrite⟩ := hwrite
  have hkept : KeepsWays ways w _ := keepsWays_put hplain.ne_directory
    (show ∀ target, Entry.file (PolicyStore.text state').toUTF8 executable ≠ .link target by rintro _ ⟨⟩)
  have hplace := statePlace_of_root hkept.root root
  have hfile := (replaced_put hplain (.file (PolicyStore.text state').toUTF8 executable)).self
  refine ⟨_, ?_, h.kept hkept, .text he (hplace ▸ hkept.reached h.way hreached) (hplace ▸ hfile)⟩
  rw [PolicyStore.save, hparent, Outcome.bind_of_ok (h.open_of_reached hreached), hwrite]

theorem clear_saved (hsaved : Saved root w state) :
    ∃ w', PolicyStore.clear (statePath root) w = .ok w' ∧ Guarded ways root w' ∧ Saved root w' {} := by
  have hlocate : w.locateLink (statePath root) = .ok ⟨statePlace w root, w.entryAt (statePlace w root)⟩ :=
    h.walk hreached false
  cases hsaved with
  | nothing hnone =>
    have hremove : w.remove (statePath root) = .error (.access .notFound (statePath root).text) := by
      rw [remove, hlocate, hnone]
    refine ⟨w, ?_, h, .nothing hnone⟩
    rw [PolicyStore.clear, hremove]
  | text _ _ hfile =>
    have hplain : w.entryAt (statePlace w root) ≠ some .directory := by simp [hfile]
    have hkept : KeepsWays ways w _ := keepsWays_drop hplain
    have hremove : w.remove (statePath root) = .ok (w.drop (statePlace w root)) := by
      rw [remove, hlocate, hfile]
    refine ⟨_, ?_, h.kept hkept, .nothing ?_⟩
    · rw [PolicyStore.clear, hremove]
    · rw [statePlace_of_root hkept.root, entryAt_drop hplain, Function.update_self]

end reached

end saved

end QualityGate.Command
