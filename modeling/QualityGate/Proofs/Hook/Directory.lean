import Mathlib
import QualityGate.Hook.Install
import QualityGate.Proofs.Workspace.Change

/-! A repository's hooks directory, in which every hook and every backup is a
file or is missing. It stays one when hooks come, change and go. -/

namespace QualityGate

namespace Git

open Workspace

variable {places : List (List String)} {w w' : Workspace} {project target dir : Path}

theorem pointed_agree (h : Agree places w w') (content : List Char) :
    pointed w' project content = pointed w project content := by
  simp only [pointed, resolve_agree h]

theorem pointed_directory_agree (h : Agree places w w') {content : List Char}
    (hfound : (do
      let target ← pointed w project content
      .ok (if w.isDirectory target then some target else none) : Outcome (Option Path)) = .ok (some target)) :
    (do
      let target ← pointed w' project content
      .ok (if w'.isDirectory target then some target else none) : Outcome (Option Path)) = .ok (some target) := by
  rw [pointed_agree h]
  cases hpointed : pointed w project content with
  | error e => simp [hpointed, bind, Except.bind] at hfound
  | ok there =>
    rw [hpointed] at hfound
    by_cases hdir : w.isDirectory there = true
    · simpa [bind, Except.bind, hdir, isDirectory_agree h hdir] using hfound
    · simp [bind, Except.bind, hdir] at hfound

/-- A repository's directory is found again, unless the file that points to it has changed. -/
theorem directory_agree (h : Agree places w w') (hfound : directory? w project = .ok (some target))
    (hapart : ∀ place data executable, w.locate (project.child ".git") = .ok ⟨place, some (.file data executable)⟩ →
      place ∉ places) : directory? w' project = .ok (some target) := by
  rw [directory?] at hfound ⊢
  by_cases hdir : w.isDirectory (project.child ".git") = true
  · rw [if_pos hdir] at hfound
    rwa [if_pos (isDirectory_agree h hdir)]
  by_cases hfile : w.isFile (project.child ".git") = true
  · obtain ⟨place, data, executable, hlocate⟩ := isFile_iff.mp hfile
    have hsame : w'.stat (project.child ".git") = w.stat (project.child ".git") := by
      rcases locate_agree h hlocate with ⟨he, -⟩ | ⟨hentry, hlocate'⟩
      · simp at he
      · rw [← h.outside place (hapart place data executable hlocate), hentry] at hlocate'
        simp only [stat, hlocate, hlocate']
    have hread : w'.readText (project.child ".git") = w.readText (project.child ".git") := by
      simp only [readText, readBytes, hsame]
    rw [if_neg hdir, if_pos hfile] at hfound
    rw [if_neg (by simpa only [isDirectory, hsame] using hdir),
      if_pos (by simpa only [isFile, hsame] using hfile), hread]
    cases htext : w.readText (project.child ".git") with
    | error e => simp [htext, bind, Except.bind] at hfound
    | ok text =>
      have hbind (f : List Char → Outcome (Option Path)) : ((.ok text : Outcome (List Char)) >>= f) = f text := rfl
      rw [htext, hbind] at hfound
      rw [hbind]
      dsimp only at hfound ⊢
      by_cases hpoints : "gitdir:".toList.isPrefixOf (Text.trim text) = true
      · rw [if_pos hpoints] at hfound ⊢
        exact pointed_directory_agree h hfound
      · rw [if_neg hpoints] at hfound
        cases hfound
  · simp [hdir, hfile] at hfound

theorem hooksDirectory_eq_some : hooksDirectory? w project = .ok (some dir) ↔
    ∃ target, directory? w project = .ok (some target) ∧ dir = target.child "hooks" := by
  rw [hooksDirectory?]
  cases directory? w project with
  | error e => simp [bind, Except.bind]
  | ok found =>
    cases found with
    | none => simp [bind, Except.bind]
    | some target => simp [bind, Except.bind, eq_comm]

end Git

namespace Hook

open Workspace

/-- Where a hook is. -/
def slot (place : List String) (k : HookKind) : List String := place ++ [Labelled.label k]

/-- Where a hook of the user's own is kept. -/
def spare (place : List String) (k : HookKind) : List String := place ++ [Labelled.label k ++ backupSuffix]

def slots (place : List String) : List (List String) := allKinds.flatMap fun k => [slot place k, spare place k]

theorem slot_mem (place : List String) (k : HookKind) : slot place k ∈ slots place := by
  cases k <;> simp [slots, allKinds]

theorem spare_mem (place : List String) (k : HookKind) : spare place k ∈ slots place := by
  cases k <;> simp [slots, allKinds]

theorem mem_slots {place s : List String} : s ∈ slots place ↔ ∃ k, s = slot place k ∨ s = spare place k := by
  constructor
  · intro h
    obtain ⟨k, -, hk⟩ := List.mem_flatMap.mp h
    exact ⟨k, by simpa using hk⟩
  · rintro ⟨k, rfl | rfl⟩
    · exact slot_mem place k
    · exact spare_mem place k

theorem length_of_mem_slots {place s : List String} (h : s ∈ slots place) : s.length = place.length + 1 := by
  obtain ⟨k, rfl | rfl⟩ := mem_slots.mp h <;> simp [slot, spare]

theorem append_ne_place {place s : List String} (hs : s ∈ slots place) (rest : List String) : s ++ rest ≠ place := by
  intro he
  have hlong := congrArg List.length he
  rw [List.length_append, length_of_mem_slots hs] at hlong
  omega

theorem slot_ne_spare (place : List String) (k k' : HookKind) : slot place k ≠ spare place k' := by
  intro h
  have hname : Labelled.label k = Labelled.label k' ++ backupSuffix := by simpa [slot, spare] using h
  revert hname
  cases k <;> cases k' <;> decide

theorem slot_injective {place : List String} {k k' : HookKind} (h : slot place k = slot place k') : k = k' := by
  have hname : Labelled.label k = Labelled.label k' := by simpa [slot] using h
  revert hname
  cases k <;> cases k' <;> decide

theorem spare_injective {place : List String} {k k' : HookKind} (h : spare place k = spare place k') : k = k' := by
  have hname : Labelled.label k ++ backupSuffix = Labelled.label k' ++ backupSuffix := by simpa [spare] using h
  revert hname
  cases k <;> cases k' <;> decide

/-- The hooks directory `dir` of a project stands at `place`, or there is none yet and it can be made there. Hooks
and their backups are files or missing, and the project's repository is not found through one of them. -/
structure HooksDirectory (w : Workspace) (project dir : Path) (place : List String) : Prop where
  known : Git.hooksDirectory? w project = .ok (some dir)
  found : w.locate dir = .ok ⟨place, some .directory⟩ ∨
    StandsAt w dir place ∧ w.entryAt place = none ∧ ∀ s ∈ slots place, w.entryAt s = none
  plain : ∀ s ∈ slots place, Plain (w.entryAt s)
  alone : ∀ s ∈ slots place, ∀ rest ≠ [], w.entryAt (s ++ rest) = none
  repository : ∃ s e, w.locate (project.child ".git") = .ok ⟨s, e⟩ ∧ s ∉ slots place

/-- A hooks directory that is there. -/
structure Present (w : Workspace) (project dir : Path) (place : List String) : Prop extends
    HooksDirectory w project dir place where
  directory : w.locate dir = .ok ⟨place, some .directory⟩

section

variable {w w' : Workspace} {project dir : Path} {place : List String}

theorem hooksDirectory_agree {places : List (List String)} (h : Agree places w w')
    (hknown : Git.hooksDirectory? w project = .ok (some dir))
    (hapart : ∀ s data executable, w.locate (project.child ".git") = .ok ⟨s, some (.file data executable)⟩ →
      s ∉ places) : Git.hooksDirectory? w' project = .ok (some dir) := by
  obtain ⟨target, htarget, rfl⟩ := Git.hooksDirectory_eq_some.mp hknown
  exact Git.hooksDirectory_eq_some.mpr ⟨target, Git.directory_agree h htarget hapart, rfl⟩

theorem repository_agree {places : List (List String)} (h : Agree places w w')
    (hrepository : ∃ s e, w.locate (project.child ".git") = .ok ⟨s, e⟩ ∧ s ∉ slots place) :
    ∃ s e, w'.locate (project.child ".git") = .ok ⟨s, e⟩ ∧ s ∉ slots place := by
  obtain ⟨s, e, hlocate, hs⟩ := hrepository
  rcases locate_agree h hlocate with ⟨-, hsame⟩ | ⟨-, hfound⟩
  · exact ⟨s, e, hsame, hs⟩
  · exact ⟨s, _, hfound, hs⟩

/-- The directory does not depend on what its hooks and their backups are. -/
theorem Present.of_agree (h : Present w project dir place) (hagree : Agree (slots place) w w')
    (hplain : ∀ s ∈ slots place, Plain (w'.entryAt s)) : Present w' project dir place := by
  have hdir : w'.locate dir = .ok ⟨place, some .directory⟩ := by
    have houtside : place ∉ slots place := fun hmem => append_ne_place hmem [] (List.append_nil place)
    rcases locate_agree hagree h.directory with ⟨-, hsame⟩ | ⟨hentry, hfound⟩
    · exact hsame
    · rw [hfound, ← hagree.outside place houtside, hentry]
  exact
    { known := hooksDirectory_agree hagree h.known fun s data executable hfile => by
        obtain ⟨s', e, hlocate, hs⟩ := h.repository
        rw [hlocate] at hfile
        rwa [← (Located.mk.inj (Except.ok.inj hfile)).1]
      found := .inl hdir
      plain := hplain
      alone := fun s hs rest hrest => by
        have houtside : s ++ rest ∉ slots place := fun hmem => by
          have hlong := length_of_mem_slots hmem
          rw [List.length_append, length_of_mem_slots hs] at hlong
          exact hrest (List.length_eq_zero_iff.mp (by omega))
        rw [← hagree.outside _ houtside]
        exact h.alone s hs rest hrest
      repository := repository_agree hagree h.repository
      directory := hdir }

/-- A hooks directory that is missing is made, with no hook in it. -/
theorem HooksDirectory.create (h : HooksDirectory w project dir place) (hstands : StandsAt w dir place)
    (hfree : w.entryAt place = none) :
    ∃ w', w.createDirectories dir = .ok w' ∧ Present w' project dir place ∧
      ∀ q ≠ place, w'.entryAt q = w.entryAt q := by
  have hreplaced := replaced_put hstands.plain .directory
  have hagree := hreplaced.agree hstands.plain nofun
  have hbelow (s : List String) (hs : s ∈ slots place) (rest : List String) :
      (w.put place .directory).entryAt (s ++ rest) = w.entryAt (s ++ rest) :=
    hreplaced.of_ne (append_ne_place hs rest)
  have hslots (s : List String) (hs : s ∈ slots place) : (w.put place .directory).entryAt s = w.entryAt s := by
    simpa using hbelow s hs []
  have hlocate : (w.put place .directory).locate dir = .ok ⟨place, some .directory⟩ := by
    rcases locate_agree hagree hstands.locate with ⟨hdir, -⟩ | ⟨-, hfound⟩
    · simp [hfree] at hdir
    · rwa [hreplaced.self] at hfound
  refine ⟨_, createDirectories_of_free hstands hfree, ?_, fun q hq => hreplaced.of_ne hq⟩
  exact
    { known := hooksDirectory_agree hagree h.known fun s data executable hfile hs => by
        have hentry := entryAt_of_locate hfile (by simp)
        rw [List.mem_singleton.mp hs, hfree] at hentry
        cases hentry
      found := .inl hlocate
      plain := fun s hs => (hslots s hs).symm ▸ h.plain s hs
      alone := fun s hs rest hrest => (hbelow s hs rest).trans (h.alone s hs rest hrest)
      repository := repository_agree hagree h.repository
      directory := hlocate }

end

end Hook

end QualityGate
