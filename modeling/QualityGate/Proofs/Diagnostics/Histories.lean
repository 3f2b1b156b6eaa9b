import Mathlib
import QualityGate.Diagnostics.Basic
import QualityGate.Diagnostics.Update
import QualityGate.Policy.Protection
import QualityGate.Proofs.Lookup
import QualityGate.Proofs.Policy.DecisionTable
import QualityGate.Proofs.Workspace.Spelling

/-! Histories of the editor's diagnostics, and the saves that are decided by them.
A file's diagnostics are kept under one spelling of its path and looked up by
the spelling that each diagnostic itself gives. -/

namespace QualityGate

/-- A text names a file, relative paths starting at the root. -/
def Names (root : Path) (s : String) (file : Path) : Prop := ∃ p, Path.Spells s p ∧ root.join p = file

/-- Each diagnostic names the file that it is set under. -/
def Owned (root : Path) : DiagnosticsUpdate → Prop
  | .set name ds => ∀ d ∈ ds, ∃ file, Names root name file ∧ Names root d.file file
  | .clear => True

/-- What the editor's diagnostics are after a history. -/
def diagnosticsAfter (root : Path) (us : List DiagnosticsUpdate) : DiagnosticsByFile :=
  us.foldl (fun d u => (d.update u).1) { root := some root }

section names

variable {root file file' : Path} {s t : String}

theorem names_iff : Names root s file ↔ root.join (Path.ofText s) = file := by
  simp only [Names, Path.spells_iff, exists_eq_left']

theorem normalized_eq_of_names (hs : Names root s file) (ht : Names root t file) :
    Path.normalized (some root) s = Path.normalized (some root) t :=
  Path.normalized_eq_iff.mpr ((names_iff.mp hs).trans (names_iff.mp ht).symm)

theorem normalized_ne_of_names (hs : Names root s file) (ht : Names root t file') (h : file ≠ file') :
    Path.normalized (some root) s ≠ Path.normalized (some root) t := by
  intro he
  exact h ((names_iff.mp hs).symm.trans ((Path.normalized_eq_iff.mp he).trans (names_iff.mp ht)))

instance (root : Path) (s : String) (file : Path) : Decidable (Names root s file) := decidable_of_iff _ names_iff.symm

end names

/-- The last list set for a file since everything was cleared. -/
def lastSet (root file : Path) (us : List DiagnosticsUpdate) : List EditorDiagnostic :=
  us.foldl (fun ds u => match u with
    | .set name ds' => if Names root name file then ds' else ds
    | .clear => []) []

/-- Under each key stand diagnostics that themselves give that key. -/
structure Keyed (root : Path) (d : DiagnosticsByFile) : Prop where
  rooted : d.root = some root
  keys : (d.files.map Prod.fst).Nodup
  own : ∀ e ∈ d.files, ∀ x ∈ e.2, Path.normalized (some root) x.file = e.1

section keyed

variable {root file : Path} {d : DiagnosticsByFile} {name : String} {ds : List EditorDiagnostic}

theorem keyed_initial (root : Path) : Keyed root { root := some root } where
  rooted := rfl
  keys := List.nodup_nil
  own := nofun

theorem Keyed.set (h : Keyed root d) (howned : Owned root (.set name ds)) : Keyed root (d.set name ds) := by
  have hkey : d.key name = Path.normalized (some root) name := by rw [DiagnosticsByFile.key, h.rooted]
  unfold DiagnosticsByFile.set
  split
  case isTrue =>
    exact ⟨h.rooted, h.keys.sublist (List.filter_sublist.map Prod.fst), fun e he => h.own e (List.mem_filter.mp he).1⟩
  case isFalse =>
    refine ⟨h.rooted, nodup_insertKey _ _ h.keys, fun e he => ?_⟩
    rcases mem_insertKey _ _ he with ⟨he, -⟩ | rfl
    · exact h.own e he
    · intro x hx
      obtain ⟨file, hname, hx⟩ := howned x hx
      exact (normalized_eq_of_names hx hname).trans hkey.symm

theorem Keyed.update (h : Keyed root d) {u : DiagnosticsUpdate} (howned : Owned root u) : Keyed root (d.update u).1 := by
  cases u with
  | set name ds => exact h.set howned
  | clear => exact ⟨h.rooted, List.nodup_nil, nofun⟩

theorem keyed_after {us : List DiagnosticsUpdate} (h : ∀ u ∈ us, Owned root u) : Keyed root (diagnosticsAfter root us) := by
  induction us using List.reverseRecOn with
  | nil => exact keyed_initial root
  | append_singleton us u ih =>
    obtain ⟨hus, hu⟩ := List.forall_mem_append.mp h
    rw [diagnosticsAfter, List.foldl_append]
    exact (ih hus).update (hu u List.mem_cons_self)

theorem lookup_set_self (d : DiagnosticsByFile) (name : String) (ds : List EditorDiagnostic) :
    ((d.set name ds).files.lookup (d.key name)).getD [] = ds := by
  unfold DiagnosticsByFile.set
  split
  case isTrue hnone => rw [lookup_filter_self, List.isEmpty_iff.mp hnone, Option.getD_none]
  case isFalse => rw [lookup_insertKey_self, Option.getD_some]

theorem lookup_set_of_ne {k : String} (h : k ≠ d.key name) (ds : List EditorDiagnostic) :
    (d.set name ds).files.lookup k = d.files.lookup k := by
  unfold DiagnosticsByFile.set
  split
  case isTrue => exact lookup_filter_of_ne _ h
  case isFalse => exact lookup_insertKey_of_ne _ _ h

/-- Under the key of a file stands the last list set for it. -/
theorem lookup_after {us : List DiagnosticsUpdate} (h : ∀ u ∈ us, Owned root u) (hname : Names root name file) :
    ((diagnosticsAfter root us).files.lookup (Path.normalized (some root) name)).getD [] = lastSet root file us := by
  induction us using List.reverseRecOn with
  | nil => rfl
  | append_singleton us u ih =>
    have hus := (List.forall_mem_append.mp h).1
    rw [lastSet, diagnosticsAfter, List.foldl_append, List.foldl_append]
    cases u with
    | clear => rfl
    | set name' ds =>
      have hkey : (diagnosticsAfter root us).key name' = Path.normalized (some root) name' := by
        rw [DiagnosticsByFile.key, (keyed_after hus).rooted]
      change (((diagnosticsAfter root us).set name' ds).files.lookup _).getD [] =
        if Names root name' file then ds else lastSet root file us
      split
      case isTrue hname' => rw [normalized_eq_of_names hname hname', ← hkey, lookup_set_self]
      case isFalse hname' =>
        have hne : Path.normalized (some root) name ≠ Path.normalized (some root) name' :=
          normalized_ne_of_names hname (names_iff.mpr rfl) fun he => hname' (names_iff.mpr he.symm)
        rw [lookup_set_of_ne (hkey ▸ hne), ih hus]

/-- The diagnostics of a file are those under its key. -/
theorem Keyed.ofFile_eq (h : Keyed root d) (name : String) :
    d.ofFile name = (d.files.lookup (Path.normalized (some root) name)).getD [] := by
  rw [DiagnosticsByFile.ofFile, diagnosticsOf, h.rooted]
  exact filter_flatMap_of_keys h.keys h.own _

end keyed

/-- The verdict on a save shows the name of the file in its reason and nowhere else. -/
theorem saveVerdict_named (state : PolicyState) (ds : List EditorDiagnostic) :
    ∃ (d : Decision) (before after : String), ∀ name, state.saveVerdict name (some (.ok ds)) =
      .ok { d with reason := before ++ name ++ after } := by
  let errors : Int := ds.countP EditorDiagnostic.isError
  let warnings : Int := ds.countP EditorDiagnostic.isWarning
  let details := PolicyState.diagnosticDetails ds
  let after := " has " ++ describeCounts errors warnings details none
  cases hb : state.blocks errors warnings with
  | true =>
    refine ⟨{ state.decision .save false "" with errors, warnings, details }, "Save blocked" ++ state.levelText ++ ": ",
      after, fun name => ?_⟩
    simp only [PolicyState.saveVerdict, String.append_assoc, errors, warnings, details, after] at hb ⊢
    simp only [hb, if_true]
    rfl
  | false =>
    refine ⟨{ state.decision .save true "" with errors, warnings, details }, "Save allowed" ++ ": ", after, fun name => ?_⟩
    simp only [PolicyState.saveVerdict, String.append_assoc, errors, warnings, details, after] at hb ⊢
    simp only [hb, Bool.false_eq_true, if_false]
    rfl

/-- A save is decided by the state and the last list set for the file, whatever the spellings of its path and
whatever is known about other files; only the reason shows how the path was spelled. -/
theorem save_by_last_set {root : Path} {us : List DiagnosticsUpdate} {state : PolicyState} {p : Protection}
    (howned : ∀ u ∈ us, Owned root u) (hp : p.editor = some (.memory (diagnosticsAfter root us)))
    (he : state.enabled = true) (file : Path) :
    ∃ (d : Decision) (before after : String),
      (∀ name, state.saveVerdict name (some (.ok (lastSet root file us))) =
        .ok { d with reason := before ++ name ++ after }) ∧
      ∀ name, Names root name file → ∀ override s,
        p.decide state { trigger := .save, file := some name, override } s =
          (.ok { d with reason := before ++ name ++ after }, s) := by
  obtain ⟨d, before, after, hverdict⟩ := saveVerdict_named state (lastSet root file us)
  refine ⟨d, before, after, hverdict, fun name hname override s => ?_⟩
  have hofFile : (Provider.memory (diagnosticsAfter root us)).ofFile s.workspace name = .ok (lastSet root file us) := by
    have hkeyed := keyed_after howned
    rw [← lookup_after howned hname, ← hkeyed.ofFile_eq name]
    rfl
  rw [Protection.decide_save he rfl rfl, hp, Option.map_some, hofFile, hverdict]

section

/-- One file set under two spellings of its path, and another one between. -/
def respelled : List DiagnosticsUpdate :=
  [.set "./src//a.ts/" [{ file := "/ws/src/a.ts" }], .set "b.ts" [{ file := "./b.ts" }],
    .set "src/a.ts" [{ file := "src/./a.ts", severity := .warning }]]

theorem names_respelled : ∀ s ∈ ["./src//a.ts/", "/ws/src/a.ts", "src/a.ts", "src/./a.ts", "/ws/src//./a.ts"],
    Names ⟨"/", ["ws"]⟩ s ⟨"/", ["ws", "src", "a.ts"]⟩ := by
  simp only [List.forall_mem_cons, names_iff]
  exact ⟨by decide, by decide, by decide, by decide, by decide, List.forall_mem_nil _⟩

theorem names_other : ∀ s ∈ ["b.ts", "./b.ts"], Names ⟨"/", ["ws"]⟩ s ⟨"/", ["ws", "b.ts"]⟩ := by
  simp only [List.forall_mem_cons, names_iff]
  exact ⟨by decide, by decide, List.forall_mem_nil _⟩

theorem owned_respelled : ∀ u ∈ respelled, Owned ⟨"/", ["ws"]⟩ u := by
  intro u hu
  rw [respelled] at hu
  simp only [List.mem_cons, List.not_mem_nil, or_false] at hu
  rcases hu with rfl | rfl | rfl
  all_goals
    intro d hd
    obtain rfl := List.mem_singleton.mp hd
  · exact ⟨_, names_respelled _ (by simp), names_respelled _ (by simp)⟩
  · exact ⟨_, names_other _ (by simp), names_other _ (by simp)⟩
  · exact ⟨_, names_respelled _ (by simp), names_respelled _ (by simp)⟩

theorem lastSet_respelled : lastSet ⟨"/", ["ws"]⟩ ⟨"/", ["ws", "src", "a.ts"]⟩ respelled =
    [{ file := "src/./a.ts", severity := .warning }] := by
  simp only [respelled, lastSet, List.foldl_cons, List.foldl_nil, if_pos (names_respelled "src/a.ts" (by simp))]

/-- A warning set last lets a save pass that the error under another spelling would have blocked. -/
theorem save_by_last_set_respelled :
    let p := Protection.standard ⟨"/", ["ws"]⟩ {} (some (.memory (diagnosticsAfter ⟨"/", ["ws"]⟩ respelled)))
    (∀ u ∈ respelled, Owned ⟨"/", ["ws"]⟩ u) ∧ Names ⟨"/", ["ws"]⟩ "/ws/src//./a.ts" ⟨"/", ["ws", "src", "a.ts"]⟩ ∧
      ∃ d : Decision, d.allowed = true ∧ ∀ s,
        p.decide { enabled := true } { trigger := .save, file := some "/ws/src//./a.ts" } s = (.ok d, s) := by
  intro p
  have hquery := names_respelled "/ws/src//./a.ts" (by simp)
  obtain ⟨d, before, after, hverdict, hdecide⟩ := save_by_last_set owned_respelled
    (show p.editor = some (.memory (diagnosticsAfter ⟨"/", ["ws"]⟩ respelled)) from rfl)
    (show PolicyState.enabled { enabled := true } = true from rfl) ⟨"/", ["ws", "src", "a.ts"]⟩
  refine ⟨owned_respelled, hquery, _, ?_, fun s => hdecide _ hquery false s⟩
  have hverdict := hverdict ""
  rw [lastSet_respelled] at hverdict
  obtain ⟨d', hd', hallowed⟩ : ∃ d', PolicyState.saveVerdict { enabled := true } ""
      (some (.ok [{ file := "src/./a.ts", severity := .warning }])) = .ok d' ∧ d'.allowed = true := ⟨_, rfl, by decide⟩
  cases hd'.symm.trans hverdict
  exact hallowed

end

end QualityGate
