import Mathlib
import QualityGate.Hook.Install
import QualityGate.Proofs.Text.Occurrences
import QualityGate.Proofs.Workspace.Change

/-! Which files are taken for managed hooks: every script, whatever the level, the
tools and the section are, and no file that does not hold the marker. -/

namespace QualityGate.Hook

open Text

/-- Whether a file is taken for a managed hook. One that is no text is not. -/
def managed : Entry → Bool
  | .file data _ =>
    match Workspace.decoded (.ok data) Utf8.decode with
    | .ok text => isManaged text
    | .error _ => false
  | _ => false

theorem isManagedFile_eq {w : Workspace} {p : Path} {place : List String} (h : w.StandsAt p place) :
    isManagedFile w p = (w.entryAt place).any managed := by
  have hplain := h.plain
  cases he : w.entryAt place with
  | none => simp [isManagedFile, h.isFile_free he]
  | some e =>
    cases e with
    | file data executable =>
      cases hread : Workspace.decoded (.ok data) Utf8.decode <;>
        simp [isManagedFile, Workspace.readText, h.isFile he, h.readBytes he, managed, hread]
    | directory => simp [he] at hplain
    | link target => simp [he] at hplain

theorem readText_of_managed {w : Workspace} {p : Path} {place : List String} (h : w.StandsAt p place) {e : Entry}
    (he : w.entryAt place = some e) (hmanaged : managed e = true) : ∃ text, w.readText p = .ok text := by
  cases e with
  | file data executable =>
    rw [Workspace.readText, h.readBytes he]
    rw [managed] at hmanaged
    cases hread : Workspace.decoded (.ok data) Utf8.decode with
    | ok text => exact ⟨text, rfl⟩
    | error f => simp [hread] at hmanaged
  | directory => cases hmanaged
  | link target => cases hmanaged

theorem block_nil : block [] = "" := rfl

theorem block_cons (line : String) (lines : List String) : block (line :: lines) = line ++ "\n" ++ block lines := by
  cases lines with
  | nil => simp [block]
  | cons next lines => simp [block, String.intercalate_cons_cons]

theorem block_append (lines more : List String) : block (lines ++ more) = block lines ++ block more := by
  induction lines with
  | nil => exact String.empty_append.symm
  | cons line lines ih => rw [List.cons_append, block_cons, block_cons, ih, ← String.append_assoc]

theorem script_marked (kind : HookKind) (level : EnforcementLevel) (tools : Tools) (sectionName : String) :
    ∃ rest, (script kind level tools sectionName).toList = "#!/bin/sh\n".toList ++ (marker.toList ++ rest) := by
  obtain ⟨line, lines, tail, hscript⟩ : ∃ line lines tail, script kind level tools sectionName =
      block ("#!/bin/sh" :: (marker ++ line) :: lines) ++ tail := by
    unfold script
    simp only [String.append_assoc]
    exact ⟨_, _, _, rfl⟩
  rw [hscript, block_cons, block_cons]
  simp only [String.toList_append, List.append_assoc]
  exact ⟨_, rfl⟩

theorem managed_script (kind : HookKind) (level : EnforcementLevel) (tools : Tools) (sectionName : String)
    (executable : Bool) : managed (.file (script kind level tools sectionName).toUTF8 executable) = true := by
  obtain ⟨rest, hscript⟩ := script_marked kind level tools sectionName
  have hread : Workspace.decoded (.ok (script kind level tools sectionName).toUTF8) Utf8.decode =
      .ok (unifyNewlines (script kind level tools sectionName).toList) := by
    simp only [Workspace.decoded, bind, Except.bind, Utf8.decode_toUTF8]
    rfl
  have hunified : unifyNewlines (script kind level tools sectionName).toList =
      "#!/bin/sh\n".toList ++ (marker.toList ++ unifyNewlines rest) := by
    rw [hscript, unifyNewlines_append (by decide), unifyNewlines_append (by decide)]
  rw [managed, hread]
  exact (contains_iff _ _).mpr (hunified ▸ List.infix_append' _ _ _)

/-- A managed hook's bytes hold the marker. -/
theorem marker_of_managed {data : ByteArray} {executable : Bool} (h : managed (.file data executable) = true) :
    Utf8.asciiBytes marker.toList <:+: data.data.toList := by
  simp only [managed, Workspace.decoded, bind, Except.bind] at h
  cases hdecode : Utf8.decode data.data.toList with
  | error f => simp [hdecode, Except.mapError] at h
  | ok cs =>
    simp only [hdecode, Except.mapError] at h
    have hunified : marker.toList <:+: unifyNewlines cs := (contains_iff _ _).mp h
    have hascii : ∀ c ∈ marker.toList, c.toNat < 128 := by simp [marker]
    exact Utf8.contained_of_decode hdecode hascii (contained_of_unified (by decide) hunified)

end QualityGate.Hook
