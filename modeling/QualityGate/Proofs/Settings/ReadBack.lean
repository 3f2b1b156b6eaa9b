import Mathlib
import QualityGate.Proofs.Finding.Read
import QualityGate.Proofs.Schema.Accepted
import QualityGate.Settings.Config

/-! An accepted configuration is read back from what it is written as, whatever
commands, patterns, tables and weights it holds. Whole numbers that are keys are
written as texts, and one whose text is too long is not read back. -/

namespace QualityGate

open Schema

namespace Schema

theorem ofJsonFields_map {α : Type} (f : α → String × Json) (as : List α) :
    Input.ofJsonFields (as.map f) = as.map fun a => (.text (f a).1, .ofJson (f a).2) := by
  induction as with
  | nil => rfl
  | cons a as ih => rw [List.map_cons, Input.ofJsonFields, ih, List.map_cons]

theorem listOf_strings (texts : List String) :
    listOf string (.list (Input.ofJsonItems (texts.map .str))) = pure texts :=
  itemsFrom_strings texts 0

end Schema

/-- What a table's entry is read back from. -/
def writtenWord (e : String × Severity) : Input × Input := (.text e.1, .text (Labelled.label e.2))

def writtenLevel (e : Int × Severity) : Input × Input := (.text (toString e.1), .text (Labelled.label e.2))

def writtenWeights (e : Source × Int × Int) : Input × Input := (.text (Labelled.label e.1), .list [.int e.2.1, .int e.2.2])

/-- The number's text can be read. -/
def Readable (n : Int) : Prop := (toString n).length ≤ Numeral.mostDigits

theorem readable_iff {n : Int} : Readable n ↔ -10 ^ (Numeral.mostDigits - 1) < n ∧ n < 10 ^ Numeral.mostDigits := by
  have hpositive : 0 < Numeral.mostDigits := by decide
  have hlength (k : Nat) (hk : 0 < k) : (Nat.toDigits 10 n.natAbs).length ≤ k ↔ n.natAbs < 10 ^ k :=
    Nat.length_toDigits_le_iff (by decide) hk
  have hpow (k : Nat) : (0 : Int) < 10 ^ k := by positivity
  rw [Readable, ← String.length_toList, Json.int_toList]
  split
  case isTrue hn =>
    rw [hlength _ hpositive]
    have := hpow (Numeral.mostDigits - 1)
    zify
    rw [abs_of_nonneg hn]
    omega
  case isFalse hn =>
    have := hpow Numeral.mostDigits
    rw [List.length_cons, show (Nat.toDigits 10 n.natAbs).length + 1 ≤ Numeral.mostDigits ↔
      (Nat.toDigits 10 n.natAbs).length ≤ Numeral.mostDigits - 1 by omega, hlength _ (by decide)]
    zify
    rw [abs_of_neg (by omega)]
    omega

theorem int_toString {n : Int} : int (.text (toString n)) = integerOfText (toString n) := rfl

theorem read_toString {n : Int} (h : Readable n) : int (.text (toString n)) = pure n := by
  rw [int_toString, integerOfText_toString, if_neg (Nat.not_lt.mpr h)]

theorem readable_of_read {n k : Int} (h : int (.text (toString n)) = pure k) : Readable n := by
  by_contra hlong
  rw [int_toString, integerOfText_toString, if_pos (Nat.lt_of_not_le hlong)] at h
  cases h

theorem ToolCommand.read_toJson (t : ToolCommand) : reader (.ofJson t.toJson) = pure t := by
  simp only [toJson, reader, Input.ofJson, Input.ofJsonFields, record]
  rw [required_of_get rfl (listOf_strings t.command), optional_of_get (r := int) rfl rfl,
    optional_of_get (r := int) rfl rfl]
  rfl

theorem Tools.read_toJson (t : Tools) : reader (.ofJson t.toJson) = pure t := by
  simp only [toJson, reader, Input.ofJson, Input.ofJsonFields, record]
  rw [optional_of_get rfl (ToolCommand.read_toJson t.typeCheck), optional_of_get rfl (ToolCommand.read_toJson t.lint),
    optional_of_get rfl (ToolCommand.read_toJson t.lintFix), optional_of_get rfl (ToolCommand.read_toJson t.build),
    optional_of_get rfl (ToolCommand.read_toJson t.dependencyAudit), optional_of_get (r := int) rfl rfl]
  rfl

theorem FileSelection.read_toJson (s : FileSelection) : reader (.ofJson s.toJson) = pure s := by
  simp only [toJson, reader, Input.ofJson, Input.ofJsonFields, record]
  rw [optional_of_get rfl (listOf_strings s.included),
    optional_of_get rfl (listOf_strings s.excluded)]
  rfl

namespace ScoreWeights

theorem read_toJson {w : ScoreWeights} (h : (w.perSource.map Prod.fst).Nodup) : reader (.ofJson w.toJson) = pure w := by
  have htable : mapOf Labelled.reader (pairOf int) (.table (w.perSource.map writtenWeights)) = pure w.perSource :=
    mapOf_encoded h (fun e _ => Labelled.read_label Source.distinct e.1) fun _ _ => rfl
  simp only [toJson, reader, Input.ofJson, Input.ofJsonFields, record, ofJsonFields_map]
  rw [optional_of_get rfl htable, optional_of_get (r := int) rfl rfl]
  rfl

theorem nodup_default : ((({} : ScoreWeights).perSource).map Prod.fst).Nodup := by decide

theorem nodup_of_read {w : ScoreWeights} {v : Input} (h : reader v = pure w) : (w.perSource.map Prod.fst).Nodup := by
  obtain ⟨entries, rfl, h⟩ := record_eq_pure h
  obtain ⟨_, _, hmk, -, rfl⟩ := Checked.seq_eq_pure h
  obtain ⟨perSource, hperSource, rfl⟩ := Checked.map_eq_pure hmk
  exact nodup_of_optional nodup_default hperSource

end ScoreWeights

namespace SeverityTable

/-- The tables' keys are distinct. -/
structure Distinct (t : SeverityTable) : Prop where
  typeCheck : (t.typeCheck.map Prod.fst).Nodup
  lint : (t.lint.map Prod.fst).Nodup
  build : (t.build.map Prod.fst).Nodup
  dependency : (t.dependency.map Prod.fst).Nodup

theorem distinct_default : Distinct {} where
  typeCheck := by decide
  lint := by decide
  build := by decide
  dependency := by decide

theorem read_severity (s : Severity) : Labelled.reader (.text (Labelled.label s)) = pure s :=
  Labelled.read_label Severity.distinct s

theorem read_words {m : List (String × Severity)} (h : (m.map Prod.fst).Nodup) :
    mapOf string Labelled.reader (.table (m.map writtenWord)) = pure m :=
  mapOf_encoded h (fun _ _ => rfl) fun e _ => read_severity e.2

theorem read_levels {m : List (Int × Severity)} (h : (m.map Prod.fst).Nodup) (hkeys : ∀ e ∈ m, Readable e.1) :
    mapOf int Labelled.reader (.table (m.map writtenLevel)) = pure m :=
  mapOf_encoded h (fun e he => read_toString (hkeys e he)) fun e _ => read_severity e.2

theorem read_toJson {t : SeverityTable} (h : t.Distinct) (hkeys : ∀ e ∈ t.lint, Readable e.1) :
    reader (.ofJson t.toJson) = pure t := by
  simp only [toJson, reader, Input.ofJson, Input.ofJsonFields, record, ofJsonFields_map]
  rw [optional_of_get rfl (read_words h.typeCheck), optional_of_get rfl (read_levels h.lint hkeys),
    optional_of_get rfl (read_words h.build), optional_of_get rfl (read_words h.dependency),
    optional_of_get rfl (read_severity t.toolUnavailable), optional_of_get rfl (read_severity t.unparsedFailure),
    optional_of_get rfl (read_severity t.configUnsafe), optional_of_get rfl (read_severity t.configMalformed),
    optional_of_get rfl (read_severity t.malformedJson), optional_of_get rfl (read_severity t.unbalancedBrackets),
    optional_of_get rfl (read_severity t.unreadableFile)]
  rfl

theorem distinct_of_read {t : SeverityTable} {v : Input} (h : reader v = pure t) : t.Distinct := by
  obtain ⟨entries, rfl, h⟩ := record_eq_pure h
  obtain ⟨_, _, h1, -, rfl⟩ := Checked.seq_eq_pure h
  obtain ⟨_, _, h2, -, rfl⟩ := Checked.seq_eq_pure h1
  obtain ⟨_, _, h3, -, rfl⟩ := Checked.seq_eq_pure h2
  obtain ⟨_, _, h4, -, rfl⟩ := Checked.seq_eq_pure h3
  obtain ⟨_, _, h5, -, rfl⟩ := Checked.seq_eq_pure h4
  obtain ⟨_, _, h6, -, rfl⟩ := Checked.seq_eq_pure h5
  obtain ⟨_, _, h7, -, rfl⟩ := Checked.seq_eq_pure h6
  obtain ⟨_, dependency, h8, hdependency, rfl⟩ := Checked.seq_eq_pure h7
  obtain ⟨_, build, h9, hbuild, rfl⟩ := Checked.seq_eq_pure h8
  obtain ⟨_, lint, h10, hlint, rfl⟩ := Checked.seq_eq_pure h9
  obtain ⟨typeCheck, htypeCheck, rfl⟩ := Checked.map_eq_pure h10
  have hdefault := distinct_default
  exact ⟨nodup_of_optional hdefault.typeCheck htypeCheck, nodup_of_optional hdefault.lint hlint,
    nodup_of_optional hdefault.build hbuild, nodup_of_optional hdefault.dependency hdependency⟩

/-- Where the tables are read back at all, the levels' texts can be read. -/
theorem readable_of_read_toJson {t t' : SeverityTable} (h : reader (.ofJson t.toJson) = pure t') :
    ∀ e ∈ t.lint, Readable e.1 := by
  simp only [toJson, Input.ofJson, Input.ofJsonFields, ofJsonFields_map] at h
  obtain ⟨entries, hentries, h⟩ := record_eq_pure h
  cases hentries
  obtain ⟨_, _, h1, -, rfl⟩ := Checked.seq_eq_pure h
  obtain ⟨_, _, h2, -, rfl⟩ := Checked.seq_eq_pure h1
  obtain ⟨_, _, h3, -, rfl⟩ := Checked.seq_eq_pure h2
  obtain ⟨_, _, h4, -, rfl⟩ := Checked.seq_eq_pure h3
  obtain ⟨_, _, h5, -, rfl⟩ := Checked.seq_eq_pure h4
  obtain ⟨_, _, h6, -, rfl⟩ := Checked.seq_eq_pure h5
  obtain ⟨_, _, h7, -, rfl⟩ := Checked.seq_eq_pure h6
  obtain ⟨_, _, h8, -, rfl⟩ := Checked.seq_eq_pure h7
  obtain ⟨_, _, h9, -, rfl⟩ := Checked.seq_eq_pure h8
  obtain ⟨_, _, -, hlint, rfl⟩ := Checked.seq_eq_pure h9
  intro e he
  have hlevels : mapOf int Labelled.reader (.table (t.lint.map writtenLevel)) = pure _ := read_of_optional rfl hlint
  obtain ⟨k, hk⟩ := keys_of_mapOf hlevels _ (List.mem_map_of_mem he)
  exact readable_of_read hk

end SeverityTable

namespace Config

theorem read_toJson {c : Config} (hseverity : c.severity.Distinct) (hscoring : (c.scoring.perSource.map Prod.fst).Nodup)
    (hkeys : ∀ e ∈ c.severity.lint, Readable e.1) : reader (.ofJson c.toJson) = pure c := by
  simp only [toJson, reader, Input.ofJson, Input.ofJsonFields, record]
  rw [optional_of_get (r := bool) rfl rfl, optional_of_get rfl (Tools.read_toJson c.tools),
    optional_of_get rfl (FileSelection.read_toJson c.files), optional_of_get rfl (SeverityTable.read_toJson hseverity hkeys),
    optional_of_get rfl (ScoreWeights.read_toJson hscoring), optional_of_get (r := int) rfl rfl,
    optional_of_get (r := float) rfl rfl, optional_of_get (r := string) rfl rfl]
  rfl

theorem distinct_of_read {c : Config} {v : Input} (h : reader v = pure c) :
    c.severity.Distinct ∧ (c.scoring.perSource.map Prod.fst).Nodup := by
  obtain ⟨entries, rfl, h⟩ := record_eq_pure h
  obtain ⟨_, _, h1, -, rfl⟩ := Checked.seq_eq_pure h
  obtain ⟨_, _, h2, -, rfl⟩ := Checked.seq_eq_pure h1
  obtain ⟨_, _, h3, -, rfl⟩ := Checked.seq_eq_pure h2
  obtain ⟨_, scoring, h4, hscoring, rfl⟩ := Checked.seq_eq_pure h3
  obtain ⟨_, severity, h5, hseverity, rfl⟩ := Checked.seq_eq_pure h4
  obtain ⟨_, _, h6, -, rfl⟩ := Checked.seq_eq_pure h5
  obtain ⟨_, _, h7, -, rfl⟩ := Checked.seq_eq_pure h6
  obtain ⟨_, -, rfl⟩ := Checked.map_eq_pure h7
  constructor
  · obtain rfl | ⟨v, hv⟩ := optional_eq_pure hseverity
    · exact SeverityTable.distinct_default
    · exact SeverityTable.distinct_of_read hv
  · obtain rfl | ⟨v, hv⟩ := optional_eq_pure hscoring
    · exact ScoreWeights.nodup_default
    · exact ScoreWeights.nodup_of_read hv

theorem readable_of_read_toJson {c c' : Config} (h : reader (.ofJson c.toJson) = pure c') :
    ∀ e ∈ c.severity.lint, Readable e.1 := by
  simp only [toJson, Input.ofJson, Input.ofJsonFields] at h
  obtain ⟨entries, hentries, h⟩ := record_eq_pure h
  cases hentries
  obtain ⟨_, _, h1, -, rfl⟩ := Checked.seq_eq_pure h
  obtain ⟨_, _, h2, -, rfl⟩ := Checked.seq_eq_pure h1
  obtain ⟨_, _, h3, -, rfl⟩ := Checked.seq_eq_pure h2
  obtain ⟨_, _, h4, -, rfl⟩ := Checked.seq_eq_pure h3
  obtain ⟨_, severity, -, hseverity, rfl⟩ := Checked.seq_eq_pure h4
  have hread : SeverityTable.reader (.ofJson c.severity.toJson) = pure severity := read_of_optional rfl hseverity
  exact SeverityTable.readable_of_read_toJson hread

/-- A configuration that gives one level of the linter. -/
def leveled (n : Int) : Input := .table [(.text "severity", .table [(.text "lint", .table [(.int n, .text "High")])])]

theorem read_leveled (n : Int) : reader (leveled n) = .ok { severity := { lint := [(n, .high)] } } := rfl

end Config

end QualityGate
