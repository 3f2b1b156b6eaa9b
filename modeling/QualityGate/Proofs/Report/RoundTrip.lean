import Mathlib
import QualityGate.Proofs.Finding.Read
import QualityGate.Proofs.Json.LineEnds
import QualityGate.Proofs.Json.Refusal
import QualityGate.Proofs.Report.Consistency
import QualityGate.Proofs.Text.Utf8
import QualityGate.Proofs.Timestamp
import QualityGate.Proofs.Workspace.Change
import QualityGate.Proofs.Workspace.Edit
import QualityGate.Report.Audit

/-! A report is read back from its text as it was, the order of its issues
included, and written again it gives the same text. -/

namespace QualityGate

open Schema

/-! The written form sets errors apart from warnings; reading it puts the errors first. In a list sorted
by severity they stand there already. -/

theorem isError_iff_rank (s : Severity) : s.isError = true ↔ s.rank ≤ 1 := by
  cases s <;> decide

theorem errors_append_warnings {issues : List Issue}
    (h : issues.Pairwise fun a b => a.severity.rank ≤ b.severity.rank) :
    issues.filter Issue.isError ++ issues.filter (fun i => !i.isError) = issues := by
  induction issues with
  | nil => rfl
  | cons i issues ih =>
    rw [List.pairwise_cons] at h
    have hrest := ih h.2
    by_cases hi : i.isError = true
    · simpa [hi] using hrest
    · have hnone : issues.filter Issue.isError = [] := by
        refine List.filter_eq_nil_iff.mpr fun j hj he => hi ?_
        have hij := h.1 j hj
        have hj' : j.severity.rank ≤ 1 := (isError_iff_rank j.severity).mp he
        exact (isError_iff_rank i.severity).mpr (hij.trans hj')
      have hwarnings : issues.filter (fun j => !j.isError) = issues := by simpa [hnone] using hrest
      simp [hi, hnone, hwarnings]

theorem mapM_map_ok {α β : Type} {f : β → Outcome α} {g : α → β} (h : ∀ a, f (g a) = .ok a) (as : List α) :
    (as.map g).mapM f = .ok as := by
  induction as with
  | nil => rfl
  | cons a as ih => simp [List.mapM_cons, h a, ih, bind, Except.bind, pure, Except.pure]

namespace Report

theorem readAs_of_read {α : Type} {r : Reader α} {v : Json} {a : α} (h : r (.ofJson v) = pure a) :
    readAs r v = .ok a := by
  rw [readAs, h]
  rfl

theorem summaryEntry_label (s : Source) (c : Summary) :
    summaryEntry (Labelled.label s, c.toJson) = .ok (s, c) := by
  rw [summaryEntry, Source.distinct s]
  dsimp only
  rw [readAs_of_read (Summary.read_toJson c)]
  rfl

theorem summary_read (details : Details) :
    summaryOfJson (.obj (details.map fun (s, c) => (Labelled.label s, c.toJson))) = .ok details := by
  rw [summaryOfJson]
  exact mapM_map_ok (fun (s, c) => summaryEntry_label s c) details

theorem scoreReader_natCast {n : Nat} (h : n ≤ 100) : scoreReader (.int n) = pure n := by
  show (if (n : Int) < 0 then Checked.fail .belowMinimum
    else if (100 : Int) < n then Checked.fail .aboveMaximum else pure (n : Int).toNat) = pure n
  rw [if_neg (by omega), if_neg (by omega)]
  rfl

/-- A report whose issues are in order and whose score can be read is read back, but for its time, which is
whatever its text is read as. -/
theorem ofJson_toJson {r : Report} {t : Timestamp} (hissues : r.errors ++ r.warnings = r.issues)
    (hscore : r.qualityScore ≤ 100) (htime : Timestamp.ofText r.timestamp.text = .ok t) :
    ofJson r.toJson = .ok { r with timestamp := t } := by
  -- What each field of the written object is read as.
  have herrors : issueItems (fieldOr r.toJson "errors" (.arr [])) = .ok (r.errors.map Issue.toJson) := rfl
  have hwarnings : issueItems (fieldOr r.toJson "warnings" (.arr [])) = .ok (r.warnings.map Issue.toJson) := rfl
  have hread : (r.errors.map Issue.toJson ++ r.warnings.map Issue.toJson).mapM (readAs Issue.reader) =
      .ok r.issues := by
    rw [← List.map_append, hissues]
    exact mapM_map_ok (fun i => readAs_of_read (Issue.read_toJson i)) r.issues
  have hpassed : needed r.toJson "passed" = .ok (.bool r.passed) := rfl
  have hsuppressions : items (fieldOr r.toJson "suppressions" (.arr [])) =
      .ok (r.suppressions.map Suppression.toJson) := rfl
  have hsuppressionsRead := mapM_map_ok (fun s => readAs_of_read (Suppression.read_toJson s)) r.suppressions
  have hscored : needed r.toJson "codeQualityScore" = .ok (.int r.qualityScore) := rfl
  have hscoreRead : scoreReader (.ofJson (.int r.qualityScore)) = pure r.qualityScore := scoreReader_natCast hscore
  have hsummary : summaryOfJson (fieldOr r.toJson "summary" (.obj [])) = .ok r.summary := summary_read r.summary
  have hconcerns : items (fieldOr r.toJson "businessLogicConcerns" (.arr [])) = .ok (r.concerns.map .str) := rfl
  have hconcernsRead : listOf string (.ofJson (.arr (r.concerns.map .str))) = pure r.concerns :=
    itemsFrom_strings r.concerns 0
  have htimestamp : needed r.toJson "timestamp" = .ok (.str r.timestamp.text) := rfl
  have htimeRead : timestampOfJson (.str r.timestamp.text) = .ok t := by
    rw [timestampOfJson, htime]
    rfl
  have htotal : fieldOr r.toJson "totalFiles" (.int 0) = .int r.totalFiles := rfl
  obtain ⟨fields, hfields⟩ : ∃ fields, r.toJson = .obj fields := ⟨_, rfl⟩
  generalize r.toJson = v at *
  subst hfields
  simp only [ofJson, herrors, hwarnings, hread, hpassed, hsuppressions, hsuppressionsRead, hscored, hsummary,
    hconcerns, htimestamp, htimeRead, htotal, hscoreRead, hconcernsRead, bind, Except.bind]
  rfl

end Report

/-! What a report is made of when it is written. -/

namespace Json

theorem formed_obj {room : Nat} {fields : List (String × Json)} (hnames : (fields.map Prod.fst).Nodup)
    (hfields : ∀ f ∈ fields, Formed room f.2) : Formed (room + 1) (.obj fields) :=
  ⟨Nat.succ_pos room, hnames, formedFields_iff.mpr hfields⟩

theorem formed_arr {α : Type} {room : Nat} {as : List α} {f : α → Json} (h : ∀ a, Formed room (f a)) :
    Formed (room + 1) (.arr (as.map f)) := by
  refine ⟨Nat.succ_pos room, formedItems_iff.mpr fun v hv => ?_⟩
  obtain ⟨a, -, rfl⟩ := List.mem_map.mp hv
  exact h a

@[simp]
theorem formed_bool (room : Nat) (b : Bool) : Formed room (.bool b) := trivial

@[simp]
theorem formed_int (room : Nat) (n : Int) : Formed room (.int n) := trivial

@[simp]
theorem formed_str (room : Nat) (s : String) : Formed room (.str s) := trivial

@[simp]
theorem formed_optional (room : Nat) (o : Option String) : Formed room (o.elim .null .str) := by
  cases o <;> trivial

@[simp]
theorem short_optional (o : Option String) : Short (o.elim .null .str) := by
  cases o <;> simp

end Json

open Json

theorem Issue.formed (i : Issue) (room : Nat) : Formed (room + 1) i.toJson :=
  formed_obj (by simp) (by simp)

theorem Suppression.formed (s : Suppression) (room : Nat) : Formed (room + 1) s.toJson :=
  formed_obj (by simp) (by simp)

theorem Issue.short_iff {i : Issue} : Short i.toJson ↔ Spellable i.line ∧ Spellable i.column := by
  simp [Issue.toJson]

theorem short_summary {details : Details} :
    Short (.obj (details.map fun (s, c) => (Labelled.label s, c.toJson))) ↔
      ∀ e ∈ details, Spellable e.2.errors.natAbs ∧ Spellable e.2.warnings.natAbs := by
  rw [short_obj, List.forall_mem_map]
  simp [Summary.toJson]

theorem Suppression.short_iff {s : Suppression} : Short s.toJson ↔ Spellable s.line := by
  simp [Suppression.toJson]

namespace Report

/-- No number in the report is too long. -/
structure AllSpellable (r : Report) : Prop where
  totalFiles : Spellable r.totalFiles.natAbs
  errorCount : Spellable r.errorCount
  warningCount : Spellable r.warningCount
  suppressionCount : Spellable r.suppressions.length
  issues : ∀ i ∈ r.issues, Spellable i.line ∧ Spellable i.column
  suppressions : ∀ s ∈ r.suppressions, Spellable s.line

section build

variable {results : List Findings} {w : ScoreWeights} {n : Int} {t : Timestamp}

theorem formed_build (room : Nat) : Formed (room + 3) (build results w n t).toJson := by
  have hsources := (consistent_build results w n t).sources_nodup
  generalize build results w n t = r at hsources
  have hlabels : ((r.summary.map fun (s, c) => (Labelled.label s, c.toJson)).map Prod.fst).Nodup := by
    have hmap : (r.summary.map fun (s, c) => (Labelled.label s, c.toJson)).map Prod.fst =
        (r.summary.map Prod.fst).map Labelled.label := by simp
    rw [hmap]
    exact hsources.map fun s s' he => Source.distinct.injective he
  have hsummary : Formed (room + 2) (.obj (r.summary.map fun (s, c) => (Labelled.label s, c.toJson))) := by
    refine formed_obj hlabels fun f hf => ?_
    obtain ⟨e, -, rfl⟩ := List.mem_map.mp hf
    exact formed_obj (by simp) (by simp)
  refine formed_obj (by simp) ?_
  simp [formed_arr fun i : Issue => i.formed room, formed_arr fun s : Suppression => s.formed room,
    formed_arr fun s : String => formed_str (room + 1) s, hsummary]

theorem errors_append_warnings_build (results : List Findings) (w : ScoreWeights) (n : Int) (t : Timestamp) :
    (build results w n t).errors ++ (build results w n t).warnings = (build results w n t).issues :=
  errors_append_warnings (sortIssues_sorted _)

/-- The counts of one source are part of the counts of all. -/
theorem summary_le {e : Source × Summary} (he : e ∈ (build results w n t).summary) :
    e.2.errors.natAbs ≤ (build results w n t).errorCount ∧
      e.2.warnings.natAbs ≤ (build results w n t).warningCount := by
  obtain ⟨s, -, rfl⟩ := List.mem_map.mp he
  have hown : ((build results w n t).issues.filter fun i => i.source = s).Sublist (build results w n t).issues :=
    List.filter_sublist
  refine ⟨(hown.countP_le).trans_eq ?_, (hown.countP_le).trans_eq ?_⟩
  · exact List.countP_eq_length_filter
  · exact List.countP_eq_length_filter

theorem short_toJson_iff {r : Report} : Short r.toJson ↔
    Spellable r.totalFiles.natAbs ∧ Spellable r.errorCount ∧ Spellable r.warningCount ∧
      Spellable r.suppressions.length ∧ (∀ i ∈ r.errors, Spellable i.line ∧ Spellable i.column) ∧
      (∀ i ∈ r.warnings, Spellable i.line ∧ Spellable i.column) ∧ (∀ s ∈ r.suppressions, Spellable s.line) ∧
      (∀ e ∈ r.summary, Spellable e.2.errors.natAbs ∧ Spellable e.2.warnings.natAbs) ∧ Spellable r.qualityScore := by
  rw [toJson, short_obj]
  simp [-short_obj, short_summary, Issue.short_iff, Suppression.short_iff]

theorem short_build_iff : Short (build results w n t).toJson ↔ (build results w n t).AllSpellable := by
  have hissues := errors_append_warnings_build results w n t
  rw [short_toJson_iff]
  constructor
  · rintro ⟨htotal, herrors, hwarnings, hsuppressions, herror, hwarning, hsuppression, -, -⟩
    refine ⟨htotal, herrors, hwarnings, hsuppressions, fun i hi => ?_, hsuppression⟩
    rw [← hissues, List.mem_append] at hi
    exact hi.elim (herror i) (hwarning i)
  · rintro ⟨htotal, herrors, hwarnings, hsuppressions, hissue, hsuppression⟩
    refine ⟨htotal, herrors, hwarnings, hsuppressions, fun i hi => hissue i ?_, fun i hi => hissue i ?_, hsuppression,
      fun e he => ?_, spellable_of_lt ?_⟩
    · rw [← hissues]
      exact List.mem_append_left _ hi
    · rw [← hissues]
      exact List.mem_append_right _ hi
    · exact ⟨herrors.mono (summary_le he).1, hwarnings.mono (summary_le he).2⟩
    · exact Nat.lt_of_le_of_lt (score_le_hundred _ _ w) (by decide)

end build

/-- The text of a built report is read, and then as the report with the time that its own text is read as, unless a
number is too long. -/
theorem ofText_text_iff (results : List Findings) (w : ScoreWeights) (n : Int) {t t' : Timestamp}
    (htime : Timestamp.ofText t.text = .ok t') {r : Report} :
    ofText (build results w n t).text = .ok r ↔ (build results w n t).AllSpellable ∧ r = build results w n t' := by
  have hformed : Formed mostNested (build results w n t).toJson := formed_build 987
  have hback : ofJson (build results w n t).toJson = .ok (build results w n t') :=
    ofJson_toJson (errors_append_warnings_build results w n t) (score_le_hundred _ _ w) htime
  rw [← short_build_iff, ofText, text]
  by_cases hshort : Short (build results w n t).toJson
  · rw [read_text (indented_blank 2) hformed hshort]
    show ofJson (build results w n t).toJson = .ok r ↔ _
    rw [hback]
    simp [hshort, eq_comm]
  · obtain ⟨f, hf⟩ := read_text_of_long (indented_blank 2) hformed hshort
    rw [hf]
    simp [hshort, Except.mapError, bind, Except.bind]

/-! Through a file. -/

theorem return_notMem_text (results : List Findings) (w : ScoreWeights) (n : Int) (t : Timestamp) :
    '\r' ∉ (build results w n t).text.toList :=
  return_notMem_write (indented_noReturn 2) 0 (formed_build 0)

end Report

theorem Workspace.readText_of_writeText {w w' : Workspace} {p : Path} {s : String} (h : w.writeText p s = .ok w')
    (hs : '\r' ∉ s.toList) : w'.readText p = .ok s.toList := readText_of_toUTF8 (readBytes_of_write h) hs

theorem Audit.read_of_write {r : Report} {w w' : Workspace} {p : Path} (hr : '\r' ∉ r.text.toList)
    (h : Audit.write r p w = (.ok (), w')) : Audit.read w' p = Report.ofText r.text := by
  obtain ⟨_, v, -, hwrite⟩ := Edit.bind_eq_ok h
  rw [Audit.read, Workspace.readText_of_writeText (Edit.change_eq_ok hwrite) hr]
  simp only [bind, Except.bind, String.ofList_toList]

namespace Report

end Report

end QualityGate
