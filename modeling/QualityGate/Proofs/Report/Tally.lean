import QualityGate.Finding.Issue
import QualityGate.Policy.Verdict

/-! What a report counts: of each identity the first issue of a check, and the numbers
by source with their totals. -/

namespace QualityGate

/-! Which issues of a check are kept: the first of each identity, and no other. -/

namespace Findings

/-- Of the issues with one identity the first is kept. -/
theorem mem_firstOfEach {is : List Issue} {seen : List (String × Nat × Nat × String)} {i : Issue} :
    i ∈ firstOfEach seen is ↔
      ∃ pre post, is = pre ++ i :: post ∧ i.identity ∉ seen ∧ ∀ j ∈ pre, j.identity ≠ i.identity := by
  induction is generalizing seen with
  | nil => simp [firstOfEach]
  | cons a as ih =>
    have hcons : (∃ pre post, a :: as = pre ++ i :: post ∧ i.identity ∉ seen ∧ ∀ j ∈ pre, j.identity ≠ i.identity) ↔
        a = i ∧ i.identity ∉ seen ∨
          ∃ pre post, as = pre ++ i :: post ∧ i.identity ∉ a.identity :: seen ∧ ∀ j ∈ pre, j.identity ≠ i.identity := by
      constructor
      · rintro ⟨_ | ⟨b, pre⟩, post, he, hs, hp⟩
        · exact .inl ⟨(List.cons.inj he).1, hs⟩
        · obtain ⟨rfl, rfl⟩ := List.cons.inj he
          refine .inr ⟨pre, post, rfl, ?_, fun j hj => hp j (List.mem_cons_of_mem _ hj)⟩
          simpa [hs] using (hp a List.mem_cons_self).symm
      · rintro (⟨rfl, hs⟩ | ⟨pre, post, rfl, hs, hp⟩)
        · exact ⟨[], as, rfl, hs, by simp⟩
        · rw [List.mem_cons, not_or] at hs
          refine ⟨a :: pre, post, rfl, hs.2, ?_⟩
          rintro j (_ | ⟨_, hj⟩)
          · exact fun he => hs.1 he.symm
          · exact hp j hj
    rw [hcons, firstOfEach]
    by_cases ha : a.identity ∈ seen
    · have hs (k : String × Nat × Nat × String) : k ∉ a.identity :: seen ↔ k ∉ seen := by
        rw [List.mem_cons, not_or, and_iff_right_iff_imp]
        rintro hk rfl
        exact hk ha
      rw [if_pos (by simpa using ha), ih]
      simp only [hs]
      refine ⟨.inr, ?_⟩
      rintro (⟨rfl, hi⟩ | h)
      · exact absurd ha hi
      · exact h
    · rw [if_neg (by simpa using ha), List.mem_cons, ih]
      refine or_congr_left ⟨?_, fun h => h.1.symm⟩
      rintro rfl
      exact ⟨rfl, ha⟩

theorem mem_deduplicated {f : Findings} {i : Issue} :
    i ∈ f.deduplicated.issues ↔ ∃ pre post, f.issues = pre ++ i :: post ∧ ∀ j ∈ pre, j.identity ≠ i.identity := by
  simp [deduplicated, mem_firstOfEach]

end Findings

/-! Numbers by source and their totals: however findings are split up by the
check they come from, the parts add up to the whole. -/

def Details.total (count : Summary → Int) (d : Details) : Int := d.foldr (fun e n => count e.2 + n) 0

theorem foldr_countP_of_source {α : Type} (key : α → Source) (p : α → Bool) (xs : List α) :
    Source.all.foldr (fun s n => ((xs.filter fun x => key x = s).countP p : Int) + n) 0 = xs.countP p := by
  induction xs with
  | nil => rfl
  | cons x xs ih =>
    simp only [Source.all, List.foldr_cons, List.foldr_nil] at ih ⊢
    cases hp : p x <;> cases hk : key x <;> simp_all <;> omega

theorem total_summarize_errors (issues : List Issue) :
    (summarize issues).total Summary.errors = issues.countP Issue.isError := by
  rw [← foldr_countP_of_source Issue.source]
  simp [Details.total, summarize, summaryOf, List.foldr_map]

theorem total_summarize_warnings (issues : List Issue) :
    (summarize issues).total Summary.warnings = issues.countP fun i => !i.isError := by
  rw [← foldr_countP_of_source Issue.source]
  simp [Details.total, summarize, summaryOf, List.foldr_map]

/-- Entries that count nothing may be left out of a total. -/
theorem total_filterMap {α : Type} (count : Summary → Int) (f : α → Source × Summary)
    (keeps : Summary → Bool) (h : ∀ c, keeps c = false → count c = 0) (xs : List α) :
    Details.total count (xs.filterMap fun x => if keeps (f x).2 then some (f x) else none) =
      xs.foldr (fun x n => count (f x).2 + n) 0 := by
  induction xs with
  | nil => rfl
  | cons x xs ih =>
    cases hk : keeps (f x).2
    · simpa [hk, h _ hk] using ih
    · simpa [hk, Details.total] using ih

namespace PolicyState

def diagnosticSummary (ds : List EditorDiagnostic) (source : Source) : Summary :=
  let own := ds.filter fun d => d.category = source
  ⟨own.countP EditorDiagnostic.isError, own.countP EditorDiagnostic.isWarning⟩

theorem total_diagnosticDetails {count : Summary → Int}
    (h : ∀ c : Summary, c.errors = 0 → c.warnings = 0 → count c = 0) (ds : List EditorDiagnostic) :
    (diagnosticDetails ds).total count = Source.all.foldr (fun s n => count (diagnosticSummary ds s) + n) 0 :=
  total_filterMap count (fun s => (s, diagnosticSummary ds s)) (fun c => c.errors != 0 || c.warnings != 0)
    (by simpa using h) Source.all

theorem total_diagnosticDetails_errors (ds : List EditorDiagnostic) :
    (diagnosticDetails ds).total Summary.errors = ds.countP EditorDiagnostic.isError := by
  rw [total_diagnosticDetails fun _ h _ => h]
  exact foldr_countP_of_source EditorDiagnostic.category _ ds

theorem total_diagnosticDetails_warnings (ds : List EditorDiagnostic) :
    (diagnosticDetails ds).total Summary.warnings = ds.countP EditorDiagnostic.isWarning := by
  rw [total_diagnosticDetails fun _ _ h => h]
  exact foldr_countP_of_source EditorDiagnostic.category _ ds

end PolicyState

namespace Report

theorem errorCount_eq_countP (r : Report) : r.errorCount = r.issues.countP Issue.isError := by
  rw [errorCount, errors, List.countP_eq_length_filter]

theorem warningCount_eq_countP (r : Report) :
    r.warningCount = r.issues.countP fun i => !i.isError := by
  rw [warningCount, warnings, List.countP_eq_length_filter]

theorem mem_build_issues {results : List Findings} {w : ScoreWeights} {n : Int} {t : Timestamp} {i : Issue} :
    i ∈ (build results w n t).issues ↔ ∃ f ∈ results, i ∈ f.issues := by
  simp [build, sortIssues, List.mem_mergeSort]

theorem passed_build_iff {results : List Findings} {w : ScoreWeights} {n : Int} {t : Timestamp} :
    (build results w n t).passed = true ↔ ∀ f ∈ results, ∀ i ∈ f.issues, i.isError = false := by
  have hp : (build results w n t).passed = !(build results w n t).issues.any Issue.isError := rfl
  rw [hp, Bool.not_eq_true', List.any_eq_false]
  simp only [mem_build_issues, Bool.not_eq_true]
  exact ⟨fun h f hf i hi => h i ⟨f, hf, hi⟩, fun h i ⟨f, hf, hi⟩ => h f hf i hi⟩

end Report

namespace ErrorCount

theorem total_details_errors (c : ErrorCount) : c.details.total Summary.errors = c.errors := by
  simp [details, errors, Details.total]

theorem total_details_warnings (c : ErrorCount) : c.details.total Summary.warnings = c.warnings := by
  simp [details, warnings, Details.total]

end ErrorCount

end QualityGate
