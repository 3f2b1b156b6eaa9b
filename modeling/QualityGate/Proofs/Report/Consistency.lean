import Mathlib
import QualityGate.Proofs.Policy.DecisionTable
import QualityGate.Proofs.Report.Tally

/-! The figures of a report agree with each other and with its issues. They do
not depend on the order of the checks, and more findings never raise the score. -/

namespace QualityGate

/-! Sorting by severity. -/

theorem sortIssues_perm (issues : List Issue) : (sortIssues issues).Perm issues :=
  List.mergeSort_perm issues _

theorem rank_le_trans (a b c : Issue) (hab : decide (a.severity.rank ≤ b.severity.rank) = true)
    (hbc : decide (b.severity.rank ≤ c.severity.rank) = true) : decide (a.severity.rank ≤ c.severity.rank) = true := by
  simp only [decide_eq_true_eq] at *
  exact hab.trans hbc

theorem rank_le_total (a b : Issue) :
    (decide (a.severity.rank ≤ b.severity.rank) || decide (b.severity.rank ≤ a.severity.rank)) = true := by
  simp only [Bool.or_eq_true, decide_eq_true_eq]
  exact Nat.le_total _ _

theorem sortIssues_sorted (issues : List Issue) :
    (sortIssues issues).Pairwise fun a b => a.severity.rank ≤ b.severity.rank := by
  have h := List.pairwise_mergeSort rank_le_trans rank_le_total issues
  simpa only [sortIssues, decide_eq_true_eq] using h

/-- Issues of one severity stay in the order in which they were found. -/
theorem filter_sortIssues (severity : Severity) (issues : List Issue) :
    (sortIssues issues).filter (fun i => i.severity = severity) = issues.filter fun i => i.severity = severity := by
  let own (is : List Issue) := is.filter fun i => i.severity = severity
  have hpair : (own issues).Pairwise fun a b => decide (a.severity.rank ≤ b.severity.rank) = true := by
    refine List.pairwise_iff_forall_sublist.mpr fun {a b} hab => ?_
    have ha : a.severity = severity := by simpa using List.mem_filter.mp (hab.subset (by simp)) |>.2
    have hb : b.severity = severity := by simpa using List.mem_filter.mp (hab.subset (by simp)) |>.2
    simp [ha, hb]
  have hsub : (own issues).Sublist (sortIssues issues) :=
    List.sublist_mergeSort rank_le_trans rank_le_total hpair List.filter_sublist
  have hown : (own issues).Sublist (own (sortIssues issues)) := by
    have h := hsub.filter fun i => decide (i.severity = severity)
    simpa only [own, List.filter_filter, Bool.and_self] using h
  exact (hown.eq_of_length ((sortIssues_perm issues).filter _).length_eq.symm).symm

theorem summaryOf_perm {is js : List Issue} (h : is.Perm js) (s : Source) : summaryOf is s = summaryOf js s := by
  have hf := h.filter fun i => decide (i.source = s)
  simp only [summaryOf, hf.countP_eq]

theorem summarize_perm {is js : List Issue} (h : is.Perm js) : summarize is = summarize js := by
  simp only [summarize, summaryOf_perm h]

/-! What findings cost. -/

/-- No issue and no suppression gives points. -/
def ScoreWeights.Nonneg (w : ScoreWeights) : Prop :=
  (∀ x ∈ w.perSource, 0 ≤ x.2.1 ∧ 0 ≤ x.2.2) ∧ 0 ≤ w.suppression

theorem ScoreWeights.Nonneg.weight {w : ScoreWeights} (h : w.Nonneg) (source : Source) (severity : Severity) :
    0 ≤ w.weight source severity := by
  have hboth : 0 ≤ ((w.perSource.lookup source).getD (10, 2)).1 ∧ 0 ≤ ((w.perSource.lookup source).getD (10, 2)).2 := by
    cases hl : w.perSource.lookup source with
    | none => decide
    | some pair =>
      obtain ⟨l₁, l₂, he, -⟩ := List.lookup_eq_some_iff.mp hl
      exact h.1 (source, pair) (by simp [he])
  simp only [ScoreWeights.weight]
  split
  · exact hboth.1
  · exact hboth.2

namespace Report

def deduction (issues : List Issue) (suppressions : List Suppression) (w : ScoreWeights) : Int :=
  (issues.map fun i => w.weight i.source i.severity).sum + w.suppression * suppressions.countP Suppression.shouldFlag

theorem score_eq (issues : List Issue) (suppressions : List Suppression) (w : ScoreWeights) :
    score issues suppressions w = (max 0 (min 100 (100 - deduction issues suppressions w))).toNat := rfl

theorem score_le_hundred (issues : List Issue) (suppressions : List Suppression) (w : ScoreWeights) :
    score issues suppressions w ≤ 100 := by
  rw [score_eq]
  omega

theorem deduction_perm {is js : List Issue} {ss ts : List Suppression} (hi : is.Perm js)
    (hs : ss.countP Suppression.shouldFlag = ts.countP Suppression.shouldFlag) (w : ScoreWeights) :
    deduction is ss w = deduction js ts w := by
  have hsum := (hi.map fun i => w.weight i.source i.severity).sum_eq
  rw [deduction, deduction, hsum, hs]

theorem deduction_append (is js : List Issue) (ss ts : List Suppression) (w : ScoreWeights) :
    deduction (is ++ js) (ss ++ ts) w = deduction is ss w + deduction js ts w := by
  simp only [deduction, List.map_append, List.sum_append, List.countP_append, Nat.cast_add, mul_add]
  omega

theorem deduction_nonneg {w : ScoreWeights} (hw : w.Nonneg) (issues : List Issue) (suppressions : List Suppression) :
    0 ≤ deduction issues suppressions w := by
  have hi : 0 ≤ (issues.map fun i => w.weight i.source i.severity).sum := by
    refine List.sum_nonneg fun n hn => ?_
    obtain ⟨i, -, rfl⟩ := List.mem_map.mp hn
    exact hw.weight i.source i.severity
  exact add_nonneg hi (mul_nonneg hw.2 (Nat.cast_nonneg _))

/-! The report as a whole. -/

section

variable (results : List Findings) (w : ScoreWeights) (n : Int) (t : Timestamp)

theorem build_issues_perm : (build results w n t).issues.Perm (results.flatMap Findings.issues) :=
  sortIssues_perm _

theorem errorCount_build :
    (build results w n t).errorCount = (results.flatMap Findings.issues).countP Issue.isError := by
  rw [errorCount_eq_countP]
  exact (build_issues_perm results w n t).countP_eq _

theorem warningCount_build :
    (build results w n t).warningCount = (results.flatMap Findings.issues).countP fun i => !i.isError := by
  rw [warningCount_eq_countP]
  exact (build_issues_perm results w n t).countP_eq _

theorem summary_build : (build results w n t).summary = summarize (results.flatMap Findings.issues) :=
  summarize_perm (build_issues_perm results w n t)

theorem qualityScore_build : (build results w n t).qualityScore =
    score (results.flatMap Findings.issues) (results.flatMap Findings.suppressions) w := by
  have h := deduction_perm (build_issues_perm results w n t)
    (rfl : (results.flatMap Findings.suppressions).countP Suppression.shouldFlag = _) w
  rw [score_eq, ← h]
  rfl

end

theorem passed_iff_errorCount (results : List Findings) (w : ScoreWeights) (n : Int) (t : Timestamp) :
    (build results w n t).passed = true ↔ (build results w n t).errorCount = 0 := by
  rw [passed_build_iff, errorCount_build, List.countP_eq_zero]
  simp only [List.mem_flatMap, Bool.not_eq_true]
  exact ⟨fun h i ⟨f, hf, hi⟩ => h f hf i hi, fun h f hf i hi => h i ⟨f, hf, hi⟩⟩

theorem errorCount_add_warningCount (r : Report) : r.errorCount + r.warningCount = r.issues.length := by
  rw [errorCount_eq_countP, warningCount_eq_countP, List.length_eq_countP_add_countP Issue.isError]
  simp only [Bool.not_eq_true, Bool.decide_eq_false]

/-- What two reports share when they judge alike. -/
structure JudgesLike (r r' : Report) : Prop where
  passed : r.passed = r'.passed
  errorCount : r.errorCount = r'.errorCount
  warningCount : r.warningCount = r'.warningCount
  summary : r.summary = r'.summary
  qualityScore : r.qualityScore = r'.qualityScore

/-- Reports judge alike where the same issues were found, in whatever order, and as many unsafe
suppressions. -/
theorem judgesLike_of_perm {results results' : List Findings}
    (hi : (results.flatMap Findings.issues).Perm (results'.flatMap Findings.issues))
    (hs : (results.flatMap Findings.suppressions).countP Suppression.shouldFlag =
      (results'.flatMap Findings.suppressions).countP Suppression.shouldFlag)
    (w : ScoreWeights) (n : Int) (t : Timestamp) :
    JudgesLike (build results w n t) (build results' w n t) := by
  have he : (build results w n t).errorCount = (build results' w n t).errorCount := by
    rw [errorCount_build, errorCount_build]
    exact hi.countP_eq _
  refine ⟨?_, he, ?_, ?_, ?_⟩
  · rw [Bool.eq_iff_iff, passed_iff_errorCount, passed_iff_errorCount, he]
  · rw [warningCount_build, warningCount_build]
    exact hi.countP_eq _
  · rw [summary_build, summary_build, summarize_perm hi]
  · rw [qualityScore_build, qualityScore_build, score_eq, score_eq, deduction_perm hi hs]

theorem qualityScore_insert_le {w : ScoreWeights} (hw : w.Nonneg) (before : List Findings) (f : Findings)
    (after : List Findings) (n : Int) (t : Timestamp) :
    (build (before ++ f :: after) w n t).qualityScore ≤ (build (before ++ after) w n t).qualityScore := by
  have hfront : (before ++ f :: after).Perm (f :: (before ++ after)) := List.perm_middle
  have hmoved := hfront.trans (List.perm_append_singleton f (before ++ after)).symm
  have hi := hmoved.flatMap_right Findings.issues
  have hs := (hmoved.flatMap_right Findings.suppressions).countP_eq Suppression.shouldFlag
  rw [(judgesLike_of_perm hi hs w n t).qualityScore, qualityScore_build, qualityScore_build, score_eq, score_eq]
  have hd := deduction_append ((before ++ after).flatMap Findings.issues) f.issues
    ((before ++ after).flatMap Findings.suppressions) f.suppressions w
  have hf := deduction_nonneg hw f.issues f.suppressions
  have hlast {β : Type} (g : Findings → List β) :
      (before ++ after ++ [f]).flatMap g = (before ++ after).flatMap g ++ g f := by simp
  rw [hlast, hlast]
  omega

/-- What ties the figures of a report to the findings it was made from. -/
structure Consistent (r : Report) (results : List Findings) : Prop where
  passed_iff : r.passed = true ↔ r.errorCount = 0
  counts_eq : r.errorCount + r.warningCount = r.issues.length
  sources_nodup : (r.summary.map Prod.fst).Nodup
  mem_sources : ∀ s : Source, s ∈ r.summary.map Prod.fst
  errors_eq : r.summary.total Summary.errors = r.errorCount
  warnings_eq : r.summary.total Summary.warnings = r.warningCount
  issues_perm : r.issues.Perm (results.flatMap Findings.issues)
  issues_stable : ∀ severity : Severity, r.issues.filter (fun i => i.severity = severity) =
    (results.flatMap Findings.issues).filter fun i => i.severity = severity
  issues_sorted : r.issues.Pairwise fun a b => a.severity.rank ≤ b.severity.rank
  score_le : r.qualityScore ≤ 100

theorem build_sources (results : List Findings) (w : ScoreWeights) (n : Int) (t : Timestamp) :
    (build results w n t).summary.map Prod.fst = Source.all := by
  simp [summary_build, summarize, Function.comp_def]

theorem consistent_build (results : List Findings) (w : ScoreWeights) (n : Int) (t : Timestamp) :
    Consistent (build results w n t) results where
  passed_iff := passed_iff_errorCount results w n t
  counts_eq := errorCount_add_warningCount _
  sources_nodup := by
    rw [build_sources]
    decide
  mem_sources s := by
    rw [build_sources]
    cases s <;> decide
  errors_eq := by rw [summary_build, total_summarize_errors, errorCount_build]
  warnings_eq := by rw [summary_build, total_summarize_warnings, warningCount_build]
  issues_perm := build_issues_perm results w n t
  issues_stable severity := filter_sortIssues severity _
  issues_sorted := sortIssues_sorted _
  score_le := score_le_hundred _ _ w

/-- A decision on a commit looks at nothing of a report but its counts and its summary. -/
theorem commitVerdict_congr {r r' : Report} (h : JudgesLike r r')
    (hu : r.unsafeSuppressions.length = r'.unsafeSuppressions.length) (state : PolicyState) (asked : Bool) :
    state.commitVerdict asked (.ok r) = state.commitVerdict asked (.ok r') := by
  have hb : state.blocksCommit r = state.blocksCommit r' := by
    simp only [PolicyState.blocksCommit, h.errorCount, h.warningCount, hu]
  simp only [PolicyState.commitVerdict, hb, h.errorCount, h.warningCount, h.summary, hu]

theorem decide_congr {r r' : Report} (h : JudgesLike r r')
    (hu : r.unsafeSuppressions.length = r'.unsafeSuppressions.length) (p : Protection) (state : PolicyState)
    (q : Request) :
    ({ p with audit := pure r } : Protection).decide state q =
      ({ p with audit := pure r' } : Protection).decide state q := by
  funext s
  by_cases he : state.enabled = true
  · by_cases ht : q.trigger = .commit
    · by_cases hf : state.IsFree
      · rw [Protection.decide_commit_of_isFree he ht hf, Protection.decide_commit_of_isFree he ht hf]
      · rw [Protection.decide_commit he ht hf, Protection.decide_commit he ht hf]
        exact congrArg (·, s) (commitVerdict_congr h hu state q.override)
    · cases hq : q.trigger with
      | commit => exact absurd hq ht
      | save => simp only [Protection.decide, hq]
      | build => simp only [Protection.decide, hq]
  · simp only [Protection.decide, he]
    rfl

/-- The figures of a report agree with its issues and with each other. A further result never raises the
score, the order of the results changes nothing but the order of what is listed, and concerns and harmless
suppressions have no part in the verdict or in a decision. -/
theorem build_figures_agree {w : ScoreWeights} (hw : w.Nonneg) (results : List Findings) (n : Int) (t : Timestamp) :
    Consistent (build results w n t) results ∧
    (∀ before after f, results = before ++ after →
      (build (before ++ f :: after) w n t).qualityScore ≤ (build results w n t).qualityScore) ∧
    (∀ results', results.Perm results' → JudgesLike (build results w n t) (build results' w n t)) ∧
    ∀ results', results'.flatMap Findings.issues = results.flatMap Findings.issues →
      (results'.flatMap Findings.suppressions).filter Suppression.shouldFlag =
        (results.flatMap Findings.suppressions).filter Suppression.shouldFlag →
      JudgesLike (build results' w n t) (build results w n t) ∧
        ∀ (p : Protection) (state : PolicyState) (q : Request),
          ({ p with audit := pure (build results' w n t) } : Protection).decide state q =
            ({ p with audit := pure (build results w n t) } : Protection).decide state q := by
  refine ⟨consistent_build results w n t, ?_, ?_, ?_⟩
  · rintro before after f rfl
    exact qualityScore_insert_le hw before f after n t
  · intro results' hp
    exact judgesLike_of_perm (hp.flatMap_right _) ((hp.flatMap_right _).countP_eq _) w n t
  · intro results' hi hs
    have hu : (results'.flatMap Findings.suppressions).countP Suppression.shouldFlag =
        (results.flatMap Findings.suppressions).countP Suppression.shouldFlag := by
      rw [List.countP_eq_length_filter, hs, List.countP_eq_length_filter]
    have hj := judgesLike_of_perm (List.Perm.of_eq hi) hu w n t
    refine ⟨hj, fun p state q => decide_congr hj ?_ p state q⟩
    simp only [unsafeSuppressions, build, hs]

/-- A type error beside a lint warning, with a harmless suppression that is left out again. -/
theorem build_figures_agree_mixed :
    let typeError : Issue := { source := .typeCheck, severity := .critical, message := "no overload" }
    let unused : Issue := { source := .lint, severity := .medium, message := "unused" }
    let explained : Suppression :=
      { file := "a.ts", line := 3, kind := .disableRules, directive := "eslint-disable-line", shouldFlag := false }
    let lint : Findings := { issues := [unused], suppressions := [explained], concerns := ["a.ts:1: TODO"] }
    let types : Findings := { issues := [typeError] }
    let report results := build results {} 2 { year := 2024, month := 1, day := 2 }
    ScoreWeights.Nonneg {} ∧ (report [lint, types]).issues = [typeError, unused] ∧
      (report [lint, types]).qualityScore = 89 ∧
      (report [lint, types]).qualityScore ≤ (report [lint]).qualityScore ∧
      JudgesLike (report [lint, types]) (report [types, lint]) ∧
      JudgesLike (report [{ issues := [unused] }, types]) (report [lint, types]) := by
  intro typeError unused explained lint types report
  have hw : ScoreWeights.Nonneg {} := ⟨by decide, by decide⟩
  obtain ⟨-, -, hperm, hremarks⟩ := build_figures_agree hw [lint, types] 2 { year := 2024, month := 1, day := 2 }
  obtain ⟨-, hinsert, -⟩ := build_figures_agree hw [lint] 2 { year := 2024, month := 1, day := 2 }
  exact ⟨hw, by cbv, by cbv, hinsert [lint] [] types rfl, hperm _ (.swap ..),
    (hremarks [{ issues := [unused] }, types] (by decide) (by decide)).1⟩

end Report

end QualityGate
