import QualityGate.Policy.Protection
import QualityGate.Proofs.Count.Outcome
import QualityGate.Proofs.Report.Tally
import QualityGate.Proofs.Outcome

/-! The table by which protection decides, stated on what its sources of
knowledge answer, and that every decision goes by it. What a source cannot tell
never lets an action through. -/

namespace QualityGate

def Report.Built (r : Report) : Prop := ∃ results w n t, r = Report.build results w n t

/-- A count that the quick count can give. -/
def ErrorCount.Counted (c : ErrorCount) : Prop :=
  ∃ root config editor s, (Count.run root config editor s).1 = .ok c

namespace PolicyState

def AcceptsDiagnostics (s : PolicyState) (ds : List EditorDiagnostic) : Prop :=
  (∀ d ∈ ds, d.severity ≠ .error) ∧ (s.level = .zeroTolerance → ∀ d ∈ ds, d.severity ≠ .warning)

def AcceptsReport (s : PolicyState) (r : Report) : Prop :=
  (∀ i ∈ r.issues, i.isError = false) ∧
    (s.level = .zeroTolerance → (∀ i ∈ r.issues, i.isError = true) ∧ ∀ x ∈ r.suppressions, x.shouldFlag = false)

def AcceptsCount (s : PolicyState) (c : ErrorCount) : Prop :=
  c.suspiciousZero = false ∧ c.errors = 0 ∧ (s.level = .zeroTolerance → c.warnings = 0)

/-- A commit in spite of errors, which the caller asked for and the state admits. -/
def Overrides (s : PolicyState) (asked : Bool) (r : Report) : Prop :=
  (∃ i ∈ r.issues, i.isError = true) ∧ asked = true ∧ s.level = .advisory ∧
    (s.projectClass = .legacyWithErrors ∨ s.projectClass = .unknown)

def IsFree (s : PolicyState) : Prop := s.level = .advisory ∧ s.projectClass = .fresh

end PolicyState

namespace Protection

def Permits (p : Protection) (state : PolicyState) (r : Request) (s : Session) : Prop :=
  match r.trigger with
  | .save => ∃ file editor ds, r.file = some file ∧ p.editor = some editor ∧
      editor.ofFile s.workspace file = .ok ds ∧ state.AcceptsDiagnostics ds
  | .commit => state.IsFree ∨
      ∃ report, (p.audit s).1 = .ok report ∧ (state.AcceptsReport report ∨ state.Overrides r.override report)
  | .build => ∃ c, (p.count s).1 = .ok c ∧ state.AcceptsCount c

/-- A wish to override counts only where the audit speaks against the commit. -/
def Requests (p : Protection) (state : PolicyState) (r : Request) (s : Session) : Prop :=
  r.trigger = .commit ∧ ¬ state.IsFree ∧ r.override = true ∧
    ∃ report, (p.audit s).1 = .ok report ∧ ¬ state.AcceptsReport report

def Honors (p : Protection) (state : PolicyState) (r : Request) (s : Session) : Prop :=
  r.trigger = .commit ∧ ∃ report, (p.audit s).1 = .ok report ∧ state.Overrides r.override report

/-- What the source of knowledge that a request turns to may answer: any failure but an interruption
by the user, any diagnostics, any report that was built from findings, any count that was counted. -/
def Answers (p : Protection) (state : PolicyState) (r : Request) (s : Session) : Prop :=
  match r.trigger with
  | .save => ∃ file, r.file = some file ∧
      ∀ editor, p.editor = some editor → Settled (editor.ofFile s.workspace file)
  | .commit => state.IsFree ∨
      Settled (p.audit s).1 ∧ ∀ report, (p.audit s).1 = .ok report → report.Built
  | .build => Settled (p.count s).1 ∧ ∀ c, (p.count s).1 = .ok c → c.Counted

end Protection

/-- A decision that goes by the table and whose numbers are those of its details. -/
structure Decision.Justified (d : Decision) (p : Protection) (state : PolicyState) (r : Request) (s : Session) :
    Prop where
  allowed_iff : d.allowed = true ↔ p.Permits state r s
  errors_eq : d.errors = d.details.total Summary.errors
  warnings_eq : d.warnings = d.details.total Summary.warnings
  honored_iff : d.overrideHonored = true ↔ p.Honors state r s
  requested_iff : d.overrideRequested = true ↔ p.Requests state r s
  trigger_eq : d.trigger = r.trigger
  level_eq : d.level = state.level
  projectClass_eq : d.projectClass = state.projectClass

namespace ErrorCount.Counted

variable {c : ErrorCount}

theorem nonneg (h : c.Counted) : 0 ≤ c.errors ∧ 0 ≤ c.warnings := by
  obtain ⟨root, config, editor, s, h⟩ := h
  obtain ⟨typeCheck, lint, -, -, rfl⟩ := Count.run_eq_ok_iff.mp h
  simp only [Count.merge, errors, warnings]
  omega

theorem eq_zero_of_suspiciousZero (h : c.Counted) (hz : c.suspiciousZero = true) :
    c.errors = 0 ∧ c.warnings = 0 := by
  obtain ⟨root, config, editor, s, h⟩ := h
  obtain ⟨typeCheck, lint, -, -, rfl⟩ := Count.run_eq_ok_iff.mp h
  simp only [Count.merge, Bool.and_eq_true, beq_iff_eq] at hz
  simp only [Count.merge, errors, warnings]
  omega

end ErrorCount.Counted

namespace PolicyState

theorem blocks_eq_false_iff (s : PolicyState) {errors warnings : Int} (he : 0 ≤ errors) (hw : 0 ≤ warnings) :
    s.blocks errors warnings = false ↔ errors = 0 ∧ (s.level = .zeroTolerance → warnings = 0) := by
  cases hl : s.level
  · simp only [blocks, hl, decide_eq_false_iff_not, reduceCtorEq, false_implies, and_true]
    omega
  · simp only [blocks, hl, Bool.or_eq_false_iff, decide_eq_false_iff_not, true_implies]
    omega

theorem blocks_diagnostics_eq_false_iff (s : PolicyState) (ds : List EditorDiagnostic) :
    s.blocks (ds.countP EditorDiagnostic.isError) (ds.countP EditorDiagnostic.isWarning) = false ↔
      s.AcceptsDiagnostics ds := by
  rw [blocks_eq_false_iff s (Int.natCast_nonneg _) (Int.natCast_nonneg _)]
  simp [AcceptsDiagnostics, List.countP_eq_zero, EditorDiagnostic.isError, EditorDiagnostic.isWarning]

theorem blocksCommit_eq_false_iff (s : PolicyState) (r : Report) : s.blocksCommit r = false ↔ s.AcceptsReport r := by
  rw [blocksCommit, Bool.or_eq_false_iff, blocks_eq_false_iff s (Int.natCast_nonneg _) (Int.natCast_nonneg _)]
  cases hl : s.level <;>
    simp [AcceptsReport, hl, Report.errorCount_eq_countP, Report.warningCount_eq_countP, List.countP_eq_zero,
      Report.unsafeSuppressions, and_assoc]

theorem commitsFreely_iff (s : PolicyState) : s.commitsFreely = true ↔ s.IsFree := by
  simp [commitsFreely, IsFree]

theorem honored_iff (s : PolicyState) (asked : Bool) (r : Report) :
    (s.blocksCommit r && asked && s.canOverride) = true ↔ s.Overrides asked r := by
  -- Only errors block under advisory protection, so what can be overridden is a commit with errors.
  have hb : s.level = .advisory → (s.blocksCommit r = true ↔ ∃ i ∈ r.issues, i.isError = true) := by
    intro hl
    rw [← Bool.not_eq_false, blocksCommit_eq_false_iff]
    simp [AcceptsReport, hl]
  simp only [canOverride, Overrides, Bool.and_eq_true, Bool.or_eq_true, beq_iff_eq]
  constructor
  · rintro ⟨⟨hbl, ha⟩, hl, hc⟩
    exact ⟨(hb hl).mp hbl, ha, hl, hc⟩
  · rintro ⟨he, ha, hl, hc⟩
    exact ⟨⟨(hb hl).mpr he, ha⟩, hl, hc⟩

/-- The decision on a count that was counted carries its numbers, also where they cannot be trusted. -/
theorem buildVerdict_ok (s : PolicyState) {c : ErrorCount} (hc : c.Counted) :
    ∃ allowed reason,
      s.buildVerdict (.ok c) = .ok { s.decision .build allowed reason with
        errors := c.errors, warnings := c.warnings, details := c.details } ∧
      (allowed = true ↔ s.AcceptsCount c) := by
  cases hz : c.suspiciousZero with
  | true =>
    have h0 := hc.eq_zero_of_suspiciousZero hz
    refine ⟨false, _, by simp only [buildVerdict, hz, if_true, h0, decision]; rfl, ?_⟩
    simp [AcceptsCount, hz]
  | false =>
    refine ⟨!s.blocks c.errors c.warnings, _, by simp only [buildVerdict, hz]; rfl, ?_⟩
    rw [AcceptsCount, ← blocks_eq_false_iff s hc.nonneg.1 hc.nonneg.2]
    simp [hz]

theorem not_overrides_of_isFree {s : PolicyState} (h : s.IsFree) (asked : Bool) (r : Report) :
    ¬ s.Overrides asked r := by
  rintro ⟨-, -, -, hc | hc⟩ <;> simp [h.2] at hc

end PolicyState

namespace Protection

variable {p : Protection} {state : PolicyState} {r : Request} {s : Session}

theorem decide_save (he : state.enabled = true) (ht : r.trigger = .save) {file : String} (hf : r.file = some file) :
    p.decide state r s = (state.saveVerdict file (p.editor.map fun e => e.ofFile s.workspace file), s) := by
  simp [decide, he, ht, hf, Run.bind_apply]

theorem decide_commit_of_isFree (he : state.enabled = true) (ht : r.trigger = .commit) (hf : state.IsFree) :
    p.decide state r s = (.ok state.freeCommit, s) := by
  simp [decide, he, ht, state.commitsFreely_iff.mpr hf]

theorem decide_commit (he : state.enabled = true) (ht : r.trigger = .commit) (hf : ¬ state.IsFree) :
    p.decide state r s = (state.commitVerdict r.override (p.audit s).1, (p.audit s).2) := by
  simp [decide, he, ht, mt state.commitsFreely_iff.mp hf, Run.bind_apply]

theorem decide_build (he : state.enabled = true) (ht : r.trigger = .build) :
    p.decide state r s = (state.buildVerdict (p.count s).1, (p.count s).2) := by
  simp [decide, he, ht, Run.bind_apply]

/-- A decision that denies for want of knowledge counts nothing. -/
theorem justified_denial (reason : String) (hp : ¬ p.Permits state r s) (hq : ¬ p.Requests state r s)
    (hh : ¬ p.Honors state r s) :
    (state.decision r.trigger false reason).Justified p state r s where
  allowed_iff := by simpa [PolicyState.decision] using hp
  errors_eq := rfl
  warnings_eq := rfl
  requested_iff := by simpa [PolicyState.decision] using hq
  honored_iff := by simpa [PolicyState.decision] using hh
  trigger_eq := rfl
  level_eq := rfl
  projectClass_eq := rfl

theorem save_justified (ht : r.trigger = .save) {file : String} (hf : r.file = some file)
    (hc : ∀ editor, p.editor = some editor → Settled (editor.ofFile s.workspace file)) :
    ∃ d, state.saveVerdict file (p.editor.map fun e => e.ofFile s.workspace file) = .ok d ∧
      d.Justified p state r s := by
  have hq : ¬ p.Requests state r s := by simp [Requests, ht]
  have hh : ¬ p.Honors state r s := by simp [Honors, ht]
  cases hp : p.editor with
  | none =>
    refine ⟨_, rfl, ht ▸ justified_denial _ ?_ hq hh⟩
    simp [Permits, ht, hp]
  | some editor =>
    cases ho : editor.ofFile s.workspace file with
    | error e =>
      refine ⟨_, by simp [PolicyState.saveVerdict, ho, hc editor hp e ho]; rfl, ht ▸ justified_denial _ ?_ hq hh⟩
      simp [Permits, ht, hf, hp, ho]
    | ok ds =>
      refine ⟨_, by simp only [Option.map_some, ho]; rfl, ?_⟩
      constructor
      case allowed_iff =>
        rw [show p.Permits state r s ↔ state.AcceptsDiagnostics ds by simp [Permits, ht, hf, hp, ho],
          ← PolicyState.blocks_diagnostics_eq_false_iff]
        simp [PolicyState.decision]
      case requested_iff => simpa [PolicyState.decision] using hq
      case honored_iff => simpa [PolicyState.decision] using hh
      case errors_eq => exact (PolicyState.total_diagnosticDetails_errors ds).symm
      case warnings_eq => exact (PolicyState.total_diagnosticDetails_warnings ds).symm
      all_goals simp [PolicyState.decision, ht]

theorem freeCommit_justified (ht : r.trigger = .commit) (hf : state.IsFree) :
    state.freeCommit.Justified p state r s where
  allowed_iff := by simp [PolicyState.freeCommit, PolicyState.decision, Permits, ht, hf]
  errors_eq := rfl
  warnings_eq := rfl
  honored_iff := by
    simp [PolicyState.freeCommit, PolicyState.decision, Honors, PolicyState.not_overrides_of_isFree hf]
  requested_iff := by simp [PolicyState.freeCommit, PolicyState.decision, Requests, hf]
  trigger_eq := ht.symm
  level_eq := rfl
  projectClass_eq := rfl

theorem commit_justified (ht : r.trigger = .commit) (hf : ¬ state.IsFree)
    (hc : Settled (p.audit s).1)
    (hb : ∀ report, (p.audit s).1 = .ok report → report.Built) :
    ∃ d, state.commitVerdict r.override (p.audit s).1 = .ok d ∧ d.Justified p state r s := by
  cases ho : (p.audit s).1 with
  | error e =>
    refine ⟨_, by simp [PolicyState.commitVerdict, hc e ho]; rfl, ht ▸ justified_denial _ ?_ ?_ ?_⟩
    · simp [Permits, ht, hf, ho]
    · simp [Requests, ho]
    · simp [Honors, ho]
  | ok report =>
    obtain ⟨results, w, n, t, rfl⟩ := hb report ho
    let report := Report.build results w n t
    have hh : p.Honors state r s ↔ state.Overrides r.override report := by simp [Honors, ht, ho, report]
    refine ⟨_, rfl, ?_⟩
    constructor
    case allowed_iff =>
      rw [show p.Permits state r s ↔ state.AcceptsReport report ∨ state.Overrides r.override report by
        simp [Permits, ht, hf, ho, report], ← PolicyState.blocksCommit_eq_false_iff, ← PolicyState.honored_iff]
      simp [PolicyState.decision, report, and_assoc]
    case honored_iff => exact (PolicyState.honored_iff _ _ _).trans hh.symm
    case errors_eq =>
      exact (congrArg Int.ofNat (Report.errorCount_eq_countP _)).trans (total_summarize_errors _).symm
    case warnings_eq =>
      exact (congrArg Int.ofNat (Report.warningCount_eq_countP _)).trans (total_summarize_warnings _).symm
    case requested_iff =>
      rw [show p.Requests state r s ↔ r.override = true ∧ ¬ state.AcceptsReport report by
        simp [Requests, ht, hf, ho, report], ← PolicyState.blocksCommit_eq_false_iff]
      simp [report]
    all_goals simp [PolicyState.decision, ht]

theorem build_justified (ht : r.trigger = .build)
    (hc : Settled (p.count s).1)
    (hn : ∀ c, (p.count s).1 = .ok c → c.Counted) :
    ∃ d, state.buildVerdict (p.count s).1 = .ok d ∧ d.Justified p state r s := by
  have hq : ¬ p.Requests state r s := by simp [Requests, ht]
  have hh : ¬ p.Honors state r s := by simp [Honors, ht]
  cases ho : (p.count s).1 with
  | error e =>
    refine ⟨_, by simp [PolicyState.buildVerdict, hc e ho]; rfl, ht ▸ justified_denial _ ?_ hq hh⟩
    simp [Permits, ht, ho]
  | ok c =>
    obtain ⟨allowed, reason, hd, ha⟩ := state.buildVerdict_ok (hn c ho)
    refine ⟨_, hd, ?_⟩
    constructor
    case allowed_iff => simpa [Permits, ht, ho, PolicyState.decision] using ha
    case requested_iff => simpa [PolicyState.decision] using hq
    case honored_iff => simpa [PolicyState.decision] using hh
    case errors_eq => exact c.total_details_errors.symm
    case warnings_eq => exact c.total_details_warnings.symm
    all_goals simp [PolicyState.decision, ht]

/-- Under protection every request is decided, and by the table. A commit in a new project under
advisory protection is decided without an audit. -/
theorem decide_justified (he : state.enabled = true) (ha : p.Answers state r s) :
    ∃ d s', p.decide state r s = (.ok d, s') ∧ d.Justified p state r s ∧
      (r.trigger = .commit → state.IsFree →
        ∀ audit, ({ p with audit } : Protection).decide state r s = (.ok d, s)) := by
  cases ht : r.trigger with
  | save =>
    obtain ⟨file, hf, hc⟩ : ∃ file, r.file = some file ∧ _ := by simpa [Answers, ht] using ha
    obtain ⟨d, hd, hj⟩ := save_justified ht hf hc
    exact ⟨d, s, by rw [decide_save he ht hf, hd], hj, by simp⟩
  | commit =>
    by_cases hf : state.IsFree
    · refine ⟨state.freeCommit, s, decide_commit_of_isFree he ht hf, freeCommit_justified ht hf, ?_⟩
      exact fun _ _ audit => decide_commit_of_isFree he ht hf
    · obtain ⟨hc, hb⟩ := (show state.IsFree ∨ _ by simpa [Answers, ht] using ha).resolve_left hf
      obtain ⟨d, hd, hj⟩ := commit_justified ht hf hc hb
      exact ⟨d, _, by rw [decide_commit he ht hf, hd], hj, fun _ h => absurd h hf⟩
  | build =>
    obtain ⟨hc, hn⟩ : _ ∧ _ := by simpa [Answers, ht] using ha
    obtain ⟨d, hd, hj⟩ := build_justified ht hc hn
    exact ⟨d, _, by rw [decide_build he ht, hd], hj, by simp⟩

/-- A lint error in a legacy project, committed because the caller asked for it. -/
theorem decide_justified_overridden :
    let now : Timestamp := { year := 2024, month := 1, day := 2 }
    let report := Report.build [{ issues := [{ source := .lint, severity := .high, message := "unused" }] }] {} 1 now
    let p : Protection :=
      { root := {}, config := {}, count := throw (.runtime "lost"), audit := pure report, editor := none }
    let state : PolicyState := { enabled := true, projectClass := .legacyWithErrors }
    let r : Request := { trigger := .commit, override := true }
    let s : Session := { workspace := { root := {} }, now }
    state.enabled = true ∧ p.Answers state r s ∧
      ∃ d s', p.decide state r s = (.ok d, s') ∧ d.allowed = true ∧ d.overrideHonored = true := by
  intro now report p state r s
  have ha : p.Answers state r s := .inr ⟨by simp [p], fun _ h => ⟨_, _, _, _, (Except.ok.inj h).symm⟩⟩
  have ho : state.Overrides true report := by
    refine ⟨⟨_, Report.mem_build_issues.mpr ⟨_, List.mem_singleton_self _, List.mem_singleton_self _⟩, rfl⟩, ?_⟩
    simp [state]
  obtain ⟨d, s', hd, hj, -⟩ := decide_justified (show state.enabled = true from rfl) ha
  exact ⟨rfl, ha, d, s', hd, hj.allowed_iff.mpr (.inr ⟨report, rfl, .inr ho⟩),
    hj.honored_iff.mpr ⟨rfl, report, rfl, ho⟩⟩

end Protection

end QualityGate
