import Mathlib
import QualityGate.Proofs.Policy.DecisionTable
import QualityGate.Proofs.Report.Audit
import QualityGate.Proofs.Report.Tally

/-! A command that fails does not pass for one that found nothing: its check
reports an error, and the commit is denied. The exception is a failed build:
the free-form lines of its log are read only where no positional format matches,
so a log of positional warnings hides the error that made the build fail. -/

namespace QualityGate

theorem PolicyState.commitVerdict_of_error (state : PolicyState) {report : Report}
    (he : ∃ i ∈ report.issues, i.isError = true) :
    ∃ d, state.commitVerdict false (.ok report) = .ok d ∧ d.allowed = false := by
  have hb : state.blocksCommit report = true := by
    cases hb : state.blocksCommit report with
    | true => rfl
    | false =>
      obtain ⟨i, hi, he⟩ := he
      simp [((state.blocksCommit_eq_false_iff report).mp hb).1 i hi] at he
  exact ⟨_, rfl, by simp [hb, decision]⟩

namespace Commanded

/-- A command that fails leaves an issue behind. Where nothing can be extracted from its reply, that is one
error which names the check, and no commit passes that the state does not let through anyway. -/
theorem failure_denies_commit {config : Config} (hu : config.severity.toolUnavailable.isError = true)
    (hp : config.severity.unparsedFailure.isError = true) :
    (∀ (k : Commanded) ctx s, ctx.config = config → k.isRun s.workspace ctx.root config.tools = .ok true →
      let reply := k.replyIn config.tools s.bench
      Fails reply → Settled reply →
        ∃ f, (k.check.run ctx s).1 = .ok f ∧ f.issues ≠ [] ∧
          (k.TellsNothing config.severity reply → ∃ e i, (∀ e', reply = .error e' → e = e') ∧ f.issues = [i] ∧
            i.isError = true ∧ i.source = k.check.source ∧
            i.message = "Could not check " ++ k.check.name ++ ": " ++ e.message)) ∧
    ∀ root editor state r s, state.enabled = true → ¬ state.IsFree → r.trigger = .commit → r.override = false →
      s.bench.Calm →
      (∃ k reply, (k, reply) ∈ replies s.workspace root config.tools all s.bench ∧
        Fails reply ∧ k.TellsNothing config.severity reply) →
        ∃ d s', (Protection.standard root config editor).decide state r s = (.ok d, s') ∧ d.allowed = false := by
  constructor
  · rintro k ctx s rfl hr reply hf hs
    rw [run_of_isRun hr]
    obtain ⟨f, ho, hi, -⟩ := outcome_of_fails hf hs
    refine ⟨f, ho, hi, fun hn => ?_⟩
    obtain ⟨f', e, i, ho', h⟩ := outcome_of_tellsNothing ctx hf hs hn hu hp
    obtain rfl : f = f' := Except.ok.inj (ho.symm.trans ho')
    exact ⟨e, i, h⟩
  · rintro root editor state r s he hfree ht hno hs ⟨k, reply, hm, hf, hn⟩
    -- The audit may still fail, for its file patterns; then the commit is denied for want of a report.
    have hset : Settled (Audit.run root config Check.all s).1 := Audit.settled_run root config Check.reports_all hs
    have hdeny : ∃ d, state.commitVerdict false (Audit.run root config Check.all s).1 = .ok d ∧ d.allowed = false := by
      cases ha : (Audit.run root config Check.all s).1 with
      | error e => exact ⟨_, by simp [PolicyState.commitVerdict, hset e ha]; rfl, rfl⟩
      | ok report =>
        obtain ⟨files, fs, n, t, rfl, hk⟩ := Audit.run_eq_ok ha
        obtain ⟨f, hmem, ho⟩ := hk k reply hm
        obtain ⟨f', e, i, ho', -, hi, herr, -⟩ :=
          outcome_of_tellsNothing ⟨root, config, files⟩ hf (settled_of_mem_replies _ _ _ _ hs hm) hn hu hp
        obtain rfl : f = f' := Except.ok.inj (ho.symm.trans ho')
        exact state.commitVerdict_of_error ⟨i, Report.mem_build_issues.mpr ⟨f, hmem, by simp [hi]⟩, herr⟩
    obtain ⟨d, hd, hno'⟩ := hdeny
    refine ⟨d, (Audit.run root config Check.all s).2, ?_, hno'⟩
    rw [Protection.decide_commit he ht hfree, hno]
    exact congrArg (·, _) hd

theorem failure_denies_commit_lost :
    let config : Config := {}
    let s : Session :=
      { workspace := { root := { root := "/" } }
        bench := { replies := [("eslint", [.error (.runtime "lost")])] }
        now := { year := 2024, month := 1, day := 2 } }
    let ctx : Context := ⟨{ root := "/" }, config, []⟩
    let p := Protection.standard { root := "/" } config none
    config.severity.toolUnavailable.isError = true ∧ config.severity.unparsedFailure.isError = true ∧
      (∃ f i, (linting.check.run ctx s).1 = .ok f ∧ f.issues = [i] ∧ i.isError = true ∧
        i.message = "Could not check lint: lost") ∧
      ∃ d s', p.decide { enabled := true } { trigger := .commit } s = (.ok d, s') ∧ d.allowed = false := by
  intro config s ctx p
  obtain ⟨h₁, h₂⟩ := failure_denies_commit (show config.severity.toolUnavailable.isError = true from rfl) rfl
  have hs : s.bench.Calm := by
    simp [s, Bench.Calm, Failure.endsRun]
  obtain ⟨f, hf, -, h⟩ := h₁ linting ctx s rfl rfl trivial (hs.reply _)
  obtain ⟨e, i, he, hi, herr, -, hm⟩ := h trivial
  have hproject : Check.TypeChecking.hasProject s.workspace { root := "/" } config.tools.typeCheck = false := by cbv
  refine ⟨rfl, rfl, ⟨f, i, hf, hi, herr, ?_⟩, ?_⟩
  · rw [hm, he (.runtime "lost") rfl]
    rfl
  · refine h₂ _ none _ { trigger := .commit } s rfl (by simp [PolicyState.IsFree]) rfl rfl hs
      ⟨linting, linting.replyIn config.tools s.bench, ?_, trivial, trivial⟩
    rw [all, replies_of_not_isRun _ _ _ (by simp [isRun, hproject])]
    exact List.mem_cons_self

/-! A failed build and its log. -/

/-- A positional format matches the log, and all that it finds, apart from repetitions of an earlier
finding, are warnings. -/
def OnlyWarns (ctx : Context) (r : ToolResult) : Prop :=
  ∃ found, Output.Build.positional ctx.config.severity (Output.combinedLines r.stdout r.stderr) = .ok found ∧
    found ≠ [] ∧
    ∀ pre i post, ctx.localized found = pre ++ i :: post → (∀ j ∈ pre, j.identity ≠ i.identity) → i.isError = false

section

variable {ctx : Context} {r : ToolResult}

theorem failed_build_outcome_of_tellsNothing (hd : ctx.config.severity = {}) (hx : r.exitCode ≠ 0)
    (hn : building.TellsNothing ctx.config.severity (.ok r)) :
    ∃ f, building.outcome ctx (.ok r) = .ok f ∧ ∃ i ∈ f.issues, i.isError = true := by
  have hf : Fails (.ok r) := .inl (by simpa [ToolResult.succeeded] using hx)
  obtain ⟨f, -, i, ho, -, hi, he, -⟩ := outcome_of_tellsNothing ctx hf (.ok r) hn (by rw [hd]; rfl) (by rw [hd]; rfl)
  exact ⟨f, ho, i, by simp [hi], he⟩

/-- A failed build in whose log no positional format matches is reported by its free-form errors, or as a
failure to parse. -/
theorem failed_build_outcome_of_no_positional (hd : ctx.config.severity = {}) (hx : r.exitCode ≠ 0)
    (hp : Output.Build.positional ctx.config.severity (Output.combinedLines r.stdout r.stderr) = .ok []) :
    ∃ f, building.outcome ctx (.ok r) = .ok f ∧ ∃ i ∈ f.issues, i.isError = true := by
  have hparse := Output.Build.issues_of_no_positional hp hx
  cases hl : Output.Build.freeForm ctx.config.severity (Output.combinedLines r.stdout r.stderr) with
  | nil =>
    rw [hl] at hparse
    refine failed_build_outcome_of_tellsNothing hd hx fun issues h => ?_
    exact (Output.requireSome_eq_ok_iff.mp (hparse.symm.trans h)).1
  | cons i is =>
    rw [hl] at hparse
    have hok : building.parse ctx.config.severity r = .ok (i :: is) :=
      hparse.trans (Output.requireSome_eq_ok_iff.mpr (by simp))
    have he : i.isError = true := Output.Build.isError_of_mem_freeForm (hd ▸ hl ▸ List.mem_cons_self)
    exact ⟨_, outcome_of_parse_ok hok (by simp), _, Findings.mem_deduplicated.mpr ⟨[], _, rfl, by simp⟩, he⟩

theorem build_outcome_of_positional {found : List Issue} (hf : found ≠ [])
    (hp : Output.Build.positional ctx.config.severity (Output.combinedLines r.stdout r.stderr) = .ok found) :
    ∃ f, building.outcome ctx (.ok r) = .ok f ∧ ((∃ i ∈ f.issues, i.isError = true) ↔ ¬ OnlyWarns ctx r) := by
  have hparse : building.parse ctx.config.severity r = .ok found := Output.Build.issues_of_positional hp hf
  refine ⟨_, outcome_of_parse_ok hparse hf, ?_, fun hw => Classical.byContradiction fun hno => hw ?_⟩
  · rintro ⟨i, hi, he⟩ ⟨found', hp', -, hall⟩
    obtain rfl := Except.ok.inj (hp.symm.trans hp')
    obtain ⟨pre, post, hsplit, hfirst⟩ := Findings.mem_deduplicated.mp hi
    simp [hall pre i post hsplit hfirst] at he
  · refine ⟨found, hp, hf, fun pre i post hsplit hfirst => ?_⟩
    cases he : i.isError with
    | false => rfl
    | true => exact absurd ⟨i, Findings.mem_deduplicated.mpr ⟨pre, post, hsplit, hfirst⟩, he⟩ hno

theorem failed_build_outcome (hd : ctx.config.severity = {}) (hx : r.exitCode ≠ 0) :
    ∃ f, building.outcome ctx (.ok r) = .ok f ∧ ((∃ i ∈ f.issues, i.isError = true) ↔ ¬ OnlyWarns ctx r) := by
  cases hp : Output.Build.positional ctx.config.severity (Output.combinedLines r.stdout r.stderr) with
  -- A format matches a line whose numbers cannot be read: the log counts as unparsable.
  | error e =>
    have hparse : building.parse ctx.config.severity r = .error e := Outcome.bind_of_error hp
    obtain ⟨f, ho, hi⟩ := failed_build_outcome_of_tellsNothing hd hx fun _ h => by cases hparse.symm.trans h
    refine ⟨f, ho, iff_of_true hi ?_⟩
    rintro ⟨found, hp', -⟩
    cases hp.symm.trans hp'
  | ok found =>
    by_cases hf : found = []
    · subst hf
      obtain ⟨f, ho, hi⟩ := failed_build_outcome_of_no_positional hd hx hp
      refine ⟨f, ho, iff_of_true hi ?_⟩
      rintro ⟨found, hp', hne, -⟩
      exact hne (Except.ok.inj (hp'.symm.trans hp))
    · exact build_outcome_of_positional hf hp

end

/-- A failed build is reported as an error unless its log holds positional warnings and no positional error
but repetitions. In that case alone an audit passes in spite of it. -/
theorem failed_build_reported_iff {config : Config} {r : ToolResult} (hd : config.severity = {})
    (hx : r.exitCode ≠ 0) :
    (∀ ctx s, ctx.config = config → building.isRun s.workspace ctx.root config.tools = .ok true →
      building.replyIn config.tools s.bench = .ok r →
        ∃ f, (building.check.run ctx s).1 = .ok f ∧ ((∃ i ∈ f.issues, i.isError = true) ↔ ¬ OnlyWarns ctx r)) ∧
    ∀ root s report, (building, .ok r) ∈ replies s.workspace root config.tools all s.bench →
      (Audit.run root config Check.all s).1 = .ok report → report.passed = true →
        OnlyWarns ⟨root, config, []⟩ r := by
  constructor
  · rintro ctx s rfl hr hreply
    rw [run_of_isRun hr, hreply]
    exact failed_build_outcome hd hx
  · intro root s report hm ha hpass
    obtain ⟨files, fs, n, t, rfl, hk⟩ := Audit.run_eq_ok ha
    obtain ⟨f, hf, ho⟩ := hk building (.ok r) hm
    obtain ⟨f', ho', hiff⟩ := @failed_build_outcome ⟨root, config, files⟩ r hd hx
    obtain rfl := Except.ok.inj (ho.symm.trans ho')
    refine Classical.byContradiction fun hw => ?_
    obtain ⟨i, hi, he⟩ := hiff.mpr hw
    simp [Report.passed_build_iff.mp hpass f hf i hi] at he

/-! A log with a positional warning and the reason of the failure on a line of its own. -/

def linkingFailed : ToolResult where
  stdout := "X [WARNING] unused\nError: linking failed"
  exitCode := 2

theorem linkingFailed_onlyWarns {ctx : Context} (hd : ctx.config.severity = {}) : OnlyWarns ctx linkingFailed := by
  have hp : Output.Build.positional {} (Output.combinedLines linkingFailed.stdout linkingFailed.stderr) =
      .ok [{ source := .build, severity := .medium, message := "unused", suggestedFix := "Fix build error" }] := by
    cbv
  refine ⟨_, hd ▸ hp, by simp, fun pre i post h _ => ?_⟩
  have hi : i ∈ ctx.localized _ := h ▸ List.mem_append_right pre List.mem_cons_self
  obtain ⟨j, hj, rfl⟩ := List.mem_map.mp hi
  obtain rfl := List.mem_singleton.mp hj
  rfl

def makeConfig : Config := { tools := { build := { command := ["make"] } } }

def makeSession (r : ToolResult) : Session where
  workspace := { root := { root := "/" } }
  bench := { replies := [("make", [.ok r])] }
  now := { year := 2024, month := 1, day := 2 }

theorem failed_build_reported_make :
    let ctx : Context := ⟨{ root := "/" }, makeConfig, []⟩
    let run r := (building.check.run ctx (makeSession r)).1
    makeConfig.severity = {} ∧ linkingFailed.exitCode ≠ 0 ∧
      (∃ f, run linkingFailed = .ok f ∧ ∀ i ∈ f.issues, i.isError = false) := by
  intro ctx run
  obtain ⟨f, hf, hiff⟩ := (failed_build_reported_iff (show makeConfig.severity = {} from rfl)
    (show linkingFailed.exitCode ≠ 0 by decide)).1 ctx (makeSession linkingFailed) rfl rfl rfl
  refine ⟨rfl, by decide, f, hf, fun i hi => ?_⟩
  cases he : i.isError with
  | false => rfl
  | true => exact absurd (linkingFailed_onlyWarns rfl) (hiff.mp ⟨i, hi, he⟩)

/-- The build fails and its check reports a warning only. -/
theorem failed_build_unreported :
    ¬ ∀ ctx s r, ctx.config.severity = {} → building.isRun s.workspace ctx.root ctx.config.tools = .ok true →
      building.replyIn ctx.config.tools s.bench = .ok r → r.exitCode ≠ 0 →
        ∃ f, (building.check.run ctx s).1 = .ok f ∧ ∃ i ∈ f.issues, i.isError = true := by
  intro h
  obtain ⟨f, hf, hi⟩ := h ⟨{ root := "/" }, makeConfig, []⟩ (makeSession linkingFailed) linkingFailed rfl rfl rfl
    (by decide)
  obtain ⟨f', ho, hiff⟩ := @failed_build_outcome ⟨{ root := "/" }, makeConfig, []⟩ linkingFailed rfl (by decide)
  obtain rfl : f = f' := Except.ok.inj (hf.symm.trans ((congrArg Prod.fst (run_of_isRun rfl)).trans ho))
  exact hiff.mp hi (linkingFailed_onlyWarns rfl)

end Commanded

end QualityGate
