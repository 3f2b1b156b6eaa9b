import Mathlib
import QualityGate.Count.Fix
import QualityGate.Proofs.Count.Reliability
import QualityGate.Proofs.Count.SuspiciousZero
import QualityGate.Proofs.Output.LintResults

/-! What a repair reports as fixed. The count before it was taken of something wherever anything is reported; a
linter that could not count after it makes everything that was counted before look fixed. -/

namespace QualityGate

namespace Count

/-- A count as it is taken session by session: what the editor knows may change in between. A repair without another
count is one whose editor is never there. -/
def inSession (root : Path) (config : Config) (editor : Session → Option Provider) : Run ErrorCount :=
  fun s => run root config (editor s) s

/-- The count that is taken in a session is one in which lint was really counted. -/
def LintCounted (root : Path) (config : Config) (editor : Session → Option Provider) (s : Session) : Prop :=
  Linted config (editor s) (afterTypeCheck root config s)

section

variable {root : Path} {config : Config} {editor : Option Provider} {s : Session} {c : ErrorCount} {lint : Category}

theorem answered_of_ok {tool : String} {source : Source} {read : String → ToolResult → Outcome Category} {reply : Reply}
    {editor : Option (Outcome (List EditorDiagnostic))} (h : Category.ofReply tool source read reply editor = .ok lint) :
    Answered reply := by
  match reply with
  | .ok r => exact .ran r
  | .error (.toolUnavailable tool detail) => exact .missing tool detail
  | .error (.toolTimeout tool seconds) => exact .slow tool seconds

theorem mem_failedTools_merge {typeCheck : Category} (h : lint.isUnreliable = true) :
    lint.tool ∈ (merge typeCheck lint).failedTools := by
  have hfailed : lint.hasFailed = true := by
    simp only [Category.isUnreliable, Bool.or_eq_true, Bool.and_eq_true] at h
    rw [Category.hasFailed, Bool.or_eq_true]
    exact h.elim .inr fun h => .inl h.1
  rw [failedTools_merge, hfailed]
  simp

/-- What a count leaves behind, but for what it published. -/
theorem run_leaves {typeCheck : Category} (ht : typeCheckOutcome root config editor s = .ok typeCheck)
    (hl : lintOutcome config editor (afterTypeCheck root config s) = .ok lint) :
    (run root config editor s).2.workspace = s.workspace ∧
      (run root config editor s).2.bench = (afterCall config config.tools.lint (afterTypeCheck root config s)).bench := by
  simp only [run, Run.bind_apply, Run.attempt_apply, typeCheckCategory_apply, lintCategory_apply, ht, hl,
    stopIfInterrupted_ok, Run.lift_apply]
  split <;> exact ⟨afterTypeCheck_workspace, rfl⟩

/-- What a count says of lint, whether it was really counted or not. -/
structure SaysOfLint (config : Config) (counted : Prop) (c : ErrorCount) : Prop where
  errors : 0 ≤ c.lintErrors
  warnings : 0 ≤ c.lintWarnings
  uncounted : ¬ counted → c.lintErrors = 0 ∧ c.lintWarnings = 0 ∧ config.tools.lint.name ∈ c.failedTools

theorem saysOfLint (h : (run root config editor s).1 = .ok c) :
    SaysOfLint config (Linted config editor (afterTypeCheck root config s)) c := by
  obtain ⟨typeCheck, lint, -, hlint, rfl⟩ := run_eq_ok_iff.mp h
  obtain ⟨hreliable, hzero⟩ := lintOutcome_eq_ok hlint
  refine ⟨Int.natCast_nonneg _, Int.natCast_nonneg _, fun hun => ?_⟩
  have hunreliable : lint.isUnreliable = true := by
    rw [← hreliable] at hun
    simpa using hun
  obtain ⟨herrors, hwarnings⟩ := hzero hunreliable
  have hnamed := (lintOutcome_accounted (answered_of_ok hlint) hlint).named
  refine ⟨congrArg Int.ofNat herrors, congrArg Int.ofNat hwarnings, ?_⟩
  rw [← hnamed]
  exact mem_failedTools_merge hunreliable

end

end Count

open QualityGate.Count

namespace Fix

/-- Something is reported as fixed. -/
def ReportsFixed (f : Fix) : Prop := 0 < f.fixedErrors ∨ 0 < f.fixedWarnings

section

variable {root : Path} {config : Config} {editor : Session → Option Provider} {count : Run ErrorCount}
  {files : List String} {s s' : Session} {f : Fix}

/-- The session in which the second count is taken. -/
def repaired (count : Run ErrorCount) (config : Config) (files : List String) (s : Session) : Session :=
  { (count s).2 with bench := ((count s).2.bench.call (toCall config files)).2 }

theorem counted_eq_ok_iff :
    counted count config files s = (.ok f, s') ↔
      (count s).1 = .ok f.before ∧ count (repaired count config files s) = (.ok f.after, s') ∧
        (∃ r, (count s).2.bench.reply (toCall config files).tool = .ok r ∧ f.exitCode = r.exitCode) ∧
        f.targets = targetsOf files := by
  constructor
  · intro h
    obtain ⟨before, s₁, hbefore, hrest⟩ := Run.bind_eq_ok h
    obtain ⟨r, s₂, hcall, hrest⟩ := Run.bind_eq_ok hrest
    obtain ⟨after, s₃, hafter, hresult⟩ := Run.bind_eq_ok hrest
    obtain ⟨hreply, rfl⟩ := Prod.mk.inj hcall
    cases hresult
    rw [repaired, hbefore]
    exact ⟨rfl, hafter, ⟨r, hreply, rfl⟩, rfl⟩
  · rintro ⟨hbefore, hafter, ⟨r, hreply, hexit⟩, htargets⟩
    obtain ⟨before, after, exitCode, targets⟩ := f
    dsimp only at hbefore hafter hexit htargets
    subst hexit htargets
    rw [repaired] at hafter
    have hcount : count s = (.ok before, (count s).2) := Prod.ext hbefore rfl
    rw [counted, Run.bind_apply, hcount]
    dsimp only
    rw [Run.bind_apply, Run.call_apply, hreply]
    dsimp only
    rw [Run.bind_apply, hafter]
    rfl

theorem not_reportsFixed {counted : Prop} (herrors : f.before.lintErrors = 0) (hwarnings : f.before.lintWarnings = 0)
    (hafter : SaysOfLint config counted f.after) : ¬ f.ReportsFixed := by
  have := hafter.errors
  have := hafter.warnings
  simp only [ReportsFixed, fixedErrors, fixedWarnings]
  omega

theorem fixed_eq_before {counted : Prop} (hbefore : SaysOfLint config counted f.before) (herrors : f.after.lintErrors = 0)
    (hwarnings : f.after.lintWarnings = 0) :
    f.fixedErrors = f.before.lintErrors ∧ f.fixedWarnings = f.before.lintWarnings := by
  rw [fixedErrors, fixedWarnings, herrors, hwarnings, sub_zero, sub_zero]
  exact ⟨max_eq_right hbefore.errors, max_eq_right hbefore.warnings⟩

/-- Whatever is reported as fixed was really counted before. Where lint was not really counted after the repair, all that
was counted before is reported as fixed, though the second count names the linter as failed; and in that case alone,
unless nothing was counted before, something is reported that was not counted both times. -/
theorem fixed_counted_iff (h : counted (inSession root config editor) config files s = (.ok f, s')) :
    let t := repaired (inSession root config editor) config files s
    (f.ReportsFixed → LintCounted root config editor s) ∧
      (¬ LintCounted root config editor t →
        f.fixedErrors = f.before.lintErrors ∧ f.fixedWarnings = f.before.lintWarnings ∧
          config.tools.lint.name ∈ f.after.failedTools) ∧
      ((f.ReportsFixed → LintCounted root config editor s ∧ LintCounted root config editor t) ↔
        LintCounted root config editor t ∨ f.before.lintErrors = 0 ∧ f.before.lintWarnings = 0) := by
  intro t
  obtain ⟨hbefore, hafter, -, -⟩ := counted_eq_ok_iff.mp h
  have hs : SaysOfLint config (LintCounted root config editor s) f.before := saysOfLint hbefore
  have ht : SaysOfLint config (LintCounted root config editor t) f.after := saysOfLint (congrArg Prod.fst hafter)
  have hfirst : f.ReportsFixed → LintCounted root config editor s := by
    intro hfixed
    by_contra hun
    obtain ⟨herrors, hwarnings, -⟩ := hs.uncounted hun
    exact not_reportsFixed herrors hwarnings ht hfixed
  have hsecond (hun : ¬ LintCounted root config editor t) :
      f.fixedErrors = f.before.lintErrors ∧ f.fixedWarnings = f.before.lintWarnings ∧
        config.tools.lint.name ∈ f.after.failedTools := by
    obtain ⟨herrors, hwarnings, hnamed⟩ := ht.uncounted hun
    obtain ⟨hfixed, hfixedWarnings⟩ := fixed_eq_before hs herrors hwarnings
    exact ⟨hfixed, hfixedWarnings, hnamed⟩
  refine ⟨hfirst, hsecond, ?_⟩
  constructor
  · intro hboth
    by_contra hneither
    obtain ⟨hun, hsome⟩ := not_or.mp hneither
    obtain ⟨herrors, hwarnings, -⟩ := hsecond hun
    have := hs.errors
    have := hs.warnings
    refine hun (hboth ?_).2
    rw [ReportsFixed, herrors, hwarnings]
    omega
  · rintro (hcounted | ⟨herrors, hwarnings⟩) hfixed
    · exact ⟨hfirst hfixed, hcounted⟩
    · exact absurd hfixed (not_reportsFixed herrors hwarnings ht)

end

/-! A linter that reports an error, once before the repair and in whatever way after it. -/

section

def oneMessage : Json := .obj [("ruleId", .str "semi"), ("severity", .int 2)]

def oneResult : Json := .arr [.obj [("filePath", .str "a.ts"), ("messages", .arr [oneMessage])]]

def reportsOne : ToolResult := { stdout := oneResult.text Json.compact, exitCode := 1 }

/-- A linter that reports one error, whatever it replies after the repair. -/
def linterTwice (second : Reply) : Session where
  workspace := { root := { root := "/" } }
  bench := { replies := [("eslint", [.ok reportsOne, second]), ("eslint --fix", [.ok {}])] }
  now := { year := 2024, month := 1, day := 2 }

theorem ofLint_reportsOne (tool : String) : Category.ofLint tool reportsOne = .ok { tool, errors := 1, origin := .tool } := by
  have hformed : Json.Formed Json.mostNested oneResult := by
    simp [oneResult, oneMessage, Json.Formed, Json.FormedItems, Json.FormedFields, Json.mostNested]
  have hshort : oneResult.Short := by
    simp [oneResult, oneMessage, Json.spellable_of_lt]
  have hresults : Output.Lint.results? oneResult =
    some [(.obj [("filePath", .str "a.ts"), ("messages", .arr [oneMessage])], [oneMessage])] := rfl
  have hpayload : Json.payload? (oneResult.text Json.compact).toList "".toList = .ok (some oneResult) :=
    Json.payload?_text Json.compact_blank hformed hshort rfl
  have hcounts : Output.Lint.counts (oneResult.text Json.compact) "" = .ok ⟨1, 0, .json⟩ :=
    Output.Lint.counts_of_results hpayload hresults
  simp only [Category.ofLint, reportsOne, hcounts, bind, Except.bind]
  rfl

variable {second : Reply} {lint : Category}

/-- What the tools still reply once the first count is taken. -/
def afterwards (second : Reply) : Bench :=
  (afterCall {} ({} : Config).tools.lint (afterTypeCheck { root := "/" } {} (linterTwice second))).bench

/-- A count for which no editor stands in. -/
def alone : Run ErrorCount := inSession { root := "/" } {} fun _ => none

def twoCounts (lint : Category) : Fix where
  before := merge { tool := "tsc" } { tool := "eslint", errors := 1, origin := .tool }
  after := merge { tool := "tsc" } lint
  exitCode := 0
  targets := ["a.ts"]

theorem run_linterTwice (h : Category.ofReply "eslint" .lint Category.ofLint second none = .ok lint) :
    (∃ s', counted alone {} ["a.ts"] (linterTwice second) = (.ok (twoCounts lint), s')) ∧
      (LintCounted { root := "/" } {} (fun _ => none) (repaired alone {} ["a.ts"] (linterTwice second)) ↔
        lint.isUnreliable = false) := by
  have hproject : Check.TypeChecking.hasProject (linterTwice second).workspace { root := "/" }
      ({} : Config).tools.typeCheck = false := by cbv
  have ht : typeCheckOutcome { root := "/" } {} none (linterTwice second) = .ok { tool := "tsc" } := by
    simp only [typeCheckOutcome, hproject]
    rfl
  have hl : lintOutcome {} none (afterTypeCheck { root := "/" } {} (linterTwice second)) =
      .ok { tool := "eslint", errors := 1, origin := .tool } := by
    rw [lintOutcome_afterTypeCheck (by decide)]
    exact ofLint_reportsOne "eslint"
  obtain ⟨hworkspace, hbench⟩ : (alone (linterTwice second)).2.workspace = (linterTwice second).workspace ∧
      (alone (linterTwice second)).2.bench = afterwards second := run_leaves ht hl
  have ht' : typeCheckOutcome { root := "/" } {} none
      (repaired alone {} ["a.ts"] (linterTwice second)) = .ok { tool := "tsc" } := by
    simp only [typeCheckOutcome, repaired, hworkspace, hproject]
    rfl
  have hl' : lintOutcome {} none (afterTypeCheck { root := "/" } {}
      (repaired alone {} ["a.ts"] (linterTwice second))) = .ok lint := by
    rw [lintOutcome_afterTypeCheck (by decide), lintOutcome, repaired, hbench]
    have hsecond : ((afterwards second).call (toCall {} ["a.ts"])).2.reply "eslint" = second := by cbv
    exact (congrArg (Category.ofReply "eslint" .lint Category.ofLint · none) hsecond).trans h
  have hreply : (alone (linterTwice second)).2.bench.reply "eslint --fix" = .ok {} := by
    rw [hbench]
    cbv
  have hafter : alone (repaired alone {} ["a.ts"] (linterTwice second)) = (.ok (merge { tool := "tsc" } lint), _) :=
    Prod.ext (run_of_ok ht' hl') rfl
  exact ⟨⟨_, counted_eq_ok_iff.mpr ⟨run_of_ok ht hl, hafter, ⟨{}, hreply, rfl⟩, rfl⟩⟩, (lintOutcome_eq_ok hl').1.symm⟩

theorem fixed_counted_twice :
    ∃ s', counted alone {} ["a.ts"] (linterTwice (.ok { stdout := "[]" })) =
        (.ok (twoCounts { tool := "eslint", origin := .tool }), s') ∧
      (twoCounts { tool := "eslint", origin := .tool }).ReportsFixed ∧
      LintCounted { root := "/" } {} (fun _ => none) (linterTwice (.ok { stdout := "[]" })) ∧
      LintCounted { root := "/" } {} (fun _ => none) (repaired alone {} ["a.ts"] (linterTwice (.ok { stdout := "[]" }))) := by
  have hcounts : Output.Lint.counts "[]" "" = .ok ⟨0, 0, .json⟩ := by cbv
  have hnone : Category.ofReply "eslint" .lint Category.ofLint (.ok { stdout := "[]" }) none =
      .ok { tool := "eslint", origin := .tool } := by
    simp only [Category.ofReply, Category.ofLint, hcounts, bind, Except.bind]
    rfl
  obtain ⟨⟨s', hrun⟩, hafter⟩ := run_linterTwice hnone
  have hfixed : (twoCounts { tool := "eslint", origin := .tool }).ReportsFixed := .inl (by decide)
  exact ⟨s', hrun, hfixed, (fixed_counted_iff hrun).2.2.mpr (.inl (hafter.mpr rfl)) hfixed⟩

/-- The linter is gone after the repair, and its error is reported as fixed. -/
theorem fixed_without_linter :
    ¬ ∀ root config editor files s f s', counted (inSession root config editor) config files s = (.ok f, s') →
      f.ReportsFixed → LintCounted root config editor s ∧
        LintCounted root config editor (repaired (inSession root config editor) config files s) := by
  intro h
  have hgone : Category.ofReply "eslint" .lint Category.ofLint (.error (.toolUnavailable "eslint" "")) none =
      .ok { tool := "eslint", toolFailed := true } := rfl
  obtain ⟨⟨s', hrun⟩, hiff⟩ := run_linterTwice hgone
  obtain ⟨-, hcounted⟩ := h _ _ _ _ _ _ s' hrun (.inl (by decide))
  cases hiff.mp hcounted

end

end Fix

end QualityGate
