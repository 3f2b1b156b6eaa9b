import QualityGate.Output.Build
import QualityGate.Output.Lint
import QualityGate.Proofs.Check.Settled
import QualityGate.Proofs.Run

/-! The checks that run a command of the project, and what they make of its
reply. A command that fails leaves at least one issue behind. -/

namespace QualityGate

/-! What the parsers extract from the output of a run that failed: at least one
issue, or a failure to parse it. -/

theorem SeverityTable.isError_forBuild_error : (({} : SeverityTable).forBuild "error").isError = true := by
  decide +kernel

namespace Output

theorem requireSome_eq_ok_iff {α : Type} {tool what : String} {exitCode : Int} {found found' : List α} :
    requireSome tool what exitCode found = .ok found' ↔ found' = found ∧ (found = [] → exitCode = 0) := by
  unfold requireSome
  rw [@eq_comm _ found' found]
  cases found with
  | nil => by_cases h : exitCode = 0 <;> simp [h]
  | cons a as => simp

variable {table : SeverityTable} {stdout stderr : String} {exitCode : Int} {found : List Issue}

theorem Lint.exitCode_eq_zero_of_nil (h : issues table stdout stderr exitCode = .ok []) : exitCode = 0 := by
  have ht (h : issuesOfText table stdout stderr exitCode = .ok []) : exitCode = 0 := by
    obtain ⟨found, -, h⟩ := Outcome.bind_eq_ok h
    obtain ⟨he, hz⟩ := requireSome_eq_ok_iff.mp h
    exact hz he.symm
  obtain ⟨payload?, -, h⟩ := Outcome.bind_eq_ok h
  split at h
  · exact ht h
  · split at h
    · exact ht h
    · cases h
    · next found _ =>
      split at h
      · next hz =>
        cases h
        simpa using hz
      · exact ht h

namespace Build

theorem exitCode_eq_zero_of_nil (h : issues table stdout stderr exitCode = .ok []) : exitCode = 0 := by
  obtain ⟨matched, -, h⟩ := Outcome.bind_eq_ok h
  obtain ⟨he, hz⟩ := requireSome_eq_ok_iff.mp h
  exact hz he.symm

theorem issues_of_positional (h : positional table (combinedLines stdout stderr) = .ok found) (hf : found ≠ []) :
    issues table stdout stderr exitCode = .ok found := by
  refine (Outcome.bind_of_ok h).trans (requireSome_eq_ok_iff.mpr ?_)
  simp [hf]

theorem issues_of_no_positional (h : positional table (combinedLines stdout stderr) = .ok []) (hx : exitCode ≠ 0) :
    issues table stdout stderr exitCode =
      requireSome "build" "errors" exitCode (freeForm table (combinedLines stdout stderr)) := by
  refine (Outcome.bind_of_ok h).trans ?_
  simp [hx]

theorem isError_of_mem_freeForm {lines : List (List Char)} {i : Issue} (h : i ∈ freeForm {} lines) :
    i.isError = true := by
  obtain ⟨line, -, rfl⟩ := List.mem_map.mp h
  exact SeverityTable.isError_forBuild_error

end Build

end Output

/-! The checks. -/

/-- The checks that run a command of the project's own. -/
inductive Commanded where
  | typeChecking | linting | building

namespace Commanded

def all : List Commanded := [typeChecking, linting, building]

def check : Commanded → Check
  | typeChecking => Check.TypeChecking.check
  | linting => Check.Linting.check
  | building => Check.Building.check

def tool (t : Tools) : Commanded → ToolCommand
  | typeChecking => t.typeCheck
  | linting => t.lint
  | building => t.build

/-- Whether the command is run at all: there may be no project to compile and no script to run. -/
def isRun (w : Workspace) (root : Path) (t : Tools) : Commanded → Outcome Bool
  | typeChecking => .ok (Check.TypeChecking.hasProject w root t.typeCheck)
  | linting => .ok true
  | building => (Check.Building.lacksScript w root t.build.command).map (!·)

/-- The issues that a parser extracts from the command's output. -/
def parse (table : SeverityTable) (r : ToolResult) : Commanded → Outcome (List Issue)
  | typeChecking => Output.TypeCheck.issues table r.stdout r.stderr
  | linting => Output.Lint.issues table r.stdout r.stderr r.exitCode
  | building => Output.Build.issues table r.stdout r.stderr r.exitCode

def findings (ctx : Context) (r : ToolResult) : Commanded → Outcome Findings
  | typeChecking => Check.TypeChecking.findings ctx r
  | linting => Check.Linting.findings ctx r
  | building => Check.Building.findings ctx r

/-- What a check contributes, given what its command replied. -/
def outcome (k : Commanded) (ctx : Context) (reply : Reply) : Outcome Findings :=
  k.check.settle ctx.config.severity (do k.findings ctx (← reply))

def replyIn (k : Commanded) (t : Tools) (b : Bench) : Reply := b.reply (k.tool t).name

def callIn (k : Commanded) (t : Tools) (b : Bench) : Bench := (b.call ((k.tool t).toCall (k.tool t).timeout)).2

variable {k : Commanded} {ctx : Context} {s : Session}

theorem reports (k : Commanded) : k.check.Reports := by
  cases k with
  | typeChecking => exact Check.TypeChecking.reports
  | linting => exact Check.Linting.reports
  | building => exact Check.Building.reports

theorem runTool_lift_apply (t : ToolCommand) (f : ToolResult → Outcome Findings) (s : Session) :
    (Check.runTool t >>= fun r => Run.lift (f r)) s =
      (do f (← s.bench.reply t.name), { s with bench := (s.bench.call (t.toCall t.timeout)).2 }) := by
  rw [Run.bind_apply, Check.runTool, Run.call_apply, show (t.toCall t.timeout).tool = t.name from rfl]
  cases s.bench.reply t.name <;> simp [bind, Except.bind]

theorem perform_of_isRun (h : k.isRun s.workspace ctx.root ctx.config.tools = .ok true) :
    k.check.perform ctx s =
      (do k.findings ctx (← k.replyIn ctx.config.tools s.bench),
        { s with bench := k.callIn ctx.config.tools s.bench }) := by
  cases k with
  | typeChecking =>
    change (if Check.TypeChecking.hasProject s.workspace ctx.root ctx.config.tools.typeCheck then
      Check.runTool ctx.config.tools.typeCheck >>= fun r => Run.lift (Check.TypeChecking.findings ctx r)
      else pure {}) s = _
    rw [if_pos (Except.ok.inj h)]
    exact runTool_lift_apply ..
  | linting => exact runTool_lift_apply ..
  | building =>
    have hl : Check.Building.lacksScript s.workspace ctx.root ctx.config.tools.build.command = .ok false := by
      cases hl : Check.Building.lacksScript s.workspace ctx.root ctx.config.tools.build.command <;>
        simp_all [isRun, Except.map]
    simp only [check, Check.Building.check, Run.bind_apply, Run.workspace_apply, Run.lift_apply, hl]
    exact runTool_lift_apply ..

theorem run_of_isRun (h : k.isRun s.workspace ctx.root ctx.config.tools = .ok true) :
    k.check.run ctx s =
      (k.outcome ctx (k.replyIn ctx.config.tools s.bench),
        { s with bench := k.callIn ctx.config.tools s.bench }) := by
  rw [k.reports.run_apply, perform_of_isRun h]
  rfl

theorem run_of_not_isRun (h : k.isRun s.workspace ctx.root ctx.config.tools ≠ .ok true) :
    (k.check.run ctx s).2 = s := by
  rw [k.reports.run_apply]
  cases k with
  | typeChecking =>
    have hp : Check.TypeChecking.hasProject s.workspace ctx.root ctx.config.tools.typeCheck = false := by
      simpa [isRun] using h
    simp [check, Check.TypeChecking.check, Run.bind_apply, hp]
  | linting => exact absurd rfl h
  | building =>
    cases hl : Check.Building.lacksScript s.workspace ctx.root ctx.config.tools.build.command with
    | error e => simp [check, Check.Building.check, Run.bind_apply, hl]
    | ok lacks =>
      obtain rfl : lacks = true := by simpa [isRun, hl, Except.map] using h
      simp [check, Check.Building.check, Run.bind_apply, hl]

variable {r : ToolResult} {reply : Reply}

theorem findings_of_parse_error {e : Failure} (h : k.parse ctx.config.severity r = .error e) :
    k.findings ctx r = .error e := by
  cases k <;> exact Outcome.bind_of_error h

theorem findings_of_parse_ok {issues : List Issue} (h : k.parse ctx.config.severity r = .ok issues)
    (hi : issues ≠ []) : k.findings ctx r = .ok { issues := ctx.localized issues } := by
  have hc (tool : String) : Check.requireComplete r tool issues = .ok () := by simp [Check.requireComplete, hi]
  cases k with
  | typeChecking =>
    have hs (tool what : String) : Output.requireSome tool what r.exitCode issues = .ok issues :=
      Output.requireSome_eq_ok_iff.mpr ⟨rfl, fun he => absurd he hi⟩
    simp [findings, Check.TypeChecking.findings, show Output.TypeCheck.issues .. = _ from h, hc, hs, bind, Except.bind]
  | linting =>
    simp [findings, Check.Linting.findings, show Output.Lint.issues .. = _ from h, hc, bind, Except.bind]
  | building =>
    simp [findings, Check.Building.findings, show Output.Build.issues .. = _ from h, hc, bind, Except.bind]

/-- Nothing extracted from a run that failed or was cut off is a failure to parse it. -/
theorem findings_of_parse_nil (h : k.parse ctx.config.severity r = .ok [])
    (hr : r.succeeded = false ∨ r.truncated = true) :
    ∃ detail, k.findings ctx r = .error (.unparsable (k.tool ctx.config.tools).name detail) := by
  cases ht : r.truncated with
  | true =>
    have hc (tool : String) : ∃ detail, Check.requireComplete r tool [] = .error (.unparsable tool detail) := by
      simp [Check.requireComplete, ht]
    obtain ⟨detail, hd⟩ := hc (k.tool ctx.config.tools).name
    refine ⟨detail, ?_⟩
    cases k <;> exact (Outcome.bind_of_ok h).trans (Outcome.bind_of_error hd)
  | false =>
    have hc (tool : String) : Check.requireComplete r tool [] = .ok () := by simp [Check.requireComplete, ht]
    have hx : r.exitCode ≠ 0 := by simpa [ht, ToolResult.succeeded] using hr
    cases k with
    | typeChecking =>
      have hs (tool : String) : ∃ detail,
          Output.requireSome tool "diagnostics" r.exitCode ([] : List Issue) = .error (.unparsable tool detail) := by
        simp [Output.requireSome, hx]
      obtain ⟨detail, hd⟩ := hs ctx.config.tools.typeCheck.name
      exact ⟨detail, (Outcome.bind_of_ok h).trans ((Outcome.bind_of_ok (hc _)).trans (Outcome.bind_of_error hd))⟩
    | linting => exact absurd (Output.Lint.exitCode_eq_zero_of_nil h) hx
    | building => exact absurd (Output.Build.exitCode_eq_zero_of_nil h) hx

/-- The command could not be run, or it failed, or its output was cut off. -/
def Fails (reply : Reply) : Prop :=
  match reply with
  | .ok r => r.succeeded = false ∨ r.truncated = true
  | .error _ => True

/-- No issue can be extracted from the reply of the command. -/
def TellsNothing (k : Commanded) (table : SeverityTable) (reply : Reply) : Prop :=
  match reply with
  | .ok r => ∀ issues, k.parse table r = .ok issues → issues = []
  | .error _ => True

theorem findings_of_tellsNothing (hr : r.succeeded = false ∨ r.truncated = true)
    (hn : k.TellsNothing ctx.config.severity (.ok r)) : ∃ e, k.findings ctx r = .error e := by
  cases hp : k.parse ctx.config.severity r with
  | error e => exact ⟨e, findings_of_parse_error hp⟩
  | ok issues =>
    obtain rfl := hn issues hp
    obtain ⟨detail, hd⟩ := findings_of_parse_nil hp hr
    exact ⟨_, hd⟩

theorem settled_findings (r : ToolResult) : Settled (k.findings ctx r) := by
  cases k with
  | typeChecking => exact Check.TypeChecking.settled_findings ctx r
  | linting => exact Check.Linting.settled_findings ctx r
  | building => exact Check.Building.settled_findings ctx r

theorem outcome_of_error {e : Failure} (h : (do k.findings ctx (← reply)) = .error e) (he : e.endsRun = false) :
    k.outcome ctx reply =
      .ok (k.check.reported e (Check.failureCode e) (Check.failureSeverity ctx.config.severity e)) := by
  have ho : k.check.isOptional = false := by cases k <;> rfl
  simp [outcome, h, Check.settle, he, ho]

theorem outcome_of_parse_ok {issues : List Issue} (h : k.parse ctx.config.severity r = .ok issues)
    (hi : issues ≠ []) :
    k.outcome ctx (.ok r) = .ok (Findings.deduplicated { issues := ctx.localized issues }) :=
  congrArg (k.check.settle _) (findings_of_parse_ok h hi)

/-- A command that fails leaves an issue behind, and one that names its check where it tells nothing. -/
theorem outcome_of_fails (hf : Fails reply) (hs : Settled reply) :
    ∃ f, k.outcome ctx reply = .ok f ∧ f.issues ≠ [] ∧
      (k.TellsNothing ctx.config.severity reply → ∃ e, (do k.findings ctx (← reply)) = .error e ∧
        f = k.check.reported e (Check.failureCode e) (Check.failureSeverity ctx.config.severity e)) := by
  cases hk : (do k.findings ctx (← reply) : Outcome Findings) with
  | error e =>
    have he : e.endsRun = false := (hs.bind fun r => settled_findings r) e hk
    exact ⟨_, outcome_of_error hk he, by simp [Check.reported], fun _ => ⟨e, rfl, rfl⟩⟩
  | ok f =>
    obtain ⟨r, rfl, hr⟩ := Outcome.bind_eq_ok hk
    have hn : ¬ k.TellsNothing ctx.config.severity (.ok r) := fun hn => by
      obtain ⟨e, he⟩ := findings_of_tellsNothing hf hn
      cases he.symm.trans hr
    obtain ⟨issues, hp, hi⟩ : ∃ issues, k.parse ctx.config.severity r = .ok issues ∧ issues ≠ [] := by
      simpa [TellsNothing] using hn
    refine ⟨_, outcome_of_parse_ok hp hi, ?_, fun h => absurd h hn⟩
    obtain ⟨i, is, rfl⟩ := List.exists_cons_of_ne_nil hi
    simp [Findings.deduplicated, Context.localized, Findings.firstOfEach]

/-- Where a failing command tells nothing, its check reports the failure as an error and nothing else. -/
theorem outcome_of_tellsNothing (ctx : Context) (hf : Fails reply) (hs : Settled reply)
    (hn : k.TellsNothing ctx.config.severity reply)
    (hu : ctx.config.severity.toolUnavailable.isError = true)
    (hp : ctx.config.severity.unparsedFailure.isError = true) :
    ∃ f e i, k.outcome ctx reply = .ok f ∧ (∀ e', reply = .error e' → e = e') ∧ f.issues = [i] ∧
      i.isError = true ∧ i.source = k.check.source ∧
      i.message = "Could not check " ++ k.check.name ++ ": " ++ e.message := by
  obtain ⟨f, ho, -, h⟩ := outcome_of_fails hf hs
  obtain ⟨e, he, rfl⟩ := h hn
  have hsev : (Check.failureSeverity ctx.config.severity e).isError = true := by
    cases e <;> first | exact hu | exact hp
  refine ⟨_, e, _, ho, ?_, rfl, hsev, rfl, rfl⟩
  rintro e' rfl
  exact (Except.error.inj he).symm

end Commanded

end QualityGate
