import QualityGate.Output.Build
import QualityGate.Output.Lint
import QualityGate.Output.Vulnerability
import QualityGate.Proofs.Outcome
import QualityGate.Report.Audit

/-! Reading the output of a tool never stops the run, whatever the output is. No check stops it, and neither does an
audit, unless the reply of a tool is that the user stops it. -/

namespace QualityGate

/-! The output of tools. -/

theorem Failure.ofJson_endsRun (f : Json.LocatedFault) : (Failure.ofJson f).endsRun = false := by
  unfold Failure.ofJson
  split <;> rfl

theorem settled_wholeNumber (base : Nat) (cs : List Char) : Settled (Failure.wholeNumber base cs) := by
  refine .mapError fun x => ?_
  cases x <;> rfl

namespace Json

theorem settled_wholeNumber (v : Json) : Settled v.wholeNumber := by
  cases v with
  | str s => exact QualityGate.settled_wholeNumber 10 s.toList
  | float x =>
    simp only [wholeNumber]
    repeat' split
    all_goals simp [Failure.endsRun]
  | _ => simp [wholeNumber, Failure.endsRun]

theorem settled_numberField (v : Json) (name : String) : Settled (v.numberField name) := by
  unfold numberField
  split
  · exact settled_wholeNumber _
  · exact .ok 0

theorem settled_payload (stdout stderr : List Char) :
    Settled ((payload? stdout stderr).mapError Failure.ofJson) :=
  .mapError Failure.ofJson_endsRun

end Json

namespace Output

theorem settled_numberOf (m : Text.Found) (name : String) : Settled (numberOf m name) := by
  unfold numberOf
  split
  · exact .ok 0
  · exact .map _ (settled_wholeNumber 10 _)

/-- An issue at the position that a match captured. -/
theorem settled_positioned {α : Type} (m : Text.Found) (f : Nat → Nat → α) :
    Settled (do .ok (f (← numberOf m "line") (← numberOf m "col")) : Outcome α) :=
  (settled_numberOf m "line").bind fun _ => (settled_numberOf m "col").bind fun _ => .ok _

theorem settled_requireSome {α : Type} (tool what : String) (exitCode : Int) (found : List α) :
    Settled (requireSome tool what exitCode found) := by
  unfold requireSome
  split
  · exact (Settled.error_iff _).mpr rfl
  · exact .ok _

variable (table : SeverityTable) (stdout stderr : String)

theorem TypeCheck.settled_issues : Settled (issues table stdout stderr) :=
  .mapM (fun (m, _) => settled_positioned m _) _

namespace Build

theorem settled_positional (lines : List (List Char)) : Settled (positional table lines) :=
  .mapM (fun (m, _) => settled_positioned m _) _

theorem settled_issues (exitCode : Int) : Settled (issues table stdout stderr exitCode) :=
  (settled_positional table _).bind fun _ => settled_requireSome _ _ _ _

end Build

namespace Lint

theorem settled_levelOf (message : Json) : Settled (levelOf message) := by
  unfold levelOf
  split
  · exact .ok _
  · exact message.settled_numberField _

theorem settled_messageIssue (file : String) (message : Json) : Settled (messageIssue table file message) :=
  (settled_levelOf message).bind fun _ => (message.settled_numberField _).bind fun _ =>
    (message.settled_numberField _).bind fun _ => .bind (.mapError fun _ => rfl) fun _ => .ok _

theorem settled_jsonIssues (payload : Json) : Settled (jsonIssues table payload) := by
  unfold jsonIssues
  split
  · exact (Settled.error_iff _).mpr rfl
  · exact .bind (.mapM (fun (entry, messages) => .mapM (settled_messageIssue table _) _) _) fun _ => .ok _

theorem settled_issuesOfText (exitCode : Int) : Settled (issuesOfText table stdout stderr exitCode) := by
  refine .bind (.bind ?_ fun _ => .ok _) fun _ => settled_requireSome _ _ _ _
  exact .mapM (fun (_, m) => settled_positioned m _) _

theorem settled_issues (exitCode : Int) : Settled (issues table stdout stderr exitCode) := by
  have ht := settled_issuesOfText table stdout stderr exitCode
  refine (Json.settled_payload _ _).bind fun payload? => ?_
  split
  · exact ht
  · next payload =>
    have hj := settled_jsonIssues table payload
    split
    · exact ht
    · next e _ he => exact (Settled.error_iff e).mpr (hj e he)
    · split
      · exact .ok _
      · exact ht

end Lint

namespace Vulnerability

theorem settled_itemsOf (v : Json) : Settled (itemsOf v) := by
  cases v <;> simp [itemsOf, Failure.endsRun]

theorem settled_packageIssue (manifest name : String) (entry : Json) :
    Settled (packageIssue table manifest name entry) := by
  refine .bind (.bind (settled_itemsOf _) fun via => ?_) fun _ => .ok _
  split <;> exact .ok _

theorem settled_issues (manifest : String) (payload : Json) : Settled (issues table manifest payload) := by
  unfold issues
  split
  · split
    · exact (Settled.error_iff _).mpr rfl
    · exact .mapM (fun (name, entry) => settled_packageIssue table manifest name entry) _
    · exact .ok _
    · split
      · exact .ok _
      · exact (Settled.error_iff _).mpr rfl
  · exact (Settled.error_iff _).mpr rfl

end Vulnerability

end Output

/-! Files and checks. -/

namespace Workspace

variable (w : Workspace) (p : Path)

theorem settled_readMarkedText : Settled (w.readMarkedText p) := by
  refine .bind ?_ fun data => .bind (.mapError fun _ => rfl) fun _ => .ok _
  unfold readBytes
  split
  · exact .ok _
  · exact (Settled.error_iff _).mpr rfl
  · exact (Settled.error_iff _).mpr rfl

/-- A path that cannot be resolved is one of links that lead back to themselves. -/
theorem resolve_go_cases (links : Nat) (dir path : List String) :
    (∃ q, resolve.go w links dir path = .ok q) ∨ ∃ detail, resolve.go w links dir path = .error (.runtime detail) := by
  fun_induction resolve.go w links dir path with
  | case1 => exact .inl ⟨_, rfl⟩
  | case2 _ _ _ ih => exact ih
  | case3 => exact .inr ⟨_, rfl⟩
  | case4 _ _ _ _ _ _ _ _ ih => exact ih
  | case5 _ _ _ _ _ _ ih => exact ih

theorem settled_resolve_go (links : Nat) (dir path : List String) : Settled (resolve.go w links dir path) := by
  rcases w.resolve_go_cases links dir path with ⟨q, hq⟩ | ⟨detail, he⟩
  · rw [hq]
    exact .ok q
  · rw [he]
    exact (Settled.error_iff _).mpr rfl

end Workspace

theorem Glob.settled_compile (pattern : String) : Settled (compile pattern) := by
  unfold compile
  repeat' split
  all_goals simp [Failure.endsRun]

theorem Discovery.settled_files (w : Workspace) (root : Path) (s : FileSelection) : Settled (files w root s) := by
  have hc (patterns : List String) : Settled (Glob.compileAll patterns) := .mapM Glob.settled_compile _
  refine .bind ((hc _).bind fun _ => (hc _).bind fun _ => .ok _) fun f => ?_
  split
  · exact .ok _
  · exact .ok _

namespace CompilerOptions

variable (w : Workspace)

theorem settled_nameOf (v : Json) : Settled (nameOf v) := by
  cases v <;> simp [nameOf, Failure.endsRun]

theorem settled_pairOf (index : Nat) (v : Json) : Settled (pairOf index v) := by
  unfold pairOf
  dsimp only
  split
  · exact (Settled.error_iff _).mpr rfl
  · exact (settled_nameOf _).bind fun _ => .ok _
  · exact (Settled.error_iff _).mpr rfl

theorem settled_pairsFrom (index : Nat) (vs : List Json) : Settled (pairsFrom index vs) := by
  induction vs generalizing index with
  | nil => exact .ok _
  | cons v vs ih => exact (settled_pairOf index v).bind fun _ => (ih _).bind fun _ => .ok _

theorem settled_own (fields : Json.Fields) : Settled (own fields) := by
  unfold own
  split
  · exact .ok _
  · exact .ok _
  · exact (settled_pairsFrom 0 _).bind fun _ => .ok _
  · exact (settled_pairsFrom 0 _).bind fun _ => .ok _
  · exact (Settled.error_iff _).mpr rfl

theorem settled_withSuffix (q : Path) : Settled (withSuffix q) := by
  unfold withSuffix
  repeat' split
  all_goals simp [Failure.endsRun]

theorem settled_baseFile (p : Path) (base : String) : Settled (baseFile w p base) := by
  unfold baseFile
  split
  · exact (Settled.error_iff _).mpr rfl
  · refine .bind (w.settled_resolve_go _ _ _) fun q => .bind (settled_withSuffix q) fun q => ?_
    split
    · exact (Settled.error_iff _).mpr rfl
    · exact .ok _

theorem settled_load (p : Path) : Settled (load w p) := by
  unfold load
  dsimp only
  split
  · exact (Settled.error_iff _).mpr rfl
  · split
    · split
      · exact (Settled.error_iff _).mpr (Failure.ofJson_endsRun _)
      · exact (Settled.error_iff _).mpr rfl
    · exact .ok _
    · exact (Settled.error_iff _).mpr rfl

/-- What becomes of a file that cannot be loaded. -/
theorem settled_unlessInvalid {α : Type} {p : Path} {e : Failure} (h : load w p = .error e) (a : α) :
    Settled (if isInvalid e then .ok a else .error e) := by
  split
  · exact .ok a
  · exact (Settled.error_iff e).mpr (settled_load w p e h)

theorem settled_resolve (links : Nat) (p : Path) (fields : Json.Fields) : Settled (resolve w links p fields) := by
  induction links generalizing p fields with
  | zero =>
    rw [resolve]
    refine (settled_own fields).bind fun options => ?_
    cases relativeBase? fields <;> exact .ok _
  | succ links ih =>
    rw [resolve]
    refine (settled_own fields).bind fun options => ?_
    cases relativeBase? fields with
    | none => exact .ok _
    | some base =>
      refine (settled_baseFile w p base).bind fun q => ?_
      split
      · next h => exact settled_unlessInvalid w h options
      · exact (ih q _).bind fun _ => .ok _

end CompilerOptions

/-- Whatever goes wrong in the check, short of the user stopping it, is reported. -/
structure Check.Reports (c : Check) : Prop where
  escapes : c.escapes = false
  perform : ∀ ctx, Run.Settled (c.perform ctx)

namespace Check

theorem Reports.run_apply {c : Check} (hc : c.Reports) (ctx : Context) (s : Session) :
    c.run ctx s = (c.settle ctx.config.severity (c.perform ctx s).1, (c.perform ctx s).2) := by
  simp [run, hc.escapes, Run.bind_apply]

/-- As long as no tool is interrupted, running a check gives findings. -/
theorem Reports.run_eq_ok {c : Check} (hc : c.Reports) (ctx : Context) {s : Session} (hs : s.bench.Calm) :
    ∃ f, (c.run ctx s).1 = .ok f ∧ (c.run ctx s).2.bench.Calm := by
  obtain ⟨ho, hb⟩ := hc.perform ctx s hs
  rw [hc.run_apply]
  cases hp : (c.perform ctx s).1 with
  | ok f => exact ⟨_, rfl, hb⟩
  | error e =>
    rw [hp] at ho
    simp only [settle, ho e rfl, Bool.false_eq_true, if_false]
    split
    · exact ⟨_, rfl, hb⟩
    · exact ⟨_, rfl, hb⟩

theorem endsRun_of_settle {c : Check} {t : SeverityTable} {went : Outcome Findings} {e : Failure}
    (h : c.settle t went = .error e) : e.endsRun = true := by
  cases went with
  | ok f => cases h
  | error e' =>
    simp only [settle] at h
    split at h
    · next he => exact Except.error.inj h ▸ he
    · split at h <;> cases h

theorem settled_requireComplete (r : ToolResult) (tool : String) (issues : List Issue) :
    Settled (requireComplete r tool issues) := by
  unfold requireComplete
  split
  · exact (Settled.error_iff _).mpr rfl
  · exact .ok _

theorem settled_runTool (t : ToolCommand) : Run.Settled (runTool t) := .call _

variable (ctx : Context)

theorem TypeChecking.settled_findings (r : ToolResult) : Settled (findings ctx r) :=
  (Output.TypeCheck.settled_issues _ _ _).bind fun _ => (settled_requireComplete _ _ _).bind fun _ =>
    (Output.settled_requireSome _ _ _ _).bind fun _ => .ok _

theorem TypeChecking.reports : check.Reports where
  escapes := rfl
  perform ctx := by
    refine Run.Settled.workspace.bind fun w => ?_
    split
    · exact (settled_runTool _).bind fun r => .lift (settled_findings ctx r)
    · exact .pure _

theorem Linting.settled_findings (r : ToolResult) : Settled (findings ctx r) :=
  (Output.Lint.settled_issues _ _ _ _).bind fun _ => (settled_requireComplete _ _ _).bind fun _ => .ok _

theorem Linting.reports : check.Reports where
  escapes := rfl
  perform ctx := (settled_runTool _).bind fun r => .lift (settled_findings ctx r)

theorem Building.settled_hasScript (w : Workspace) (root : Path) (script : String) :
    Settled (hasScript w root script) := by
  unfold hasScript
  dsimp only
  split
  · exact .ok _
  · split
    · next e he =>
      split
      · exact .ok _
      · exact (Settled.error_iff e).mpr (w.settled_readMarkedText _ e he)
    · repeat' split
      all_goals simp [Failure.ofJson_endsRun]

theorem Building.settled_lacksScript (w : Workspace) (root : Path) (command : List String) :
    Settled (lacksScript w root command) := by
  unfold lacksScript
  split
  · exact .map _ (settled_hasScript _ _ _)
  · exact .ok _

theorem Building.settled_findings (r : ToolResult) : Settled (findings ctx r) :=
  (Output.Build.settled_issues _ _ _ _).bind fun _ => (settled_requireComplete _ _ _).bind fun _ => .ok _

theorem Building.reports : check.Reports where
  escapes := rfl
  perform ctx := by
    refine Run.Settled.workspace.bind fun w => (Run.Settled.lift (settled_lacksScript _ _ _)).bind fun lacks => ?_
    split
    · exact .pure _
    · exact (settled_runTool _).bind fun r => .lift (settled_findings ctx r)

theorem WellFormed.settled_issue? (w : Workspace) (p : Path) : Settled (issue? ctx w p) := by
  have hl : Settled (loadJson w p) := (w.settled_readMarkedText p).bind fun _ => .mapError Failure.ofJson_endsRun
  have hj (file : String) : Settled (jsonIssue? ctx w p file) := by
    unfold jsonIssue?
    split
    · exact .ok _
    · exact .ok _
    · next e _ he =>
      split
      · exact .ok _
      · exact (Settled.error_iff e).mpr (hl e he)
  unfold issue?
  dsimp only
  split
  · exact .ok _
  · split
    · exact hj _
    · split
      · exact .ok _
      · exact .ok _

theorem WellFormed.reports : check.Reports where
  escapes := rfl
  perform ctx := Run.Settled.workspace.bind fun w => .lift (.bind (.mapM (settled_issue? ctx w) _) fun _ => .ok _)

theorem Directives.reports : check.Reports where
  escapes := rfl
  perform _ := Run.Settled.workspace.bind fun _ => .pure _

theorem Dependencies.settled_findings (r : ToolResult) : Settled (findings ctx r) := by
  refine (Json.settled_payload _ _).bind fun payload? => ?_
  split
  · exact (Settled.error_iff _).mpr rfl
  · exact (Settled.error_iff _).mpr rfl
  · exact (Output.Vulnerability.settled_issues _ _ _).bind fun _ =>
      (settled_requireComplete _ _ _).bind fun _ => .ok _

theorem Dependencies.reports : check.Reports where
  escapes := rfl
  perform ctx := by
    refine Run.Settled.workspace.bind fun w => ?_
    split
    · exact (settled_runTool _).bind fun r => .lift (settled_findings ctx r)
    · exact .pure _

theorem Configuration.settled_compilerIssues (w : Workspace) : Settled (compilerIssues ctx w) := by
  unfold compilerIssues
  dsimp only
  split
  · exact .ok _
  · split
    · next h => exact CompilerOptions.settled_unlessInvalid w h _
    · exact (CompilerOptions.settled_resolve w _ _ _).bind fun _ => .ok _

theorem Configuration.settled_linterIssues (w : Workspace) (name : String) : Settled (linterIssues ctx w name) := by
  unfold linterIssues
  dsimp only
  split
  · exact .ok _
  · split
    · next h => exact CompilerOptions.settled_unlessInvalid w h _
    · exact .ok _

theorem Configuration.reports : check.Reports where
  escapes := rfl
  perform ctx := Run.Settled.workspace.bind fun w =>
    .lift ((settled_compilerIssues ctx w).bind fun _ => (Settled.mapM (settled_linterIssues ctx w) _).bind fun _ => .ok _)

theorem reports_all : ∀ c ∈ all, c.Reports := by
  simp [all, TypeChecking.reports, Linting.reports, Building.reports, WellFormed.reports, Directives.reports,
    Dependencies.reports, Configuration.reports]

end Check

end QualityGate
