import Mathlib
import QualityGate.Proofs.Policy.DecisionTable

/-! Which builds the quick count lets through. A category whose tool failed
without a replacement is noticed as long as nothing is counted anywhere; under
advisory protection a warning of the other category covers it. -/

namespace QualityGate.Count

/-- The tool of a category ran and was read, and counted something or ended well with all its output;
or it was missing or too slow and the editor's diagnostics stood in. -/
def ReallyChecked (read : ToolResult → Outcome Category) (reply : Reply)
    (editor : Option (Outcome (List EditorDiagnostic))) : Prop :=
  match reply with
  | .ok r => ∃ c, read r = .ok c ∧ (0 < c.errors + c.warnings ∨ r.exitCode = 0 ∧ r.truncated = false)
  | .error (.toolUnavailable ..) | .error (.toolTimeout ..) => ∃ ds, editor = some (.ok ds)
  | .error _ => False

def TypeChecked (root : Path) (config : Config) (editor : Option Provider) (s : Session) : Prop :=
  let tool := config.tools.typeCheck
  Check.TypeChecking.hasProject s.workspace root tool = false ∨
    ReallyChecked (Category.ofTypeCheck tool.name) (s.bench.reply tool.name) (editor.map (Provider.all s.workspace))

def Linted (config : Config) (editor : Option Provider) (s : Session) : Prop :=
  let tool := config.tools.lint
  ReallyChecked (Category.ofLint tool.name) (s.bench.reply tool.name) (editor.map (Provider.all s.workspace))

/-- Of a tool that ran, a category is unreliable if the tool failed or was cut off and counted nothing. -/
def ReadsTool (read : ToolResult → Outcome Category) : Prop :=
  ∀ r c, read r = .ok c →
    c.isUnreliable = ((!r.succeeded || r.truncated) && c.errors + c.warnings == 0)

theorem ofTypeCheck_readsTool (tool : String) : ReadsTool (Category.ofTypeCheck tool) := by
  intro r c h
  cases h
  simp [Category.isUnreliable]

theorem ofLint_readsTool (tool : String) : ReadsTool (Category.ofLint tool) := by
  intro r c h
  cases hc : Output.Lint.counts r.stdout r.stderr with
  | error e => simp [Category.ofLint, hc, bind, Except.bind] at h
  | ok counts =>
    simp only [Category.ofLint, hc, bind, Except.bind, Except.ok.injEq] at h
    subst h
    simp [Category.isUnreliable]

section

variable {tool : String} {source : Source} {read : String → ToolResult → Outcome Category} {reply : Reply}
  {editor : Option (Outcome (List EditorDiagnostic))} {c : Category} {e : Failure}

theorem standIn_eq_ok (h : Category.standIn tool source editor = .ok c) :
    (c.isUnreliable = false ↔ ∃ ds, editor = some (.ok ds)) ∧
      (c.isUnreliable = true → c.errors = 0 ∧ c.warnings = 0) := by
  match editor with
  | none => cases h; simp [Category.isUnreliable]
  | some (.ok ds) => cases h; simp [Category.isUnreliable, Category.ofEditor]
  | some (.error e) =>
    simp only [Category.standIn] at h
    split at h
    · cases h; simp [Category.isUnreliable]
    · cases h

theorem ofReply_eq_ok (hr : ReadsTool (read tool)) (h : Category.ofReply tool source read reply editor = .ok c) :
    (c.isUnreliable = false ↔ ReallyChecked (read tool) reply editor) ∧
      (c.isUnreliable = true → c.errors = 0 ∧ c.warnings = 0) := by
  match reply with
  | .ok r =>
    have hc := hr r c h
    have he : ReallyChecked (read tool) (.ok r) editor ↔
        0 < c.errors + c.warnings ∨ r.exitCode = 0 ∧ r.truncated = false := by
      simp only [ReallyChecked, show read tool r = .ok c from h, Except.ok.injEq, exists_eq_left']
    rw [he, hc]
    constructor
    · cases ht : r.truncated <;> simp [ToolResult.succeeded] <;> grind
    · simp only [Bool.and_eq_true, beq_iff_eq]
      omega
  | .error (.toolUnavailable ..) => exact standIn_eq_ok h
  | .error (.toolTimeout ..) => exact standIn_eq_ok h

/-- A category that could not be counted was not checked either. -/
theorem not_reallyChecked_of_error (h : Category.ofReply tool source read reply editor = .error e) :
    ¬ ReallyChecked (read tool) reply editor := by
  intro hc
  match reply with
  | .ok r =>
    obtain ⟨c, hr, -⟩ := hc
    cases hr.symm.trans h
  | .error (.toolUnavailable ..) =>
    obtain ⟨ds, rfl⟩ := hc
    cases h
  | .error (.toolTimeout ..) =>
    obtain ⟨ds, rfl⟩ := hc
    cases h

end

section

variable {root : Path} {config : Config} {editor : Option Provider} {s : Session} {c : Category} {e : Failure}

theorem typeCheckOutcome_eq_ok (h : typeCheckOutcome root config editor s = .ok c) :
    (c.isUnreliable = false ↔ TypeChecked root config editor s) ∧
      (c.isUnreliable = true → c.errors = 0 ∧ c.warnings = 0) := by
  cases hp : Check.TypeChecking.hasProject s.workspace root config.tools.typeCheck
  · simp only [typeCheckOutcome, hp, Bool.false_eq_true, if_false, Except.ok.injEq] at h
    subst h
    simp [TypeChecked, hp, Category.isUnreliable]
  · simp only [typeCheckOutcome, hp, if_true] at h
    simpa [TypeChecked, hp] using ofReply_eq_ok (ofTypeCheck_readsTool _) h

theorem lintOutcome_eq_ok (h : lintOutcome config editor s = .ok c) :
    (c.isUnreliable = false ↔ Linted config editor s) ∧
      (c.isUnreliable = true → c.errors = 0 ∧ c.warnings = 0) :=
  ofReply_eq_ok (ofLint_readsTool _) h

theorem not_typeChecked_of_error (h : typeCheckOutcome root config editor s = .error e) :
    ¬ TypeChecked root config editor s := by
  cases hp : Check.TypeChecking.hasProject s.workspace root config.tools.typeCheck
  · simp [typeCheckOutcome, hp] at h
  · simp only [typeCheckOutcome, hp, if_true] at h
    simpa [TypeChecked, hp] using not_reallyChecked_of_error h

theorem not_linted_of_error (h : lintOutcome config editor s = .error e) : ¬ Linted config editor s :=
  not_reallyChecked_of_error h

theorem run_eq_error (h : (run root config editor s).1 = .error e) :
    ¬ (TypeChecked root config editor s ∧ Linted config editor (afterTypeCheck root config s)) := by
  rintro ⟨ht, hl⟩
  cases hto : typeCheckOutcome root config editor s with
  | error f => exact not_typeChecked_of_error hto ht
  | ok typeCheck =>
    cases hlo : lintOutcome config editor (afterTypeCheck root config s) with
    | error f => exact not_linted_of_error hlo hl
    | ok lint => simp [run_of_ok hto hlo] at h

end

/-- Counts are accepted where both categories can be relied on, or where warnings of one cover the other. -/
theorem acceptsCount_merge_iff (state : PolicyState) {typeCheck lint : Category}
    (ht : typeCheck.isUnreliable = true → typeCheck.errors = 0 ∧ typeCheck.warnings = 0)
    (hl : lint.isUnreliable = true → lint.errors = 0 ∧ lint.warnings = 0) :
    state.AcceptsCount (merge typeCheck lint) ↔
      (merge typeCheck lint).errors = 0 ∧ (state.level = .zeroTolerance → (merge typeCheck lint).warnings = 0) ∧
        (typeCheck.isUnreliable = false ∧ lint.isUnreliable = false ∨
          state.level = .advisory ∧ (typeCheck.isUnreliable = false ∨ lint.isUnreliable = false) ∧
            0 < (merge typeCheck lint).warnings) := by
  -- The zero is suspicious by the total of both categories, each of which is unreliable by itself.
  have hz : (merge typeCheck lint).suspiciousZero = false ↔
      (typeCheck.isUnreliable = false ∧ lint.isUnreliable = false) ∨
        0 < typeCheck.errors + typeCheck.warnings + (lint.errors + lint.warnings) := by
    cases h : typeCheck.isUnreliable <;> cases h' : lint.isUnreliable <;> simp [merge, h, h'] <;> omega
  have he : (merge typeCheck lint).errors = typeCheck.errors + lint.errors := rfl
  have hw : (merge typeCheck lint).warnings = typeCheck.warnings + lint.warnings := rfl
  rw [PolicyState.AcceptsCount, hz, he, hw]
  cases h : typeCheck.isUnreliable <;> cases h' : lint.isUnreliable <;> cases hv : state.level <;>
    simp only [h, h', true_implies, reduceCtorEq, false_implies] at ht hl ⊢ <;> simp <;> omega

section

variable {root : Path} {config : Config} {editor : Option Provider} {state : PolicyState} {r : Request}
  {s s' : Session} {d : Decision}

theorem build_decision_of_ok {typeCheck lint : Category} (he : state.enabled = true) (hr : r.trigger = .build)
    (ht : typeCheckOutcome root config editor s = .ok typeCheck)
    (hl : lintOutcome config editor (afterTypeCheck root config s) = .ok lint) :
    ∃ d s', (Protection.standard root config editor).decide state r s = (.ok d, s') ∧
      d.errors = (merge typeCheck lint).errors ∧ d.warnings = (merge typeCheck lint).warnings ∧
      (d.allowed = true ↔ state.AcceptsCount (merge typeCheck lint)) := by
  have ho := run_of_ok ht hl
  obtain ⟨allowed, reason, hv, ha⟩ := state.buildVerdict_ok ⟨root, config, editor, s, ho⟩
  have hd := Protection.decide_build (p := Protection.standard root config editor) he hr (s := s)
  exact ⟨_, _, hd.trans (congrArg (·, _) ((congrArg state.buildVerdict ho).trans hv)), rfl, rfl, ha⟩

/-- A decision on a build is taken on what the categories gave, or on nothing where one of them failed. -/
theorem build_decision_cases (he : state.enabled = true) (hr : r.trigger = .build)
    (hd : (Protection.standard root config editor).decide state r s = (.ok d, s')) :
    (∃ typeCheck lint, typeCheckOutcome root config editor s = .ok typeCheck ∧
      lintOutcome config editor (afterTypeCheck root config s) = .ok lint ∧
      d.errors = (merge typeCheck lint).errors ∧ d.warnings = (merge typeCheck lint).warnings ∧
      (d.allowed = true ↔ state.AcceptsCount (merge typeCheck lint))) ∨
    (∃ e, (run root config editor s).1 = .error e) ∧ d.allowed = false ∧ d.warnings = 0 := by
  cases ho : (run root config editor s).1 with
  | error e =>
    rw [Protection.decide_build he hr, Prod.mk.injEq] at hd
    change state.buildVerdict (run root config editor s).1 = .ok d ∧ _ at hd
    simp only [ho, PolicyState.buildVerdict] at hd
    split at hd
    · cases hd.1
    · obtain ⟨rfl, -⟩ : _ = d ∧ _ := by simpa using hd
      exact .inr ⟨⟨e, rfl⟩, rfl, rfl⟩
  | ok c =>
    obtain ⟨typeCheck, lint, ht, hl, rfl⟩ := run_eq_ok_iff.mp ho
    obtain ⟨d₀, s₀, hd₀, hde, hdw, ha⟩ := build_decision_of_ok he hr ht hl
    cases hd₀.symm.trans hd
    exact .inl ⟨typeCheck, lint, ht, hl, hde, hdw, ha⟩

theorem build_allowed_iff (he : state.enabled = true) (hr : r.trigger = .build)
    (hd : (Protection.standard root config editor).decide state r s = (.ok d, s')) :
    d.allowed = true ↔ d.errors = 0 ∧ (state.level = .zeroTolerance → d.warnings = 0) ∧
      (TypeChecked root config editor s ∧ Linted config editor (afterTypeCheck root config s) ∨
        state.level = .advisory ∧
          (TypeChecked root config editor s ∨ Linted config editor (afterTypeCheck root config s)) ∧
          0 < d.warnings) := by
  rcases build_decision_cases he hr hd with ⟨typeCheck, lint, ht, hl, hde, hdw, ha⟩ | ⟨⟨e, ho⟩, ha, hw⟩
  · have ht := typeCheckOutcome_eq_ok ht
    have hl := lintOutcome_eq_ok hl
    rw [ha, acceptsCount_merge_iff state ht.2 hl.2, hde, hdw, ht.1, hl.1]
  · simp [ha, hw, run_eq_error ho]

end

/-! A compiler that fails without a word, no linter, and an editor that may have seen a lint warning. -/

section

def silentCompiler : Session where
  workspace := { root := { root := "/" }, entries := [(["tsconfig.json"], .file ⟨#[]⟩ false)] }
  bench := { replies := [("tsc", [.ok { exitCode := 2 }])] }
  now := { year := 2024, month := 1, day := 2 }

def lintWarning : EditorDiagnostic := { file := "a.ts", severity := .warning, source := "lint" }

def editorOf (ds : List EditorDiagnostic) : Option Provider := some (.host none fun _ => .ok ds)

variable (editor : Option Provider) (ds : List EditorDiagnostic)

theorem silentCompiler_typeCheck :
    typeCheckOutcome { root := "/" } {} editor silentCompiler =
      .ok { tool := "tsc", origin := .tool, exitFailed := true } := by
  cbv

theorem silentCompiler_lint :
    lintOutcome {} (editorOf ds) (afterTypeCheck { root := "/" } {} silentCompiler) =
      .ok (Category.ofEditor "eslint" .lint ds) := by
  rw [lintOutcome_afterTypeCheck (by decide)]
  cbv

theorem silentCompiler_not_typeChecked : ¬ TypeChecked { root := "/" } {} editor silentCompiler := by
  simp [← (typeCheckOutcome_eq_ok (silentCompiler_typeCheck editor)).1, Category.isUnreliable]

theorem ofEditor_lintWarning :
    Category.ofEditor "eslint" .lint [lintWarning] =
      { tool := "eslint", warnings := 1, origin := .editor, toolFailed := true } := by
  have hc : lintWarning.category = .lint := by decide +kernel
  simp only [Category.ofEditor, List.filter, hc]
  rfl

/-- Under advisory protection the lint warning turns the denial into a permission. -/
theorem build_decision_silentCompiler (state : PolicyState) (r : Request) (he : state.enabled = true)
    (hr : r.trigger = .build) (hl : state.level = .advisory) :
    (∃ d s', (Protection.standard { root := "/" } {} (editorOf [])).decide state r silentCompiler = (.ok d, s') ∧
      d.allowed = false) ∧
    (∃ d s', (Protection.standard { root := "/" } {} (editorOf [lintWarning])).decide state r silentCompiler =
      (.ok d, s') ∧ d.allowed = true) := by
  constructor
  · obtain ⟨d, s', hd, -, -, ha⟩ :=
      build_decision_of_ok he hr (silentCompiler_typeCheck _) (silentCompiler_lint [])
    refine ⟨d, s', hd, Bool.eq_false_iff.mpr fun hyes => ?_⟩
    simpa [merge, Category.ofEditor, Category.isUnreliable] using (ha.mp hyes).1
  · obtain ⟨d, s', hd, -, -, ha⟩ :=
      build_decision_of_ok he hr (silentCompiler_typeCheck _) (silentCompiler_lint [lintWarning])
    refine ⟨d, s', hd, ha.mpr ?_⟩
    simp [PolicyState.AcceptsCount, ofEditor_lintWarning, merge, ErrorCount.errors, hl]

end

end QualityGate.Count
