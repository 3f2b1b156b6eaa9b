import Mathlib
import QualityGate.Proofs.Count.Outcome
import QualityGate.Proofs.Output.Bounds

/-! When a count of zero is suspicious, which tools are named as failed and what is
published. A count is missing only where the linter's output is out of bounds. -/

namespace QualityGate.Count

/-- A tool ran, was missing or was too slow. -/
inductive Answered : Reply → Prop
  | ran (r : ToolResult) : Answered (.ok r)
  | missing (tool detail : String) : Answered (.error (.toolUnavailable tool detail))
  | slow (tool : String) (seconds : Float) : Answered (.error (.toolTimeout tool seconds))

/-- The editor is absent, gives its diagnostics or fails with a failure that the gate itself reports. -/
def EditorAnswered (editor : Option (Outcome (List EditorDiagnostic))) : Prop :=
  ∀ e, editor = some (.error e) → e.isGateFailure = true

/-- A tool that was asked failed or was cut off, or could not run and the editor did not stand in for it. -/
def NotToBeReliedOn (asked : Option Reply) (editor : Option (Outcome (List EditorDiagnostic))) : Prop :=
  match asked with
  | none => False
  | some (.ok r) => r.exitCode ≠ 0 ∨ r.truncated = true
  | some (.error _) => ∀ ds, editor ≠ some (.ok ds)

/-- A tool that was asked could not run, or failed or was cut off while it counted nothing. -/
def namedAsFailed (asked : Option Reply) (counted : Int) : Bool :=
  match asked with
  | none => false
  | some (.ok r) => (r.exitCode != 0 || r.truncated) && counted == 0
  | some (.error _) => true

/-- The numbers of a category: what its tool's output counts, or what the editor knows of where that stood
in for the tool. -/
def Counted (source : Source) (counts : ToolResult → Int → Int → Prop) (asked : Option Reply)
    (editor : Option (Outcome (List EditorDiagnostic))) (errors warnings : Int) : Prop :=
  match asked, editor with
  | some (.ok r), _ => counts r errors warnings
  | some (.error _), some (.ok ds) =>
    let own := ds.filter fun d => d.category == source
    errors = own.countP EditorDiagnostic.isError ∧ warnings = own.countP EditorDiagnostic.isWarning
  | _, _ => errors = 0 ∧ warnings = 0

/-- A category was skipped, or its tool ended well with all its output and counted nothing, or the
editor stood in for the tool and knew of nothing. -/
def FoundNothing (source : Source) (counts : ToolResult → Int → Int → Prop) (asked : Option Reply)
    (editor : Option (Outcome (List EditorDiagnostic))) : Prop :=
  match asked with
  | none => True
  | some (.ok r) => r.exitCode = 0 ∧ r.truncated = false ∧ counts r 0 0
  | some (.error _) => ∃ ds, editor = some (.ok ds) ∧
      ∀ d ∈ ds, d.category = source → d.isError = false ∧ d.isWarning = false

/-- A category as what was asked accounts for it. -/
structure Category.Accounted (tool : String) (source : Source) (counts : ToolResult → Int → Int → Prop)
    (asked : Option Reply) (editor : Option (Outcome (List EditorDiagnostic))) (c : Category) : Prop where
  named : c.tool = tool
  numbers : Counted source counts asked editor c.errors c.warnings
  failed : c.hasFailed = namedAsFailed asked (c.errors + c.warnings)
  unreliable : c.errors + c.warnings = 0 → (c.isUnreliable = true ↔ NotToBeReliedOn asked editor)
  nothing : c.errors + c.warnings = 0 ∧ c.isUnreliable = false ↔ FoundNothing source counts asked editor

section

variable {tool : String} {source : Source} {read : String → ToolResult → Outcome Category}
  {counts : ToolResult → Int → Int → Prop} {editor : Option (Outcome (List EditorDiagnostic))} {c : Category}

open Category

theorem accounted_skipped : Accounted tool source counts none editor { tool } where
  named := rfl
  numbers := ⟨rfl, rfl⟩
  failed := rfl
  unreliable _ := by simp [isUnreliable, NotToBeReliedOn]
  nothing := by simp [isUnreliable, FoundNothing]

theorem standIn_accounted {e : Failure} (h : standIn tool source editor = .ok c) :
    Accounted tool source counts (some (.error e)) editor c := by
  match editor with
  | none =>
    cases h
    exact ⟨rfl, ⟨rfl, rfl⟩, rfl, by simp [isUnreliable, NotToBeReliedOn], by simp [isUnreliable, FoundNothing]⟩
  | some (.error f) =>
    simp only [standIn] at h
    split at h
    · cases h
      exact ⟨rfl, ⟨rfl, rfl⟩, rfl, by simp [isUnreliable, NotToBeReliedOn], by simp [isUnreliable, FoundNothing]⟩
    · cases h
  | some (.ok ds) =>
    cases h
    refine ⟨rfl, ⟨rfl, rfl⟩, rfl, by simp [isUnreliable, NotToBeReliedOn, ofEditor], ?_⟩
    simp only [FoundNothing, Option.some.injEq, Except.ok.injEq, exists_eq_left', isUnreliable, ofEditor,
      Nat.add_eq_zero_iff, List.countP_eq_zero, List.mem_filter, beq_iff_eq, and_imp]
    grind

/-- What the compiler's output counts; it knows of no warnings. -/
def typeCheckCounts (r : ToolResult) (errors warnings : Int) : Prop :=
  errors = Output.TypeCheck.errorCount r.stdout r.stderr ∧ warnings = 0

def lintCounts (r : ToolResult) (errors warnings : Int) : Prop :=
  ∃ n, Output.Lint.counts r.stdout r.stderr = .ok n ∧ errors = n.errors ∧ warnings = n.warnings

/-- A tool that ran is to blame only where nothing was counted. -/
theorem ran_accounted {r : ToolResult} (htool : c.tool = tool) (hran : c.toolFailed = false)
    (hexit : c.exitFailed = ((!r.succeeded || r.truncated) && c.errors + c.warnings == 0))
    (hcounts : counts r c.errors c.warnings) (hnothing : counts r 0 0 → c.errors + c.warnings = 0) :
    Accounted tool source counts (some (.ok r)) editor c := by
  have hcast : ((c.errors : Int) + c.warnings == 0) = (c.errors + c.warnings == 0) := by
    rw [Bool.eq_iff_iff, beq_iff_eq, beq_iff_eq]
    omega
  -- The output counts nothing exactly where the category does.
  have hiff : counts r 0 0 ↔ c.errors + c.warnings = 0 := by
    refine ⟨hnothing, fun h => ?_⟩
    rwa [show c.errors = 0 by omega, show c.warnings = 0 by omega] at hcounts
  constructor
  · exact htool
  · exact hcounts
  · rw [hasFailed, hran, hexit, namedAsFailed, hcast, Bool.false_or]
    rfl
  · intro hzero
    simp [isUnreliable, hran, hexit, hzero, NotToBeReliedOn, ToolResult.succeeded]
  · simp only [FoundNothing, hiff, isUnreliable, hran, hexit, ToolResult.succeeded]
    cases r.truncated <;> simp
    grind

theorem ofTypeCheck_accounted {r : ToolResult} (h : ofTypeCheck tool r = .ok c) :
    Accounted tool source typeCheckCounts (some (.ok r)) editor c := by
  have hc := (Except.ok.inj h).symm
  have herrors : c.errors = Output.TypeCheck.errorCount r.stdout r.stderr := by rw [hc]
  have hwarnings : c.warnings = 0 := by rw [hc]
  have hexit : c.exitFailed = ((!r.succeeded || r.truncated) && c.errors == 0) := by rw [hc]
  refine ran_accounted (by rw [hc]) (by rw [hc]) ?_ ?_ ?_
  · rw [hwarnings, Nat.add_zero, hexit]
  · rw [herrors, hwarnings]
    exact ⟨rfl, Int.natCast_zero⟩
  · rintro ⟨hnothing, -⟩
    rw [herrors, hwarnings, Nat.add_zero]
    exact Int.natCast_eq_zero.mp hnothing.symm

theorem ofLint_accounted {r : ToolResult} (h : ofLint tool r = .ok c) :
    Accounted tool source lintCounts (some (.ok r)) editor c := by
  obtain ⟨n, hn, h⟩ := Outcome.bind_eq_ok h
  cases h
  refine ran_accounted rfl rfl rfl ⟨n, hn, rfl, rfl⟩ ?_
  rintro ⟨n', hn', herrors, hwarnings⟩
  cases hn.symm.trans hn'
  show n.errors + n.warnings = 0
  omega

theorem ofReply_accounted (hread : ∀ r c, read tool r = .ok c →
      Accounted tool source counts (some (.ok r)) editor c)
    {reply : Reply} (ha : Answered reply) (h : ofReply tool source read reply editor = .ok c) :
    Accounted tool source counts (some reply) editor c := by
  cases ha with
  | ran r => exact hread r c h
  | missing => exact standIn_accounted h
  | slow => exact standIn_accounted h

theorem standIn_ok (he : EditorAnswered editor) : ∃ c, standIn tool source editor = .ok c := by
  match editor with
  | none => exact ⟨_, rfl⟩
  | some (.ok ds) => exact ⟨_, rfl⟩
  | some (.error e) => exact ⟨_, if_pos (he e rfl)⟩

theorem ofReply_cases {reply : Reply} (ha : Answered reply) (he : EditorAnswered editor) :
    (∃ r, reply = .ok r ∧ ofReply tool source read reply editor = read tool r) ∨
      (∃ e, reply = .error e) ∧ ∃ c, ofReply tool source read reply editor = .ok c := by
  cases ha with
  | ran r => exact .inl ⟨r, rfl, rfl⟩
  | missing => exact .inr ⟨⟨_, rfl⟩, standIn_ok he⟩
  | slow => exact .inr ⟨⟨_, rfl⟩, standIn_ok he⟩

end

section

variable {root : Path} {config : Config} {editor : Option Provider} {s : Session} {c : Category}

/-- What the compiler replies, which is not asked without a project. -/
def typeCheckReply? (root : Path) (config : Config) (s : Session) : Option Reply :=
  if Check.TypeChecking.hasProject s.workspace root config.tools.typeCheck then
    some (s.bench.reply config.tools.typeCheck.name)
  else none

def lintReply (root : Path) (config : Config) (s : Session) : Reply :=
  (afterTypeCheck root config s).bench.reply config.tools.lint.name

theorem typeCheckOutcome_accounted (ht : ∀ reply, typeCheckReply? root config s = some reply → Answered reply)
    (h : typeCheckOutcome root config editor s = .ok c) :
    c.Accounted config.tools.typeCheck.name .typeCheck typeCheckCounts (typeCheckReply? root config s)
      (editor.map (Provider.all s.workspace)) := by
  unfold typeCheckReply? at ht ⊢
  unfold typeCheckOutcome at h
  split
  case isTrue hp =>
    simp only [hp, if_true] at h ht
    exact ofReply_accounted (fun r c => ofTypeCheck_accounted) (ht _ rfl) h
  case isFalse hp =>
    simp only [hp] at h
    cases h
    exact accounted_skipped

theorem lintOutcome_accounted (hl : Answered (lintReply root config s))
    (h : lintOutcome config editor (afterTypeCheck root config s) = .ok c) :
    c.Accounted config.tools.lint.name .lint lintCounts (some (lintReply root config s))
      (editor.map (Provider.all s.workspace)) := by
  rw [lintOutcome, afterTypeCheck_workspace] at h
  exact ofReply_accounted (fun r c => ofLint_accounted) hl h

theorem typeCheckOutcome_ok (ht : ∀ reply, typeCheckReply? root config s = some reply → Answered reply)
    (he : EditorAnswered (editor.map (Provider.all s.workspace))) :
    ∃ c, typeCheckOutcome root config editor s = .ok c := by
  unfold typeCheckReply? at ht
  cases hp : Check.TypeChecking.hasProject s.workspace root config.tools.typeCheck with
  | false => exact ⟨_, by simp only [typeCheckOutcome, hp]; rfl⟩
  | true =>
    simp only [hp, if_true] at ht
    simp only [typeCheckOutcome, hp, if_true]
    rcases ofReply_cases (ht _ rfl) he with ⟨r, -, hread⟩ | ⟨-, hc⟩
    · exact ⟨_, hread⟩
    · exact hc

/-- The linter's category is missing only where its output cannot be counted. -/
theorem lintOutcome_cases (hl : Answered (lintReply root config s))
    (he : EditorAnswered (editor.map (Provider.all s.workspace))) :
    (∃ c, lintOutcome config editor (afterTypeCheck root config s) = .ok c ∧
      ∀ r, lintReply root config s = .ok r → ∃ n, Output.Lint.counts r.stdout r.stderr = .ok n) ∨
    ∃ r e, lintReply root config s = .ok r ∧ Output.Lint.counts r.stdout r.stderr = .error e ∧
      lintOutcome config editor (afterTypeCheck root config s) = .error e := by
  have hlint : lintOutcome config editor (afterTypeCheck root config s) =
      Category.ofReply config.tools.lint.name .lint Category.ofLint (lintReply root config s)
        (editor.map (Provider.all s.workspace)) := by
    rw [lintOutcome, afterTypeCheck_workspace, lintReply]
  rw [hlint]
  rcases ofReply_cases hl he with ⟨r, hr, hread⟩ | ⟨⟨e, hr⟩, c, hc⟩
  · cases hn : Output.Lint.counts r.stdout r.stderr with
    | ok n =>
      refine .inl ⟨_, hread.trans (Outcome.bind_of_ok hn), fun r' hr' => ?_⟩
      cases hr.symm.trans hr'
      exact ⟨n, hn⟩
    | error e => exact .inr ⟨r, e, hr, hn, hread.trans (Outcome.bind_of_error hn)⟩
  · exact .inl ⟨c, hc, fun r hr' => by rw [hr] at hr'; cases hr'⟩

def AllZero (c : ErrorCount) : Prop :=
  c.typeCheckErrors = 0 ∧ c.typeCheckWarnings = 0 ∧ c.lintErrors = 0 ∧ c.lintWarnings = 0

theorem allZero_merge_iff (typeCheck lint : Category) :
    AllZero (merge typeCheck lint) ↔
      typeCheck.errors + typeCheck.warnings = 0 ∧ lint.errors + lint.warnings = 0 := by
  simp only [AllZero, merge]
  omega

theorem suspiciousZero_merge_iff (typeCheck lint : Category) :
    (merge typeCheck lint).suspiciousZero = true ↔
      AllZero (merge typeCheck lint) ∧ (typeCheck.isUnreliable = true ∨ lint.isUnreliable = true) := by
  rw [allZero_merge_iff]
  simp [merge]

theorem failedTools_merge (typeCheck lint : Category) :
    (merge typeCheck lint).failedTools =
      (if typeCheck.hasFailed then [typeCheck.tool] else []) ++ (if lint.hasFailed then [lint.tool] else []) := by
  cases h : typeCheck.hasFailed <;> cases h' : lint.hasFailed <;> simp [merge, h, h']

/-- A count accounts for what was asked: its numbers, when its zero is suspicious, which tools it names,
what is published of it, and what a zero that is not suspicious means. -/
structure Explains (config : Config) (typeCheck : Option Reply) (lint : Reply)
    (editor : Option (Outcome (List EditorDiagnostic))) (published : List Event) (c : ErrorCount) : Prop where
  typeCheckNumbers : Counted .typeCheck typeCheckCounts typeCheck editor c.typeCheckErrors c.typeCheckWarnings
  lintNumbers : Counted .lint lintCounts (some lint) editor c.lintErrors c.lintWarnings
  suspicious : c.suspiciousZero = true ↔
    AllZero c ∧ (NotToBeReliedOn typeCheck editor ∨ NotToBeReliedOn (some lint) editor)
  failedTools : c.failedTools =
    (if namedAsFailed typeCheck (c.typeCheckErrors + c.typeCheckWarnings) then [config.tools.typeCheck.name] else []) ++
    (if namedAsFailed (some lint) (c.lintErrors + c.lintWarnings) then [config.tools.lint.name] else [])
  published : published = if c.suspiciousZero then [.suspiciousZero c.failedTools] else []
  nothing : AllZero c ∧ c.suspiciousZero = false ↔
    FoundNothing .typeCheck typeCheckCounts typeCheck editor ∧ FoundNothing .lint lintCounts (some lint) editor

theorem explains_merge {typeCheck lint : Category} {asked : Option Reply} {reply : Reply}
    {editor : Option (Outcome (List EditorDiagnostic))}
    (ht : typeCheck.Accounted config.tools.typeCheck.name .typeCheck typeCheckCounts asked editor)
    (hl : lint.Accounted config.tools.lint.name .lint lintCounts (some reply) editor) :
    Explains config asked reply editor
      (if (merge typeCheck lint).suspiciousZero then [.suspiciousZero (merge typeCheck lint).failedTools] else [])
      (merge typeCheck lint) where
  typeCheckNumbers := ht.numbers
  lintNumbers := hl.numbers
  suspicious := by
    rw [suspiciousZero_merge_iff, allZero_merge_iff]
    refine and_congr_right fun ⟨hz, hz'⟩ => ?_
    rw [ht.unreliable hz, hl.unreliable hz']
  failedTools := by
    rw [failedTools_merge, ht.failed, hl.failed, ht.named, hl.named]
    rfl
  published := rfl
  nothing := by
    rw [← ht.nothing, ← hl.nothing, Bool.eq_false_iff, ne_eq, suspiciousZero_merge_iff, allZero_merge_iff]
    grind

end

/-! A linter alone, without a project to compile. -/

section

def onlyLinter (r : ToolResult) : Session where
  workspace := { root := { root := "/" } }
  bench := { replies := [("eslint", [.ok r])] }
  now := { year := 2024, month := 1, day := 2 }

theorem onlyLinter_typeCheck (r : ToolResult) : typeCheckReply? { root := "/" } {} (onlyLinter r) = none := by
  cbv

theorem onlyLinter_lint (r : ToolResult) : lintReply { root := "/" } {} (onlyLinter r) = .ok r := by
  cbv

end

end QualityGate.Count
