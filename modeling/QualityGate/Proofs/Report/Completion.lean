import Mathlib
import QualityGate.Proofs.Report.Audit

/-! An audit whose checks finish in any order. What they found is joined in the
order of the list, so the order in which they finish shows in nothing but the
events that announce it. -/

namespace QualityGate

/-- How a check goes: its own work is done or fails, or a failure gets past the check. -/
inductive Went where
  | performed (o : Outcome Findings)
  | escaped (e : Failure)

namespace Check

/-- A check that goes in one way as long as `P` holds of the session, which it does not change. It makes
nothing known itself, and nothing stops the whole run. -/
def Goes (c : Check) (ctx : Context) (P : Session → Prop) (went : Went) : Prop :=
  (∀ s, P s → P (c.perform ctx s).2 ∧ (c.perform ctx s).2.events = s.events) ∧
    match went with
    | .performed o => c.escapes = false ∧ Settled o ∧ ∀ s, P s → (c.perform ctx s).1 = o
    | .escaped e => c.escapes = true ∧ e.endsRun = false ∧ ∀ s, P s → (c.perform ctx s).1 = .error e

/-- What a check adds to the report: what it found, each finding once; nothing where it may be left out and
its tool is missing; and one issue that names it for any other failure. -/
inductive Contributes (c : Check) : Went → Findings → Prop where
  | found (f : Findings) : Contributes c (.performed (.ok f)) f.deduplicated
  | skipped (e : Failure) (hopt : c.isOptional = true) (hmissing : isMissingTool e = true) :
      Contributes c (.performed (.error e)) {}
  | failed (e : Failure) (i : Issue) (hnot : (c.isOptional && isMissingTool e) = false)
      (hsource : i.source = c.source) (hmessage : i.message = "Could not check " ++ c.name ++ ": " ++ e.message) :
      Contributes c (.performed (.error e)) { issues := [i] }
  | escaped (e : Failure) (i : Issue) (hsource : i.source = c.source)
      (hmessage : i.message = "Could not check " ++ c.name ++ ": " ++ e.message) :
      Contributes c (.escaped e) { issues := [i] }

end Check

namespace Audit

/-- The check at a place of the list finishes, and what it gave is kept at that place. -/
def finishAt (ctx : Context) (checks : List Check) (kept : List (Option (Check × Outcome Findings))) (i : Nat) :
    Run (List (Option (Check × Outcome Findings))) :=
  match checks[i]? with
  | some c => do return kept.set i (some (← runCheck ctx c))
  | none => return kept

/-- The checks finish in the order of the places given, and what they gave is joined in the order of the list. -/
def gather (ctx : Context) (checks : List Check) (order : List Nat) : Run (List (Check × Outcome Findings)) := do
  let kept ← order.foldlM (finishAt ctx checks) (List.replicate checks.length none)
  return kept.filterMap id

/-- An audit whose checks finish in the order of the places given. -/
def runIn (order : List Nat) (root : Path) (config : Config) (checks : List Check) : Run Report := do
  let files ← Run.lift (Discovery.files (← Run.workspace) root config.files)
  Run.publish (.auditStarted (checks.map Check.name) files.length)
  let went ← gather ⟨root, config, files⟩ checks order
  let results ← Run.lift (contributions config.severity went)
  let report := Report.build results config.scoring files.length (← get).now
  Run.publish (.auditFinished (some report))
  return report

/-! Finishing in the order of the list is running one check after the other. -/

theorem foldlM_finishAt (ctx : Context) (checks : List Check) (before : List Check)
    (done : List (Check × Outcome Findings)) (hlen : done.length = before.length) :
    (List.range' before.length checks.length).foldlM (finishAt ctx (before ++ checks))
        (done.map some ++ List.replicate checks.length none) =
      (checks.mapM (runCheck ctx) >>= fun rest => pure ((done ++ rest).map some) : Run _) := by
  induction checks generalizing before done with
  | nil => simp
  | cons c checks ih =>
    have hget : (before ++ c :: checks)[before.length]? = some c := by simp
    have hset (x : Check × Outcome Findings) :
        (done.map some ++ List.replicate (c :: checks).length none).set before.length (some x) =
          (done ++ [x]).map some ++ List.replicate checks.length none := by
      simp [hlen, List.replicate_succ]
    have hrest (x : Check × Outcome Findings) := ih (before ++ [c]) (done ++ [x]) (by simp [hlen])
    simp only [List.length_append, List.length_singleton, List.append_assoc, List.singleton_append] at hrest
    simp only [List.length_cons, List.range'_succ, List.foldlM_cons, finishAt, hget, bind_assoc, pure_bind,
      List.mapM_cons]
    refine bind_congr fun x => ?_
    rw [← List.length_cons (a := c), hset x]
    exact hrest x

theorem gather_range (ctx : Context) (checks : List Check) :
    gather ctx checks (List.range checks.length) = checks.mapM (runCheck ctx) := by
  have h := foldlM_finishAt ctx checks [] [] rfl
  simp only [List.length_nil, List.map_nil, List.nil_append] at h
  rw [gather, List.range_eq_range', h]
  simp

theorem runIn_range (root : Path) (config : Config) (checks : List Check) :
    runIn (List.range checks.length) root config checks = run root config checks := by
  simp only [runIn, run, gather_range]

/-! What each check gives and adds. -/

/-- What the run of a check gives. -/
def ran (t : SeverityTable) (c : Check) : Went → Outcome Findings
  | .performed o => c.settle t o
  | .escaped e => .error e

def contributed (t : SeverityTable) (c : Check) : Went → Findings
  | .performed (.ok f) => f.deduplicated
  | .performed (.error e) =>
    if c.isOptional && Check.isMissingTool e then {}
    else c.reported e (Check.failureCode e) (Check.failureSeverity t e)
  | .escaped e => c.reported e "checker-crashed" t.toolUnavailable

/-- A check whose run returned is announced with the number of its issues, and no other check is. -/
def announcement (x : Check × Went) (f : Findings) : Option Event :=
  match x.2 with
  | .performed _ => some (.checkFinished x.1.name f.issues.length)
  | .escaped _ => none

theorem contributes_contributed (t : SeverityTable) (c : Check) (went : Went) :
    c.Contributes went (contributed t c went) := by
  rcases went with (e | f) | e
  · by_cases h : (c.isOptional && Check.isMissingTool e) = true
    · have hboth := Bool.and_eq_true_iff.mp h
      rw [contributed, if_pos h]
      exact .skipped e hboth.1 hboth.2
    · rw [contributed, if_neg h]
      exact .failed e _ (by simpa using h) rfl rfl
  · exact .found f
  · exact .escaped e _ rfl rfl

variable {ctx : Context} {P : Session → Prop}

theorem settle_of_goes {c : Check} {o : Outcome Findings} (t : SeverityTable) (h : c.Goes ctx P (.performed o)) :
    c.settle t o = .ok (contributed t c (.performed o)) := by
  obtain ⟨-, -, ho, -⟩ := h
  cases o with
  | ok f => rfl
  | error e =>
    simp only [Check.settle, ho e rfl, contributed, Bool.false_eq_true, if_false]
    split <;> rfl

theorem contribution_ran {c : Check} {went : Went} (t : SeverityTable) (h : c.Goes ctx P went) :
    contribution c t (ran t c went) = .ok (contributed t c went) := by
  cases went with
  | performed o =>
    rw [ran, settle_of_goes t h]
    rfl
  | escaped e =>
    have he : e.endsRun = false := h.2.2.1
    simp [ran, contribution, he, contributed]

theorem run_of_goes {c : Check} {went : Went} (h : c.Goes ctx P went) {s : Session} (hs : P s) :
    c.run ctx s = (ran ctx.config.severity c went, (c.perform ctx s).2) := by
  cases went with
  | performed o =>
    obtain ⟨-, hc, -, ho⟩ := h
    simp [Check.run, hc, Run.bind_apply, ho s hs, ran]
  | escaped e =>
    obtain ⟨-, hc, -, ho⟩ := h
    simp only [Check.run, hc, if_true, ran]
    exact Prod.ext (ho s hs) rfl

theorem runCheck_of_goes (hP : ∀ s es, P s → P { s with events := es }) {x : Check × Went}
    (h : x.1.Goes ctx P x.2) {s : Session} (hs : P s) :
    ∃ s', runCheck ctx x.1 s = (.ok (x.1, ran ctx.config.severity x.1 x.2), s') ∧ P s' ∧
      s'.events = s.events ++ (announcement x (contributed ctx.config.severity x.1 x.2)).toList := by
  obtain ⟨c, went⟩ := x
  dsimp only at h ⊢
  have hrun := run_of_goes h hs
  obtain ⟨hkeeps, hevents⟩ := h.1 s hs
  cases went with
  | performed o =>
    have hr : ran ctx.config.severity c (.performed o) = .ok (contributed ctx.config.severity c (.performed o)) :=
      settle_of_goes _ h
    rw [hr] at hrun ⊢
    refine ⟨_, runCheck_apply ctx (congrArg Prod.fst hrun), ?_, ?_⟩
    · rw [hrun]
      exact hP _ _ hkeeps
    · simp [finished, hrun, hevents, announcement]
  | escaped e =>
    have he : e.endsRun = false := h.2.2.1
    refine ⟨(c.perform ctx s).2, ?_, hkeeps, by simp [hevents, announcement]⟩
    rw [runCheck, Run.bind_apply, Run.attempt_apply, hrun]
    cases e <;> first | rfl | cases he

/-! The whole audit. -/

variable {going : List (Check × Went)}

theorem foldl_set_getElem? {α : Type} (v : Nat → α) (order : List Nat) (kept : List α) (j : Nat) :
    (order.foldl (fun k i => k.set i (v i)) kept)[j]? =
      if j ∈ order ∧ j < kept.length then some (v j) else kept[j]? := by
  induction order generalizing kept with
  | nil => simp
  | cons i order ih =>
    simp only [List.foldl_cons, ih, List.length_set, List.mem_cons, List.getElem?_set]
    by_cases hj : j < kept.length
    · by_cases hi : i = j
      · subst hi
        simp [hj]
      · have hji : ¬ j = i := fun h => hi h.symm
        simp [hi, hji]
    · have hnone : kept[j]? = none := List.getElem?_eq_none (by omega)
      have hi : i = j → ¬ i < kept.length := by omega
      simp only [hj, and_false, if_false, hnone]
      split <;> simp_all

/-- Whatever the order in which all places are filled, the list is filled. -/
theorem foldl_set_perm {α : Type} (xs : List α) {v : Nat → Option α} (hv : ∀ i, i < xs.length → v i = xs[i]?)
    {order : List Nat} (h : order.Perm (List.range xs.length)) :
    (order.foldl (fun k i => k.set i (v i)) (List.replicate xs.length none)) = xs.map some := by
  refine List.ext_getElem? fun j => ?_
  simp only [foldl_set_getElem?, h.mem_iff, List.mem_range, List.length_replicate, List.getElem?_map]
  by_cases hj : j < xs.length
  · simp [hj, hv j hj]
  · simp [hj]

/-- What is announced of a check at a place once it has finished. -/
def announcedAt (t : SeverityTable) (going : List (Check × Went)) (i : Nat) : Option Event :=
  going[i]?.bind fun x => announcement x (contributed t x.1 x.2)

theorem foldlM_finishAt_of_goes (hP : ∀ s es, P s → P { s with events := es })
    (hgoing : ∀ x ∈ going, x.1.Goes ctx P x.2) (order : List Nat) (horder : ∀ i ∈ order, i < going.length)
    (kept : List (Option (Check × Outcome Findings))) {s : Session} (hs : P s) :
    ∃ s', order.foldlM (finishAt ctx (going.map Prod.fst)) kept s =
        (.ok (order.foldl (fun k i => k.set i (going[i]?.map fun x => (x.1, ran ctx.config.severity x.1 x.2))) kept),
          s') ∧ P s' ∧
      s'.events = s.events ++ order.filterMap (announcedAt ctx.config.severity going) := by
  -- One check after the other fills its place and is announced; `P` holds all the time.
  induction order generalizing kept s with
  | nil => exact ⟨s, rfl, hs, by simp⟩
  | cons i order ih =>
    have hi : i < going.length := horder i List.mem_cons_self
    have hx : going[i]? = some going[i] := List.getElem?_eq_getElem hi
    obtain ⟨s₁, hrun, hs₁, hevents₁⟩ := runCheck_of_goes hP (hgoing going[i] (List.getElem_mem hi)) hs
    have hstep : finishAt ctx (going.map Prod.fst) kept i s =
        (.ok (kept.set i (some (going[i].1, ran ctx.config.severity going[i].1 going[i].2))), s₁) := by
      simp [finishAt, hx, Run.bind_apply, hrun]
    obtain ⟨s', hrest, hs', hevents'⟩ := ih (fun j hj => horder j (List.mem_cons_of_mem _ hj)) _ hs₁
    refine ⟨s', ?_, hs', ?_⟩
    · rw [List.foldlM_cons, Run.bind_apply, hstep]
      simpa [hx] using hrest
    · have hat : announcedAt ctx.config.severity going i =
          announcement going[i] (contributed ctx.config.severity going[i].1 going[i].2) := by
        rw [announcedAt, hx, Option.bind_some]
      rw [hevents', hevents₁, List.filterMap_cons, hat]
      cases announcement going[i] (contributed ctx.config.severity going[i].1 going[i].2) <;> simp

theorem gather_of_goes (hP : ∀ s es, P s → P { s with events := es }) (hgoing : ∀ x ∈ going, x.1.Goes ctx P x.2)
    {order : List Nat} (horder : order.Perm (List.range going.length)) {s : Session} (hs : P s) :
    ∃ s', gather ctx (going.map Prod.fst) order s =
        (.ok (going.map fun x => (x.1, ran ctx.config.severity x.1 x.2)), s') ∧
      s'.events = s.events ++ order.filterMap (announcedAt ctx.config.severity going) := by
  have hlt (i : Nat) (hi : i ∈ order) : i < going.length := List.mem_range.mp (horder.mem_iff.mp hi)
  obtain ⟨s', hfold, -, hevents⟩ :=
    foldlM_finishAt_of_goes hP hgoing order hlt (List.replicate going.length none) hs
  have hfill := foldl_set_perm (going.map fun x => (x.1, ran ctx.config.severity x.1 x.2))
    (v := fun i => going[i]?.map fun x => (x.1, ran ctx.config.severity x.1 x.2)) (fun i _ => by simp)
    (by simpa using horder)
  rw [List.length_map] at hfill
  refine ⟨s', ?_, hevents⟩
  rw [gather, Run.bind_apply, List.length_map, hfold, hfill]
  simp [List.filterMap_map]

theorem contributions_of_goes (t : SeverityTable) (hgoing : ∀ x ∈ going, x.1.Goes ctx P x.2) :
    contributions t (going.map fun x => (x.1, ran t x.1 x.2)) = .ok (going.map fun x => contributed t x.1 x.2) := by
  induction going with
  | nil => rfl
  | cons x going ih =>
    have hx := contribution_ran t (hgoing x List.mem_cons_self)
    have hrest := ih fun y hy => hgoing y (List.mem_cons_of_mem _ hy)
    simp only [contributions, List.map_cons, List.mapM_cons] at hrest ⊢
    rw [hx, hrest]
    rfl

/-- The report of an audit and what it makes known, given how its checks go. -/
theorem runIn_of_goes {root : Path} {config : Config} {files : List Path}
    (hP : ∀ s es, P s → P { s with events := es }) (hgoing : ∀ x ∈ going, x.1.Goes ⟨root, config, files⟩ P x.2)
    {s : Session} (hs : P s) (hfiles : Discovery.files s.workspace root config.files = .ok files)
    {order : List Nat} (horder : order.Perm (List.range going.length)) :
    ∃ s', ∃ report, report = Report.build (going.map fun x => contributed config.severity x.1 x.2) config.scoring
          files.length s'.now ∧
        runIn order root config (going.map Prod.fst) s = (.ok report, s') ∧
        s'.events = s.events ++ .auditStarted (going.map fun x => x.1.name) files.length ::
          order.filterMap (announcedAt config.severity going) ++ [.auditFinished (some report)] := by
  let started : Session :=
    { s with events := s.events ++ [Event.auditStarted (going.map fun x => x.1.name) files.length] }
  obtain ⟨s₁, hgather, hevents⟩ := gather_of_goes (s := started) hP hgoing horder (hP s _ hs)
  let report :=
    Report.build (going.map fun x => contributed config.severity x.1 x.2) config.scoring files.length s₁.now
  refine ⟨{ s₁ with events := s₁.events ++ [.auditFinished (some report)] }, report, rfl, ?_, ?_⟩
  · have hnames : (going.map Prod.fst).map Check.name = going.map fun x => x.1.name := by simp
    simp only [runIn, Run.bind_apply, Run.workspace_apply, Run.lift_apply, hfiles, Run.publish_apply, hnames]
    simp only [started] at hgather
    simp only [hgather, contributions_of_goes config.severity hgoing, Run.get_apply, Run.pure_apply, report]
  · simp [hevents, started]

/-- Whatever the order in which the checks finish, the report is made of what each adds, in the order of the
list, and each check whose run returned is announced once, as it finishes. Where one check goes otherwise,
nothing changes but what it adds. -/
theorem report_of_any_completion {P : Session → Prop} (hP : ∀ s es, P s → P { s with events := es }) {root : Path}
    {config : Config} {s : Session} (hs : P s) {files : List Path}
    (hfiles : Discovery.files s.workspace root config.files = .ok files) (going : List (Check × Went))
    (hgoing : ∀ x ∈ going, x.1.Goes ⟨root, config, files⟩ P x.2) :
    run root config (going.map Prod.fst) = runIn (List.range going.length) root config (going.map Prod.fst) ∧
    ∃ results : List Findings, List.Forall₂ (fun x f => x.1.Contributes x.2 f) going results ∧
      (∀ order : List Nat, order.Perm (List.range going.length) →
        ∃ s' report, report = Report.build results config.scoring files.length s'.now ∧
          runIn order root config (going.map Prod.fst) s = (.ok report, s') ∧
          s'.events = s.events ++ .auditStarted (going.map fun x => x.1.name) files.length ::
            (order.filterMap fun i => (going.zip results)[i]?.bind fun x => announcement x.1 x.2) ++
              [.auditFinished (some report)]) ∧
      ∀ (i : Nat) (x : Check × Went), x.1.Goes ⟨root, config, files⟩ P x.2 →
        ∃ f, x.1.Contributes x.2 f ∧
          ∀ order : List Nat, order.Perm (List.range going.length) →
            ∃ s' report, report = Report.build (results.set i f) config.scoring files.length s'.now ∧
              runIn order root config ((going.set i x).map Prod.fst) s = (.ok report, s') := by
  have hrange := runIn_range root config (going.map Prod.fst)
  rw [List.length_map] at hrange
  refine ⟨hrange.symm, going.map fun x => contributed config.severity x.1 x.2, ?_, ?_, ?_⟩
  · rw [List.forall₂_map_right_iff, List.forall₂_same]
    exact fun x _ => contributes_contributed config.severity x.1 x.2
  · intro order horder
    obtain ⟨s', report, hreport, hrun, hevents⟩ := runIn_of_goes hP hgoing hs hfiles horder
    refine ⟨s', report, hreport, hrun, ?_⟩
    have hzip : going.zip (going.map fun x => contributed config.severity x.1 x.2) =
        going.map fun x => (x, contributed config.severity x.1 x.2) := by
      simpa using
        List.zip_map' (f := id) (g := fun x : Check × Went => contributed config.severity x.1 x.2) (l := going)
    have hat : announcedAt config.severity going =
        fun i => (going.zip (going.map fun x => contributed config.severity x.1 x.2))[i]?.bind fun x =>
          announcement x.1 x.2 := by
      funext i
      simp only [announcedAt, hzip, List.getElem?_map, Option.bind_map, Function.comp_def]
    rw [hevents, hat]
  · intro i x hx
    refine ⟨contributed config.severity x.1 x.2, contributes_contributed config.severity x.1 x.2,
      fun order horder => ?_⟩
    have hset : ∀ y ∈ going.set i x, y.1.Goes ⟨root, config, files⟩ P y.2 := by
      intro y hy
      rcases List.mem_or_eq_of_mem_set hy with hy | rfl
      · exact hgoing y hy
      · exact hx
    obtain ⟨s', report, hreport, hrun, -⟩ :=
      runIn_of_goes hP hset hs hfiles (horder.trans (by rw [List.length_set]))
    exact ⟨s', report, by rw [hreport, List.map_set], hrun⟩

/-! Three checks that finish from the last to the first: one finds something, one may be left out and has no
tool, one breaks. -/

def finder : Check where
  name := "lint"
  source := .lint
  perform _ := pure { issues := [{ source := .lint, severity := .medium, message := "unused" }] }

def leftOut : Check where
  name := "dependency-audit"
  source := .dependency
  isOptional := true
  perform _ := throw (.toolUnavailable "npm" "")

def breaker : Check where
  name := "syntax"
  source := .wellFormed
  escapes := true
  perform _ := throw (.runtime "lost")

theorem report_of_any_completion_backwards :
    let config : Config := { files := { included := [] } }
    let s : Session := { workspace := { root := { root := "/" } }, now := { year := 2024, month := 1, day := 2 } }
    let checks := [finder, leftOut, breaker]
    ∃ issue s' report, issue.message = "Could not check syntax: lost" ∧
      report = Report.build [{ issues := [{ source := .lint, severity := .medium, message := "unused" }] }, {},
        { issues := [issue] }] {} 0 s'.now ∧
      runIn [2, 1, 0] { root := "/" } config checks s = (.ok report, s') ∧
      s'.events = [.auditStarted ["lint", "dependency-audit", "syntax"] 0, .checkFinished "dependency-audit" 0,
        .checkFinished "lint" 1, .auditFinished (some report)] := by
  intro config s checks
  let found : Findings := { issues := [{ source := .lint, severity := .medium, message := "unused" }] }
  let going : List (Check × Went) := [(finder, .performed (.ok found)),
    (leftOut, .performed (.error (.toolUnavailable "npm" ""))), (breaker, .escaped (.runtime "lost"))]
  have hfiles : Discovery.files s.workspace { root := "/" } config.files = .ok [] := by cbv
  have hgoing : ∀ x ∈ going, x.1.Goes ⟨{ root := "/" }, config, []⟩ (fun _ => True) x.2 := by
    simp only [going, List.forall_mem_cons]
    refine ⟨?_, ?_, ?_, by simp⟩
    · exact ⟨fun _ _ => ⟨trivial, rfl⟩, rfl, .ok _, fun _ _ => rfl⟩
    · exact ⟨fun _ _ => ⟨trivial, rfl⟩, rfl, (Settled.error_iff _).mpr rfl, fun _ _ => rfl⟩
    · exact ⟨fun _ _ => ⟨trivial, rfl⟩, rfl, rfl, fun _ _ => rfl⟩
  obtain ⟨-, results, hresults, hany, -⟩ :=
    report_of_any_completion (fun _ _ _ => trivial) trivial hfiles going hgoing
  obtain ⟨s', report, hreport, hrun, hevents⟩ := hany [2, 1, 0] (by decide)
  -- What each of the three adds is forced by the way it went.
  obtain ⟨f₁, r₁, h₁, hrest₁, rfl⟩ := List.forall₂_cons_left_iff.mp hresults
  obtain ⟨f₂, r₂, h₂, hrest₂, rfl⟩ := List.forall₂_cons_left_iff.mp hrest₁
  obtain ⟨f₃, r₃, h₃, hrest₃, rfl⟩ := List.forall₂_cons_left_iff.mp hrest₂
  obtain rfl := List.forall₂_nil_left_iff.mp hrest₃
  cases h₁
  cases h₃ with
  | escaped e issue hsource hmessage =>
    cases h₂ with
    | failed e i hnot => cases hnot
    | skipped e hopt hmissing =>
      refine ⟨issue, s', report, hmessage, ?_, hrun, ?_⟩
      · exact hreport
      · exact hevents

end Audit

end QualityGate
