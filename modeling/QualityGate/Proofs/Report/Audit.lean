import QualityGate.Proofs.Check.Commanded
import QualityGate.Proofs.Report.Tally

/-! What an audit reports: the findings of every check, and of each command that
was run what follows from its reply. -/

namespace QualityGate

/-- The replies that the commands get one after the other, each where it is run. -/
def Commanded.replies (w : Workspace) (root : Path) (t : Tools) : List Commanded → Bench → List (Commanded × Reply)
  | [], _ => []
  | k :: ks, b =>
    match k.isRun w root t with
    | .ok true => (k, k.replyIn t b) :: replies w root t ks (k.callIn t b)
    | _ => replies w root t ks b

namespace Commanded

variable (w : Workspace) (root : Path) (t : Tools)

theorem replies_of_not_isRun {k : Commanded} (h : k.isRun w root t ≠ .ok true) (ks : List Commanded) (b : Bench) :
    replies w root t (k :: ks) b = replies w root t ks b := by
  rw [replies]
  split
  · next he => exact absurd he h
  · rfl

theorem settled_of_mem_replies (ks : List Commanded) {b : Bench} (hb : b.Calm) {k : Commanded} {reply : Reply}
    (h : (k, reply) ∈ replies w root t ks b) : Settled reply := by
  induction ks generalizing b with
  | nil => cases h
  | cons k' ks ih =>
    rw [replies] at h
    split at h
    · rcases List.mem_cons.mp h with he | h
      · obtain ⟨rfl, rfl⟩ : k = k' ∧ reply = _ := by simpa using he
        exact hb.reply _
      · exact ih (hb.call _) h
    · exact ih hb h

end Commanded

namespace Audit

variable (ctx : Context) {s : Session}

/-- What a list of checks found, as the audit keeps it. -/
def found (fs : List (Check × Findings)) : List (Check × Outcome Findings) := fs.map fun x => (x.1, .ok x.2)

/-- The session once a check has made known what it found. -/
def finished (c : Check) (f : Findings) (s : Session) : Session :=
  { s with events := s.events ++ [.checkFinished c.name f.issues.length] }

theorem runCheck_apply {c : Check} {f : Findings} (h : (c.run ctx s).1 = .ok f) :
    runCheck ctx c s = (.ok (c, .ok f), finished c f (c.run ctx s).2) := by
  rw [runCheck, Run.bind_apply, Run.attempt_apply, h]
  rfl

theorem mapM_runCheck_cons {c : Check} {cs : List Check} {f : Findings} {fs : List (Check × Findings)}
    {s' : Session} (hf : (c.run ctx s).1 = .ok f)
    (hfs : cs.mapM (runCheck ctx) (finished c f (c.run ctx s).2) = (.ok (found fs), s')) :
    (c :: cs).mapM (runCheck ctx) s = (.ok (found ((c, f) :: fs)), s') := by
  rw [Run.mapM_cons, Run.bind_apply, runCheck_apply ctx hf]
  dsimp only
  rw [Run.bind_apply, hfs]
  rfl

theorem mapM_runCheck (cs : List Check) (hc : ∀ c ∈ cs, c.Reports) (hs : s.bench.Calm) :
    ∃ fs s', cs.mapM (runCheck ctx) s = (.ok (found fs), s') := by
  -- No check makes a calm bench interrupt a later one.
  induction cs generalizing s with
  | nil => exact ⟨[], s, rfl⟩
  | cons c cs ih =>
    obtain ⟨f, hf, hb⟩ := (hc c List.mem_cons_self).run_eq_ok ctx hs
    obtain ⟨fs, s', hfs⟩ := ih (s := finished c f (c.run ctx s).2) (fun c h => hc c (List.mem_cons_of_mem _ h)) hb
    exact ⟨_, s', mapM_runCheck_cons ctx hf hfs⟩

theorem contributions_found (t : SeverityTable) (fs : List (Check × Findings)) :
    contributions t (found fs) = .ok (fs.map (·.2)) := by
  induction fs with
  | nil => rfl
  | cons x fs ih =>
    simp only [contributions, found, List.map_cons, List.mapM_cons] at ih ⊢
    rw [ih]
    rfl

theorem run_of_files_error {root : Path} {config : Config} {checks : List Check} {e : Failure}
    (h : Discovery.files s.workspace root config.files = .error e) : (run root config checks s).1 = .error e := by
  simp [run, Run.bind_apply, h]

/-- An audit of which no tool is interrupted can only fail for its file patterns. -/
theorem settled_run (root : Path) (config : Config) {checks : List Check} (hc : ∀ c ∈ checks, c.Reports)
    (hs : s.bench.Calm) : Settled (run root config checks s).1 := by
  cases hf : Discovery.files s.workspace root config.files with
  | error e =>
    rw [run_of_files_error hf]
    exact (Settled.error_iff e).mpr (Discovery.settled_files _ _ _ e hf)
  | ok files =>
    let started := s.events ++ [.auditStarted (checks.map Check.name) files.length]
    obtain ⟨fs, s', hm⟩ := mapM_runCheck ⟨root, config, files⟩ checks hc (s := { s with events := started }) hs
    have hr : (run root config checks s).1 =
        .ok (Report.build (fs.map (·.2)) config.scoring files.length s'.now) := by
      simp only [run, Run.bind_apply, Run.workspace_apply, Run.lift_apply, hf, Run.publish_apply, started] at hm ⊢
      simp only [hm, contributions_found, Run.get_apply, Run.pure_apply]
    rw [hr]
    exact .ok _

theorem runCheck_eq_ok {c : Check} {x : Check × Outcome Findings} {s₁ : Session}
    (h : runCheck ctx c s = (.ok x, s₁)) :
    x = (c, (c.run ctx s).1) ∧ s₁.workspace = (c.run ctx s).2.workspace ∧ s₁.bench = (c.run ctx s).2.bench := by
  cases hr : (c.run ctx s).1 with
  | ok f =>
    cases (runCheck_apply ctx hr).symm.trans h
    exact ⟨rfl, rfl, rfl⟩
  | error e =>
    rw [runCheck, Run.bind_apply, Run.attempt_apply, hr] at h
    cases e <;> cases h <;> exact ⟨rfl, rfl, rfl⟩

theorem contributions_cons_eq_ok {t : SeverityTable} {x : Check × Outcome Findings}
    {went : List (Check × Outcome Findings)} {fs : List Findings} (h : contributions t (x :: went) = .ok fs) :
    ∃ f rest, contribution x.1 t x.2 = .ok f ∧ contributions t went = .ok rest ∧ fs = f :: rest := by
  rw [contributions, List.mapM_cons] at h
  obtain ⟨f, hf, h⟩ := Outcome.bind_eq_ok h
  obtain ⟨rest, hr, h⟩ := Outcome.bind_eq_ok h
  exact ⟨f, rest, hf, hr, (Except.ok.inj h).symm⟩

/-- What a command's check could not settle ends the run, so nothing is reported in its place. -/
theorem outcome_of_contribution {k : Commanded} {reply : Reply} {f : Findings}
    (h : contribution k.check ctx.config.severity (k.outcome ctx reply) = .ok f) : k.outcome ctx reply = .ok f := by
  cases ho : k.outcome ctx reply with
  | ok f' =>
    rw [ho] at h
    exact h
  | error e =>
    have he : e.endsRun = true := Check.endsRun_of_settle ho
    simp [ho, contribution, he] at h

/-- Each check that runs a command contributes what follows from the reply to that command. -/
theorem contributions_commanded (ks : List Commanded) (cs : List Check)
    {went : List (Check × Outcome Findings)} {s' : Session} {fs : List Findings}
    (hw : (ks.map Commanded.check ++ cs).mapM (runCheck ctx) s = (.ok went, s'))
    (hf : contributions ctx.config.severity went = .ok fs) {k : Commanded} {reply : Reply}
    (h : (k, reply) ∈ Commanded.replies s.workspace ctx.root ctx.config.tools ks s.bench) :
    ∃ f ∈ fs, k.outcome ctx reply = .ok f := by
  -- A check takes from the bench what its command takes in the list of replies, and nothing where it is not run.
  induction ks generalizing s went fs with
  | nil => cases h
  | cons k' ks ih =>
    obtain ⟨x, s₁, rest, hx, hrest, rfl⟩ := Run.mapM_cons_eq_ok hw
    obtain ⟨f, fs, hc, hcs, rfl⟩ := contributions_cons_eq_ok hf
    obtain ⟨rfl, hsw, hsb⟩ := runCheck_eq_ok ctx hx
    have hrec (h : (k, reply) ∈ Commanded.replies s₁.workspace ctx.root ctx.config.tools ks s₁.bench) :
        ∃ f' ∈ f :: fs, k.outcome ctx reply = .ok f' := by
      obtain ⟨f', hm, ho⟩ := ih hrest hcs h
      exact ⟨f', List.mem_cons_of_mem _ hm, ho⟩
    by_cases hi : k'.isRun s.workspace ctx.root ctx.config.tools = .ok true
    · rw [Commanded.run_of_isRun hi] at hc hsw hsb
      rcases List.mem_cons.mp (by simpa only [Commanded.replies, hi] using h) with he | h
      · obtain ⟨rfl, rfl⟩ : k = k' ∧ reply = _ := by simpa using he
        exact ⟨f, List.mem_cons_self, outcome_of_contribution ctx hc⟩
      · exact hrec (by rwa [hsw, hsb])
    · rw [Commanded.run_of_not_isRun hi] at hsw hsb
      rw [Commanded.replies_of_not_isRun _ _ _ hi] at h
      exact hrec (by rwa [hsw, hsb])

/-- The report of an audit holds what follows from the reply to every command that was run. -/
theorem run_eq_ok {root : Path} {config : Config} {report : Report}
    (h : (run root config Check.all s).1 = .ok report) :
    ∃ files fs n t, report = Report.build fs config.scoring n t ∧
      ∀ k reply, (k, reply) ∈ Commanded.replies s.workspace root config.tools Commanded.all s.bench →
        ∃ f ∈ fs, k.outcome ⟨root, config, files⟩ reply = .ok f := by
  obtain ⟨s', h⟩ : ∃ s', run root config Check.all s = (.ok report, s') := ⟨_, Prod.ext h rfl⟩
  obtain ⟨w, s₁, hw, h⟩ := Run.bind_eq_ok h
  cases hw
  obtain ⟨files, s₂, hf, h⟩ := Run.bind_eq_ok h
  rw [Run.lift_apply] at hf
  obtain rfl : s = s₂ := congrArg Prod.snd hf
  obtain ⟨_, s₃, hp, h⟩ := Run.bind_eq_ok h
  cases hp
  obtain ⟨went, s₄, hm, h⟩ := Run.bind_eq_ok h
  obtain ⟨fs, s₅, hc, h⟩ := Run.bind_eq_ok h
  cases h
  rw [Run.lift_apply] at hc
  refine ⟨files, fs, _, _, rfl, fun k reply hk => ?_⟩
  exact contributions_commanded ⟨root, config, files⟩ Commanded.all _ hm (congrArg Prod.fst hc) hk

end Audit

end QualityGate
