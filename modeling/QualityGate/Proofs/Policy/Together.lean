import QualityGate.Proofs.Policy.Serialized

/-! Demands that are served together are calls that overlap: each is brought to its answer by the steps of the
calls, with its waits as long as the work takes. -/

namespace QualityGate

open Run (Observes)

/-- Makes no transition known. -/
def Run.Silent {α : Type} (t : Run α) : Prop := ∀ s, (t s).2.transitions = s.transitions

namespace Run.Silent

variable {α β : Type} {t : Run α}

theorem edit (e : Edit α) : Silent (Run.edit e) := fun _ => rfl

theorem bind {f : α → Run β} (h : Silent t) (hf : ∀ a, Silent (f a)) : Silent (t >>= f) := by
  intro s
  have hs := h s
  rw [bind_apply]
  rcases ht : t s with ⟨_ | a, s'⟩
  · rwa [ht] at hs
  · rw [ht] at hs
    exact (hf a s').trans hs

end Run.Silent

namespace Protection

variable (p : Protection)

theorem configureGit_silent (protection strict : Bool) : Run.Silent (p.configureGit protection strict) :=
  .bind (fun _ => rfl) fun _ => .edit _

theorem installHooks_silent (level : EnforcementLevel) : Run.Silent (p.installHooks level) :=
  .bind (.edit _) fun _ => .bind (p.configureGit_silent _ _) fun _ _ => rfl

theorem uninstallHooks_silent : Run.Silent p.uninstallHooks :=
  .bind (.edit _) fun _ => .bind (p.configureGit_silent _ _) fun _ _ => rfl

/-- A decision needs of the audit and the count no more than what they come to. -/
theorem decide_answering (snapshot : PolicyState) (r : Request) (s : Session) :
    ((p.answering (p.count s).1 (p.audit s).1).decide snapshot r s).1 = (p.decide snapshot r s).1 := by
  obtain ⟨trigger, file, override⟩ := r
  rw [decide, decide]
  split
  · rfl
  · cases trigger with
    | save => cases file <;> rfl
    | commit =>
      simp only [answering]
      split
      · rfl
      · simp [Run.bind_apply]
    | build => simp [answering, Run.bind_apply]

theorem classify_answering (audit : Outcome Report) (s : Session) :
    ((p.answering (p.count s).1 audit).classify (p.count s).2).1 = (p.classify s).1 := by
  simp [classify_apply, answering, classAfter]

end Protection

namespace Interleaving

variable {p : Protection} {x y z : Calls} {i : Nat}

/-- What is done to the git hooks before a state is entered. -/
def changeHooks (p : Protection) (next : PolicyState) : Run Unit :=
  if next.enabled then p.installHooks next.level else p.uninstallHooks

theorem changeHooks_silent (p : Protection) (next : PolicyState) : Run.Silent (changeHooks p next) := by
  rw [changeHooks]
  split
  · exact p.installHooks_silent _
  · exact p.uninstallHooks_silent

/-- The rest of a turn, done without a pause. -/
def Turn.run (p : Protection) : Turn → Run PolicyState
  | .counting strict installHooks => do p.enableAs strict installHooks (← Run.attempt p.classify)
  | .sizing strict installHooks => do p.enableAs strict installHooks (← Run.attempt p.classOfFiles)
  | .hooking next => do
    changeHooks p next
    Protection.enter next
  | .ending o => do Protection.enter (← Run.lift o)

theorem Turn.run_first (p : Protection) (t : Transition) : (first t).run p = p.perform t := by
  cases t with
  | enable => rfl
  | disable uninstallHooks => cases uninstallHooks <;> rfl
  | restore => rfl

theorem Turn.run_classified (p : Protection) (strict : Option Bool) (installHooks : Bool)
    (found : Outcome ProjectClass) :
    (classified p strict installHooks found).run p = p.enableAs strict installHooks found := by
  funext s
  rw [classified, Protection.enableAs, Run.bind_apply, Run.lift_apply]
  rcases Protection.settledClass found with e | projectClass
  · rfl
  · cases installHooks <;> rfl

theorem Turn.run_counted (p : Protection) (strict : Option Bool) (installHooks : Bool) (s : Session) :
    (counted p strict installHooks (p.count s).1).run p (p.count s).2 = (counting strict installHooks).run p s := by
  have hcounting : (counting strict installHooks).run p s =
      p.enableAs strict installHooks (p.classAfter (p.count s).1 (p.count s).2.workspace) (p.count s).2 := by
    rw [run, Run.bind_apply, Run.attempt_apply, Protection.classify_apply]
  rw [hcounting, counted, Protection.classAfter]
  rcases Protection.classOfCount (p.count s).1 with e | _ | c
  · exact congrFun (run_classified p strict installHooks (.error e)) _
  · show (sizing strict installHooks).run p (p.count s).2 = _
    rw [run, Run.bind_apply, Run.attempt_apply, Protection.classOfFiles_apply]
  · exact congrFun (run_classified p strict installHooks (.ok c)) _

def Reaches (p : Protection) (x y : Calls) : Prop := ∃ ds, Trace p x ds y

namespace Reaches

theorem refl (x : Calls) : Reaches p x x := ⟨[], .nil⟩

theorem trans (h : Reaches p x y) (h' : Reaches p y z) : Reaches p x z := by
  obtain ⟨ds, h⟩ := h
  obtain ⟨ds', h'⟩ := h'
  exact ⟨ds ++ ds', h.trans h'⟩

theorem single {d : Deed} (h : Step p x d y) : Reaches p x y := ⟨[d], .single h⟩

end Reaches

section turns

variable {t : Transition} {a : Turn} {s : Session} {strict : Option Bool} {installHooks : Bool}

/-- The calls once a transition has come to its end. -/
def Calls.settle (x : Calls) (i : Nat) (t : Transition) : Outcome PolicyState × Session → Calls
  | (.ok state, session) =>
    { session, state, calls := x.calls.set i (.answered (.ok (answerOf t state))) }
  | (.error e, session) =>
    { session, state := x.state, calls := x.calls.set i (.answered (.error e)) }

theorem Calls.settle_working (c : Call) (r : Outcome PolicyState × Session) :
    { x with session := s, calls := x.calls.set i c }.settle i t r = x.settle i t r := by
  rcases r with ⟨_ | state, s'⟩ <;> simp [settle]

/-- The calls from which a turn comes to its end as if it were done without a pause. -/
def Turn.Ends (p : Protection) (a : Turn) : Prop :=
  ∀ (x : Calls) (i : Nat) (t : Transition), x.calls[i]? = some (.working t a) →
    Reaches p x (x.settle i t (a.run p x.session))

theorem Turn.Ends.of_resumes
    (h : ∀ s, ∃ b s', a.Resumes p b ∧ s'.transitions = s.transitions ∧ b.run p s' = a.run p s ∧ b.Ends p) :
    a.Ends p := by
  intro x i t hi
  obtain ⟨b, s', hab, hsilent, hrun, hb⟩ := h x.session
  let y : Calls := { x with session := s' }
  have hwork : Reaches p x y := .single (.pass x s' hsilent)
  have hresume : Reaches p y { y with calls := y.calls.set i (.working t b) } :=
    .single (.move (x := y) hi (.resume t hab))
  have hend := hb { y with calls := y.calls.set i (.working t b) } i t
    (List.getElem?_set_self (List.getElem?_eq_some_iff.mp hi).1)
  rw [Calls.settle_working, hrun] at hend
  exact hwork.trans (hresume.trans hend)

theorem Turn.ends_ending (o : Outcome PolicyState) : (ending o).Ends p := by
  intro x i t hi
  have h : Step p x (.left i o) _ := .move hi (.leave t o)
  cases o <;> exact .single h

theorem Turn.ends_hooking (next : PolicyState) : (hooking next).Ends p := by
  have hsilent := changeHooks_silent p next
  refine .of_resumes fun s => ⟨_, _, .hooked next (changeHooks p next s).1, hsilent s, ?_, ends_ending _⟩
  rw [run, run, Run.bind_apply, Run.bind_apply, Run.lift_apply]
  rcases changeHooks p next s with ⟨_ | _, s'⟩ <;> rfl

theorem Turn.ends_classified (found : Outcome ProjectClass) : (classified p strict installHooks found).Ends p := by
  rw [classified]
  split
  · exact ends_ending _
  · split
    · exact ends_hooking _
    · exact ends_ending _

theorem Turn.ends_sizing : (sizing strict installHooks).Ends p := by
  refine .of_resumes fun s => ⟨_, s, .sized strict installHooks (Discovery.files s.workspace p.root p.config.files),
    rfl, ?_, ends_classified _⟩
  rw [run_classified, run, Run.bind_apply, Run.attempt_apply, Protection.classOfFiles_apply]

theorem Turn.ends_counting (hcount : Observes p.count) : (counting strict installHooks).Ends p := by
  refine .of_resumes fun s =>
    ⟨_, _, .counted strict installHooks (p.count s).1, (hcount s).transitions, run_counted .., ?_⟩
  rw [counted]
  split
  · exact ends_classified _
  · exact ends_classified _
  · exact ends_sizing

theorem Turn.ends (hcount : Observes p.count) (a : Turn) : a.Ends p := by
  cases a with
  | counting => exact ends_counting hcount
  | sizing => exact ends_sizing
  | hooking next => exact ends_hooking next
  | ending o => exact ends_ending o

end turns

section calls

open Protected (transit answerFrom classifyNow serve begin beginAll finish finishAll serveTogether)

/-- A call has its answer, and the rest is as given. -/
def Calls.gives (x : Calls) (i : Nat) (r : Outcome Answer × Protected) : Calls :=
  { x with toProtected := r.2, calls := x.calls.set i (.answered r.1) }

theorem transit_reached {t : Transition} (hcount : Observes p.count) (hi : x.calls[i]? = some (.queued t))
    (hfree : x.holder = none) : Reaches p x (x.gives i (transit p t x.toProtected)) := by
  let y : Calls := { x with holder := some i, calls := x.calls.set i (.working t (.first t)) }
  have hturn : Reaches p x y := .single (.move hi (.turn t hfree))
  have hend := Turn.ends hcount (.first t) y i t (List.getElem?_set_self (List.getElem?_eq_some_iff.mp hi).1)
  have hsettle : y.settle i t ((Turn.first t).run p y.session) = x.gives i (transit p t x.toProtected) := by
    rw [Turn.run_first, Calls.gives, transit]
    show y.settle i t (p.perform t x.session) = _
    rcases p.perform t x.session with ⟨e | state, s⟩ <;> simp [Calls.settle, y, hfree]
    cases t <;> rfl
  exact hsettle ▸ hturn.trans hend

theorem answer_reached {snapshot : PolicyState} {r : Request} (hcount : Observes p.count) (haudit : Observes p.audit)
    (hi : x.calls[i]? = some (.deciding snapshot r)) :
    Reaches p x (x.gives i (answerFrom p snapshot r x.toProtected)) := by
  have hdecided : Reaches p x { x with
      calls := x.calls.set i (.answered ((p.decide snapshot r x.session).1.map .decided)) } :=
    .single (.move hi (.decide snapshot r _ _ (p.decide_answering snapshot r x.session)))
  exact hdecided.trans (.single (.pass _ _ (Protection.decide_observes hcount haudit snapshot r x.session).transitions))

theorem classify_reached (hcount : Observes p.count) (hi : x.calls[i]? = some .classifying) :
    Reaches p x (x.gives i (classifyNow p x.toProtected)) := by
  let y : Calls := { x with session := (p.count x.session).2 }
  have hcounted : Reaches p x y := .single (.pass x _ (hcount x.session).transitions)
  have hclassified : Reaches p y { y with
      calls := y.calls.set i (.answered ((p.classify x.session).1.map .classified)) } :=
    .single (.move (x := y) hi (.classify _ (p.audit x.session).1 (p.classify_answering _ x.session)))
  have hgives : { y with calls := y.calls.set i (.answered ((p.classify x.session).1.map .classified)) } =
      x.gives i (classifyNow p x.toProtected) := by
    simp only [Calls.gives, classifyNow, y, Protection.classify_apply]
  exact hgives ▸ hcounted.trans hclassified

/-- The call that what is left to do for a demand belongs to. -/
inductive Stands : Progress → Call → Prop where
  | done (a : Outcome Answer) : Stands (.done a) (.answered a)
  | queued (t : Transition) : Stands (.waiting (.transition t)) (.queued t)
  | classifying : Stands (.waiting .classify) .classifying
  | deciding (snapshot : PolicyState) (r : Request) : Stands (.deciding snapshot r) (.deciding snapshot r)

/-- A demand whose call is answered at once. -/
theorem asked_reached {d : Demand} {r : Outcome Answer × Protected}
    (h : ∀ y : Calls, y = { x with calls := x.calls ++ [.first x.state d] } →
      Reaches p y (y.gives x.calls.length r)) :
    Reaches p x { x with toProtected := r.2, calls := x.calls ++ [.answered r.1] } := by
  have hanswered := h _ rfl
  rw [Calls.gives, List.set_append_right _ _ (Nat.le_refl _), Nat.sub_self, List.set_cons_zero] at hanswered
  exact (Reaches.single (.ask x d)).trans hanswered

theorem begin_reached (hcount : Observes p.count) (haudit : Observes p.audit) (busy : Bool) (d : Demand)
    (hfree : x.holder = none) :
    ∃ c, Stands (begin p busy x.toProtected d).1 c ∧
      Reaches p x { x with toProtected := (begin p busy x.toProtected d).2.2, calls := x.calls ++ [c] } := by
  cases d with
  | transition t =>
    rw [begin]
    split
    · exact ⟨_, .queued t, .single (.ask x (.transition t))⟩
    · refine ⟨_, .done _, asked_reached (d := .transition t) ?_⟩
      rintro _ rfl
      exact transit_reached hcount (by simp [Call.first]) hfree
  | decide r =>
    rw [begin]
    split
    · exact ⟨_, .deciding x.state r, .single (.ask x (.decide r))⟩
    · refine ⟨_, .done _, asked_reached (d := .decide r) ?_⟩
      rintro _ rfl
      exact answer_reached hcount haudit (by simp [Call.first])
  | classify => exact ⟨_, .classifying, .single (.ask x .classify)⟩

theorem beginAll_reached (hcount : Observes p.count) (haudit : Observes p.audit) (busy : Bool) (ds : List Demand)
    (hfree : x.holder = none) :
    ∃ cs, List.Forall₂ Stands (beginAll p busy x.toProtected ds).1 cs ∧
      Reaches p x { x with toProtected := (beginAll p busy x.toProtected ds).2, calls := x.calls ++ cs } := by
  induction ds generalizing x busy with
  | nil => exact ⟨[], .nil, by rw [List.append_nil]; exact .refl x⟩
  | cons d ds ih =>
    obtain ⟨c, hc, hbegun⟩ := begin_reached hcount haudit busy d hfree
    let y : Calls := { x with toProtected := (begin p busy x.toProtected d).2.2, calls := x.calls ++ [c] }
    obtain ⟨cs, hcs, hrest⟩ := ih (x := y) (begin p busy x.toProtected d).2.1 hfree
    simp only [y, List.append_assoc] at hrest
    exact ⟨c :: cs, .cons hc hcs, hbegun.trans hrest⟩

theorem finish_reached {w : Progress} {c : Call} (hcount : Observes p.count) (haudit : Observes p.audit)
    (h : Stands w c) (hi : x.calls[i]? = some c) (hfree : x.holder = none) :
    Reaches p x (x.gives i (finish p x.toProtected w)) := by
  cases h with
  | done a =>
    obtain ⟨_, hget⟩ := List.getElem?_eq_some_iff.mp hi
    rw [finish, Calls.gives, ← hget, List.set_getElem_self]
    exact .refl x
  | queued t => exact transit_reached hcount hi hfree
  | classifying => exact classify_reached hcount hi
  | deciding snapshot r => exact answer_reached hcount haudit hi

theorem finishAll_reached {ws : List Progress} {b cs : List Call} (hcount : Observes p.count)
    (haudit : Observes p.audit) (h : List.Forall₂ Stands ws cs) (hcalls : x.calls = b ++ cs)
    (hfree : x.holder = none) :
    Reaches p x { x with
      toProtected := (finishAll p x.toProtected ws).2
      calls := b ++ (finishAll p x.toProtected ws).1.map .answered } := by
  induction h generalizing x b with
  | nil =>
    show Reaches p x { x with calls := b ++ [] }
    rw [← hcalls]
    exact .refl x
  | @cons w c ws cs hw _ ih =>
    have hi : x.calls[b.length]? = some c := by simp [hcalls]
    have hfirst := finish_reached hcount haudit hw hi hfree
    have hrest := ih (x := x.gives b.length (finish p x.toProtected w))
      (b := b ++ [.answered (finish p x.toProtected w).1]) (by simp [Calls.gives, hcalls]) hfree
    rw [List.append_assoc] at hrest
    exact hfirst.trans hrest

/-- Demands that are served together are calls of one trace, each with its answer. -/
theorem serveTogether_reached (hcount : Observes p.count) (haudit : Observes p.audit) (s : Session) (ds : List Demand) :
    Reaches p (.idle s) {
      toProtected := (serveTogether p { session := s } ds).2
      calls := (serveTogether p { session := s } ds).1.map .answered } := by
  obtain ⟨cs, hcs, hbegun⟩ := beginAll_reached (x := .idle s) hcount haudit false ds rfl
  exact hbegun.trans (finishAll_reached (b := []) hcount haudit hcs rfl rfl)

/-- Whatever is demanded together, the state is the last that was made known. -/
theorem serveTogether_state (hcount : Observes p.count) (haudit : Observes p.audit) {s : Session}
    (hs : s.transitions = []) (ds : List Demand) :
    (serveTogether p { session := s } ds).2.state =
      (serveTogether p { session := s } ds).2.session.transitions.getLast?.getD {} := by
  obtain ⟨deeds, h⟩ := serveTogether_reached hcount haudit s ds
  obtain ⟨hstate, hpublished⟩ := h.enters
  rw [hs, List.nil_append] at hpublished
  rw [hpublished]
  exact hstate

end calls

/-- What the deeds so far have to do with the calls and with what they share. -/
structure Orderly (p : Protection) (s : Session) (ds : List Deed) (x : Calls) : Prop where
  /-- Whoever took a turn before another has ended before it. -/
  apart : ∀ before after i j, ds = before ++ .turned j :: after → .turned i ∈ before → ∃ o, .left i o ∈ before
  state : x.state = stateAfter ds
  published : x.session.transitions = s.transitions ++ entered ds
  /-- A transition that fails has entered nothing since its turn began, and nor has any other. -/
  failed : ∀ before after i e, ds = before ++ .left i (.error e) :: after →
    ∃ earlier during, before = earlier ++ .turned i :: during ∧
      entered (before ++ [.left i (.error e)]) = entered earlier
  off : x.state.enabled = false → x.state = {}
  left : ∀ i o, .left i o ∈ ds → ∃ t, .asked i (.transition t) ∈ ds ∧
    x.calls[i]? = some (.answered (o.map (answerOf t))) ∧ ∀ state, o = .ok state → LeadsTo p t state
  decided : ∀ before after i o, ds = before ++ .decided i o :: after →
    x.calls[i]? = some (.answered (o.map .decided)) ∧
      ∃ earlier during r count audit s', before = earlier ++ .asked i (.decide r) :: during ∧
        o = ((p.answering count audit).decide (stateAfter earlier) r s').1

/-- However calls overlap, their transitions take turns and their decisions go by the state of their
beginning; and demands that are served together are such calls. -/
theorem transitions_take_turns (p : Protection) (s : Session) :
    (∀ ds x, Trace p (.idle s) ds x → Orderly p s ds x) ∧
      (Observes p.count → Observes p.audit → ∀ demands, Reaches p (.idle s) {
        toProtected := (Protected.serveTogether p { session := s } demands).2
        calls := (Protected.serveTogether p { session := s } demands).1.map .answered }) := by
  refine ⟨fun ds x h => ?_, fun hcount haudit demands => serveTogether_reached hcount haudit s demands⟩
  refine ⟨?apart, h.enters.1, h.enters.2, ?failed, h.default, fun i o => h.left, ?decided⟩
  case apart =>
    rintro before after i j rfl
    exact h.apart
  case failed =>
    rintro before after i e rfl
    obtain ⟨earlier, during, rfl, hduring⟩ := h.alone
    exact ⟨earlier, during, rfl, entered_of_failed hduring⟩
  case decided =>
    rintro before after i o rfl
    exact ⟨h.decided (by simp), h.snapshot⟩

/-- Enabling protection fails over its hooks, then succeeds without them. Of two decisions on a build, the one
that was asked for before goes by the state without protection, though it is made after. -/
theorem take_turns_after_failure :
    let p := Protection.standard ⟨"/", ["w"]⟩ {} none
    let s : Session := { workspace := { root := ⟨"/", ["w"]⟩ }, now := { year := 2024, month := 1, day := 1 } }
    let failing : Transition := .enable (some true) true
    let plain : Transition := .enable none false
    let build : Request := { trigger := .build }
    let on : PolicyState := { enabled := true, projectClass := .legacyWithErrors }
    let allowed : Decision := { allowed := true, reason := "Protection is disabled", trigger := .build }
    let blocked : Decision :=
      { allowed := false, reason := "Build blocked (advisory): project contains 1 error(s) (lint: 1), 0 warning(s)",
        trigger := .build, errors := 1, details := [(.typeCheck, {}), (.lint, { errors := 1 })],
        projectClass := .legacyWithErrors }
    let ds : List Deed := [.asked 0 (.transition failing), .asked 1 (.transition plain), .asked 2 (.decide build),
      .turned 0, .other, .other, .left 0 (.error (.hook "taken")), .turned 1, .other, .left 1 (.ok on),
      .asked 3 (.decide build), .decided 2 (.ok allowed), .decided 3 (.ok blocked)]
    let demands : List Demand := [.transition failing, .transition plain, .decide build]
    (∃ x, Trace p (.idle s) ds x ∧ Orderly p s ds x ∧ x.state = on ∧ x.session.transitions = [on]) ∧
      Observes p.count ∧ Observes p.audit ∧ Reaches p (.idle s) {
        toProtected := (Protected.serveTogether p { session := s } demands).2
        calls := (Protected.serveTogether p { session := s } demands).1.map .answered } := by
  intro p s failing plain build on allowed blocked ds demands
  let count : Outcome ErrorCount := .ok { lintErrors := 1 }
  let audit : Outcome Report := .error (.gate "")
  let taken : Failure := .hook "taken"
  have hverdict : on.buildVerdict count = .ok blocked := rfl
  have hblocked (v : Session) : ((p.answering count audit).decide on build v).1 = .ok blocked := by
    rw [← hverdict]
    simp [Protection.decide, Protection.answering, Run.bind_apply, on, build]
  have hasked := ((Trace.single (p := p) (.ask (.idle s) (.transition failing))).snoc (.ask _ (.transition plain))).snoc
    (.ask _ (.decide build))
  have hcounted := (hasked.snoc (.move (i := 0) rfl (.turn failing rfl))).snoc
    (.move (i := 0) rfl (.resume failing (.counted _ _ count)))
  have hfailed := (hcounted.snoc (.move (i := 0) rfl (.resume failing (.hooked _ (.error taken))))).snoc
    (.move (i := 0) rfl (.leave failing (.error taken)))
  have hagain := (hfailed.snoc (.move (i := 1) rfl (.turn plain rfl))).snoc
    (.move (i := 1) rfl (.resume plain (.counted _ _ count)))
  have hentered := (hagain.snoc (.move (i := 1) rfl (.leave plain (.ok on)))).snoc (.ask _ (.decide build))
  have htrace : Trace p (.idle s) ds _ :=
    (hentered.snoc (.move (i := 2) rfl (.decide {} build count audit (o := .ok allowed) rfl))).snoc
      (.move (i := 3) rfl (.decide on build count audit (o := .ok blocked) (hblocked _)))
  have hcount : Observes p.count := Protection.standard_count_observes _ _ _
  have haudit : Observes p.audit := Protection.standard_audit_observes _ _ _
  obtain ⟨horderly, htogether⟩ := transitions_take_turns p s
  exact ⟨⟨_, htrace, horderly ds _ htrace, rfl, rfl⟩, hcount, haudit, htogether hcount haudit demands⟩

end Interleaving

end QualityGate
