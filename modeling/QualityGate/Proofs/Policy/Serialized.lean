import QualityGate.Proofs.Policy.Interleaving
import QualityGate.Proofs.Policy.Transition

/-! However the calls on one protection overlap, its transitions take turns: the state is that of the last
one to succeed, the states made known are those of all that have succeeded, and a decision goes by the
state of its beginning. -/

namespace QualityGate.Interleaving

variable {p : Protection} {s : Session} {x y : Calls} {i : Nat} {c : Call} {d : Deed} {ds : List Deed}

/-- The state that a deed enters. -/
def Deed.entered? : Deed → Option PolicyState
  | .left _ (.ok state) => some state
  | _ => none

/-- Begins or ends a turn. -/
def Deed.isTurn : Deed → Bool
  | .turned _ | .left .. => true
  | _ => false

/-- The states of the transitions that have succeeded, in the order in which they ended. -/
def entered (ds : List Deed) : List PolicyState := ds.filterMap Deed.entered?

def stateAfter (ds : List Deed) : PolicyState := (entered ds).getLast?.getD {}

@[simp] theorem entered_nil : entered [] = [] := rfl

@[simp] theorem entered_cons (d : Deed) (ds : List Deed) : entered (d :: ds) = d.entered?.toList ++ entered ds := by
  cases h : d.entered? <;> simp [entered, h]

@[simp] theorem entered_append (ds ds' : List Deed) : entered (ds ++ ds') = entered ds ++ entered ds' :=
  List.filterMap_append

theorem Deed.entered?_eq_some {state : PolicyState} : d.entered? = some state ↔ ∃ i, d = .left i (.ok state) := by
  constructor
  · intro h
    cases d with
    | left i o =>
      cases o with
      | error => cases h
      | ok => exact ⟨i, by rw [Option.some.inj h]⟩
    | _ => cases h
  · rintro ⟨i, rfl⟩
    rfl

theorem stateAfter_snoc (ds : List Deed) (d : Deed) : stateAfter (ds ++ [d]) = d.entered?.getD (stateAfter ds) := by
  cases h : d.entered? <;> simp [stateAfter, h]

theorem entered_of_calm (h : ∀ d ∈ ds, d.isTurn = false) : entered ds = [] := by
  refine List.filterMap_eq_nil_iff.mpr fun d hd => ?_
  have hcalm := h d hd
  cases d <;> simp_all [Deed.isTurn, Deed.entered?]

/-- A turn that ends with a failure, with nothing but calm in it, enters nothing. -/
theorem entered_of_failed {earlier during : List Deed} {e : Failure} (h : ∀ d ∈ during, d.isTurn = false) :
    entered (earlier ++ .turned i :: during ++ [.left i (.error e)]) = entered earlier := by
  simp [entered_of_calm h, Deed.entered?]

/-- What the deeds enter is what becomes the state and is made known. -/
theorem Step.enters (h : Step p x d y) :
    y.state = d.entered?.getD x.state ∧ y.session.transitions = x.session.transitions ++ d.entered?.toList := by
  cases h with
  | ask => simp [Deed.entered?]
  | pass s h => simp [Deed.entered?, h]
  | move hi h =>
    cases h with
    | leave t o =>
      cases o <;> simp [Calls.did, Deed.entered?, Protection.enter_apply, Session.transitions, Event.state?]
    | _ => simp [Calls.did, Deed.entered?]

theorem Trace.enters (h : Trace p (.idle s) ds x) :
    x.state = stateAfter ds ∧ x.session.transitions = s.transitions ++ entered ds := by
  induction h with
  | nil => simp [Calls.idle, stateAfter, entered]
  | snoc _ hd ih =>
    rw [hd.enters.1, hd.enters.2, ih.1, ih.2, stateAfter_snoc]
    simp

section calls

theorem Step.call_cases (h : Step p x d y) (hc : y.calls[i]? = some c) :
    x.calls[i]? = some c ∨ (∃ q, d = .asked i q ∧ c = .first x.state q) ∨
      ∃ c₀, x.calls[i]? = some c₀ ∧ Move p x i c₀ d c := by
  cases h with
  | ask q =>
    rw [List.getElem?_append] at hc
    split at hc
    · exact .inl hc
    · obtain ⟨rfl, hi⟩ : Call.first x.state q = c ∧ i = x.calls.length := by
        rw [List.getElem?_singleton] at hc
        split at hc
        · exact ⟨Option.some.inj hc, by omega⟩
        · cases hc
      exact .inr (.inl ⟨q, by rw [hi], rfl⟩)
  | pass => exact .inl hc
  | @move j c₁ _ _ hj h =>
    rw [List.getElem?_set] at hc
    split at hc
    · subst j
      split at hc
      · exact .inr (.inr ⟨c₁, hj, Option.some.inj hc ▸ h⟩)
      · cases hc
    · exact .inl hc

/-- A call that has its answer keeps it. -/
theorem Step.answered {a : Outcome Answer} (h : Step p x d y) (hi : x.calls[i]? = some (.answered a)) :
    y.calls[i]? = some (.answered a) := by
  cases h with
  | ask q => rw [List.getElem?_append_left (List.getElem?_eq_some_iff.mp hi).1, hi]
  | pass => exact hi
  | @move j _ _ _ hj h =>
    by_cases hji : j = i
    · subst j
      rw [hi] at hj
      cases hj
      cases h
    · rw [← hi]
      exact List.getElem?_set_ne hji

end calls

section lock

/-- What becomes of the lock. -/
theorem Step.holder_cases (h : Step p x d y) :
    (∃ i, d = .turned i ∧ x.holder = none ∧ y.holder = some i) ∨
      (∃ i t o, d = .left i o ∧ x.calls[i]? = some (.working t (.ending o)) ∧
        y.calls[i]? = some (.answered (o.map (answerOf t))) ∧ y.holder = none) ∨
      d.isTurn = false ∧ y.holder = x.holder := by
  cases h with
  | ask => exact .inr (.inr ⟨rfl, rfl⟩)
  | pass => exact .inr (.inr ⟨rfl, rfl⟩)
  | @move i _ _ _ hi h =>
    cases h with
    | turn t hfree => exact .inl ⟨i, rfl, hfree, rfl⟩
    | leave t o =>
      refine .inr (.inl ⟨i, t, o, rfl, hi, ?_, by cases o <;> rfl⟩)
      exact List.getElem?_set_self (List.getElem?_eq_some_iff.mp hi).1
    | _ => exact .inr (.inr ⟨rfl, rfl⟩)

/-- Who works holds the lock; who took a turn still holds it or has ended; and since the holder took its
turn, no turn began or ended. -/
structure Locked (ds : List Deed) (x : Calls) : Prop where
  working : ∀ i t turn, x.calls[i]? = some (.working t turn) → x.holder = some i
  turned : ∀ i, .turned i ∈ ds → x.holder = some i ∨ ∃ o, .left i o ∈ ds
  alone : ∀ i, x.holder = some i →
    ∃ earlier during, ds = earlier ++ .turned i :: during ∧ ∀ d ∈ during, d.isTurn = false

theorem Locked.after_turn (hx : Locked ds x) (h : Step p x (.turned i) y) (hfree : x.holder = none)
    (hheld : y.holder = some i) : Locked (ds ++ [.turned i]) y := by
  refine ⟨fun j t turn hj => ?_, fun j hj => ?_, fun j hj => ?_⟩
  · rcases h.call_cases hj with hj | ⟨_, hasked, -⟩ | ⟨_, -, hmove⟩
    · cases hfree.symm.trans (hx.working j t turn hj)
    · cases hasked
    · cases hmove
      exact hheld
  · rcases List.mem_append.mp hj with hj | hj
    · rcases hx.turned j hj with hj | ⟨o, hleft⟩
      · cases hfree.symm.trans hj
      · exact .inr ⟨o, List.mem_append_left _ hleft⟩
    · cases List.mem_singleton.mp hj
      exact .inl hheld
  · cases hheld.symm.trans hj
    exact ⟨ds, [], rfl, by simp⟩

theorem Locked.after_leave {t : Transition} {o : Outcome PolicyState} (hx : Locked ds x) (h : Step p x (.left i o) y)
    (hworking : x.calls[i]? = some (.working t (.ending o)))
    (hanswered : y.calls[i]? = some (.answered (o.map (answerOf t)))) (hfree : y.holder = none) :
    Locked (ds ++ [.left i o]) y := by
  have hheld := hx.working i t _ hworking
  refine ⟨fun j t turn hj => ?_, fun j hj => ?_, fun j hj => ?_⟩
  · rcases h.call_cases hj with hsame | ⟨_, hasked, -⟩ | ⟨_, -, hmove⟩
    · cases hheld.symm.trans (hx.working j t turn hsame)
      cases hanswered.symm.trans hj
    · cases hasked
    · cases hmove
  · rcases List.mem_append.mp hj with hj | hj
    · rcases hx.turned j hj with hj | ⟨o', hleft⟩
      · cases hheld.symm.trans hj
        exact .inr ⟨o, by simp⟩
      · exact .inr ⟨o', List.mem_append_left _ hleft⟩
    · cases List.mem_singleton.mp hj
  · cases hfree.symm.trans hj

theorem Locked.after_calm (hx : Locked ds x) (h : Step p x d y) (hcalm : d.isTurn = false)
    (hsame : y.holder = x.holder) : Locked (ds ++ [d]) y := by
  refine ⟨fun j t turn hj => ?_, fun j hj => ?_, fun j hj => ?_⟩
  · rw [hsame]
    rcases h.call_cases hj with hj | ⟨q, -, hfirst⟩ | ⟨_, hj, hmove⟩
    · exact hx.working j t turn hj
    · cases q <;> cases hfirst
    · cases hmove with
      | turn => cases hcalm
      | resume => exact hx.working j t _ hj
  · rcases List.mem_append.mp hj with hj | hj
    · rw [hsame]
      exact (hx.turned j hj).imp_right fun h => h.imp fun _ hleft => List.mem_append_left _ hleft
    · rw [← List.mem_singleton.mp hj] at hcalm
      cases hcalm
  · obtain ⟨earlier, during, rfl, hduring⟩ := hx.alone j (hsame ▸ hj)
    refine ⟨earlier, during ++ [d], by simp, fun d' hd' => ?_⟩
    rcases List.mem_append.mp hd' with hd' | hd'
    · exact hduring d' hd'
    · rwa [List.mem_singleton.mp hd']

theorem Locked.step (hx : Locked ds x) (h : Step p x d y) : Locked (ds ++ [d]) y := by
  rcases h.holder_cases with ⟨i, rfl, hfree, hheld⟩ | ⟨i, t, o, rfl, hworking, hanswered, hfree⟩ | ⟨hcalm, hsame⟩
  · exact hx.after_turn h hfree hheld
  · exact hx.after_leave h hworking hanswered hfree
  · exact hx.after_calm h hcalm hsame

theorem Trace.locked (h : Trace p (.idle s) ds x) : Locked ds x := by
  induction h with
  | nil => exact ⟨by simp [Calls.idle], by simp, by simp [Calls.idle]⟩
  | snoc _ hd ih => exact ih.step hd

end lock

section asked

/-- The state that a transition leads to where it succeeds. -/
def LeadsTo (p : Protection) : Transition → PolicyState → Prop
  | .enable strict _, state => state.enabled = true ∧ state.level = p.levelFor strict
  | .disable _, state => state = {}
  | .restore saved, state => state = if saved.enabled then saved else {}

/-- Is on its way to where the transition leads. -/
def Turn.Leads (p : Protection) (t : Transition) : Turn → Prop
  | .counting strict installHooks | .sizing strict installHooks => t = .enable strict installHooks
  | .hooking next => LeadsTo p t next
  | .ending o => ∀ state, o = .ok state → LeadsTo p t state

theorem Turn.leads_first (p : Protection) (t : Transition) : (first t).Leads p t := by
  cases t with
  | enable => rfl
  | disable uninstallHooks =>
    cases uninstallHooks with
    | false =>
      rintro _ ⟨⟩
      rfl
    | true => rfl
  | restore =>
    rintro _ ⟨⟩
    rfl

theorem Turn.leads_classified (strict : Option Bool) (installHooks : Bool) (found : Outcome ProjectClass) :
    (classified p strict installHooks found).Leads p (.enable strict installHooks) := by
  rw [classified]
  split
  · rintro _ ⟨⟩
  · split
    · exact ⟨rfl, rfl⟩
    · rintro _ ⟨⟩
      exact ⟨rfl, rfl⟩

theorem Turn.Resumes.leads {a b : Turn} {t : Transition} (h : a.Resumes p b) (ha : a.Leads p t) : b.Leads p t := by
  cases h with
  | counted strict installHooks count =>
    obtain rfl : t = .enable strict installHooks := ha
    rw [Turn.counted]
    split
    · exact leads_classified ..
    · exact leads_classified ..
    · rfl
  | sized strict installHooks files =>
    obtain rfl : t = .enable strict installHooks := ha
    exact leads_classified ..
  | hooked next o =>
    cases o with
    | error e => rintro _ ⟨⟩
    | ok u =>
      rintro _ ⟨⟩
      exact ha

/-- What the deeds so far say of a call. -/
def Call.Sound (p : Protection) (ds : List Deed) (i : Nat) : Call → Prop
  | .queued t => .asked i (.transition t) ∈ ds
  | .working t turn => .asked i (.transition t) ∈ ds ∧ turn.Leads p t
  | .deciding snapshot r =>
    ∃ earlier during, ds = earlier ++ .asked i (.decide r) :: during ∧ snapshot = stateAfter earlier
  | _ => True

theorem Call.Sound.later (h : c.Sound p ds i) : c.Sound p (ds ++ [d]) i := by
  cases c with
  | queued t => exact List.mem_append_left _ h
  | working t turn => exact ⟨List.mem_append_left _ h.1, h.2⟩
  | deciding snapshot r =>
    obtain ⟨earlier, during, rfl, hsnapshot⟩ := h
    exact ⟨earlier, during ++ [d], by simp, hsnapshot⟩
  | _ => trivial

theorem Trace.sound (h : Trace p (.idle s) ds x) (hc : x.calls[i]? = some c) : c.Sound p ds i := by
  induction h generalizing i c with
  | nil => simp [Calls.idle] at hc
  | @snoc ds d y x h hd ih =>
    rcases hd.call_cases hc with hc | ⟨q, rfl, rfl⟩ | ⟨c₀, hc₀, hmove⟩
    · exact (ih hc).later
    · cases q with
      | transition t => simp [Call.first, Call.Sound]
      | decide r => exact ⟨ds, [], rfl, h.enters.1⟩
      | classify => trivial
    · have hsound := ih hc₀
      cases hmove with
      | turn t => exact ⟨List.mem_append_left _ hsound, Turn.leads_first p t⟩
      | resume t hturn => exact ⟨List.mem_append_left _ hsound.1, hturn.leads hsound.2⟩
      | _ => trivial

/-- What a transition ends with is its answer, and where it succeeds it has led to what was asked for. -/
theorem Trace.left (h : Trace p (.idle s) ds x) {o : Outcome PolicyState} (hleft : .left i o ∈ ds) :
    ∃ t, .asked i (.transition t) ∈ ds ∧ x.calls[i]? = some (.answered (o.map (answerOf t))) ∧
      ∀ state, o = .ok state → LeadsTo p t state := by
  induction h with
  | nil => cases hleft
  | @snoc ds d y x h hd ih =>
    rcases List.mem_append.mp hleft with hleft | hleft
    · obtain ⟨t, hasked, hanswered, hleads⟩ := ih hleft
      exact ⟨t, List.mem_append_left _ hasked, hd.answered hanswered, hleads⟩
    · cases List.mem_singleton.mp hleft
      rcases hd.holder_cases with ⟨_, hd, -⟩ | ⟨_, t, _, ⟨⟩, hworking, hanswered, -⟩ | ⟨⟨⟩, -⟩
      · cases hd
      · obtain ⟨hasked, hleads⟩ := h.sound hworking
        exact ⟨t, List.mem_append_left _ hasked, hanswered, hleads⟩

theorem LeadsTo.default {t : Transition} {state : PolicyState} (h : LeadsTo p t state) (hoff : state.enabled = false) :
    state = {} := by
  cases t with
  | enable => cases h.1.symm.trans hoff
  | disable => exact h
  | restore saved =>
    obtain rfl : state = if saved.enabled then saved else {} := h
    split
    · rename_i hon
      rw [if_pos hon, hon] at hoff
      cases hoff
    · rfl

theorem Trace.default (h : Trace p (.idle s) ds x) (hoff : x.state.enabled = false) : x.state = {} := by
  rw [h.enters.1, stateAfter] at hoff ⊢
  cases hlast : (entered ds).getLast? with
  | none => rfl
  | some state =>
    rw [hlast] at hoff
    obtain ⟨d, hd, hentered⟩ := List.mem_filterMap.mp (List.mem_of_getLast? hlast)
    obtain ⟨i, rfl⟩ := Deed.entered?_eq_some.mp hentered
    obtain ⟨t, -, -, hleads⟩ := h.left hd
    exact (hleads state rfl).default hoff

theorem Step.decided {o : Outcome Decision} (h : Step p x (.decided i o) y) :
    y.calls[i]? = some (.answered (o.map .decided)) ∧ ∃ snapshot r count audit,
      x.calls[i]? = some (.deciding snapshot r) ∧ o = ((p.answering count audit).decide snapshot r x.session).1 := by
  cases h with
  | move hi h =>
    cases h with
    | decide snapshot r count audit ho =>
      exact ⟨List.getElem?_set_self (List.getElem?_eq_some_iff.mp hi).1, snapshot, r, count, audit, hi, ho.symm⟩

theorem Trace.decided (h : Trace p (.idle s) ds x) {o : Outcome Decision} (hdecided : .decided i o ∈ ds) :
    x.calls[i]? = some (.answered (o.map .decided)) := by
  induction h with
  | nil => cases hdecided
  | snoc _ hd ih =>
    rcases List.mem_append.mp hdecided with hdecided | hdecided
    · exact hd.answered (ih hdecided)
    · cases List.mem_singleton.mp hdecided
      exact hd.decided.1

end asked

section earlier

variable {before after : List Deed}

theorem Trace.apart (h : Trace p (.idle s) (before ++ .turned i :: after) x) {j : Nat} (hj : .turned j ∈ before) :
    ∃ o, .left j o ∈ before := by
  obtain ⟨y, y', hbefore, hturned⟩ := h.split
  rcases hturned.holder_cases with ⟨_, -, hfree, -⟩ | ⟨_, _, _, hleft, -⟩ | ⟨hcalm, -⟩
  · rcases hbefore.locked.turned j hj with hheld | hleft
    · cases hfree.symm.trans hheld
    · exact hleft
  · cases hleft
  · cases hcalm

/-- No turn begins or ends between the two ends of a turn. -/
theorem Trace.alone {o : Outcome PolicyState} (h : Trace p (.idle s) (before ++ .left i o :: after) x) :
    ∃ earlier during, before = earlier ++ .turned i :: during ∧ ∀ d ∈ during, d.isTurn = false := by
  obtain ⟨y, y', hbefore, hleft⟩ := h.split
  rcases hleft.holder_cases with ⟨_, hturned, -⟩ | ⟨_, t, _, ⟨⟩, hworking, -⟩ | ⟨hcalm, -⟩
  · cases hturned
  · exact hbefore.locked.alone i (hbefore.locked.working i t _ hworking)
  · cases hcalm

theorem Trace.snapshot {o : Outcome Decision} (h : Trace p (.idle s) (before ++ .decided i o :: after) x) :
    ∃ earlier during r count audit s', before = earlier ++ .asked i (.decide r) :: during ∧
      o = ((p.answering count audit).decide (stateAfter earlier) r s').1 := by
  obtain ⟨y, y', hbefore, hdecided⟩ := h.split
  obtain ⟨-, snapshot, r, count, audit, hi, ho⟩ := hdecided.decided
  obtain ⟨earlier, during, hearlier, rfl⟩ := hbefore.sound hi
  exact ⟨earlier, during, r, count, audit, y.session, hearlier, ho⟩

end earlier

end QualityGate.Interleaving
