import Mathlib.Data.List.Induction
import QualityGate.Policy.Concurrent
import QualityGate.Proofs.Observe

/-! Calls on one protection that overlap in time. A call runs alone from one await to the next; while it
waits, the others may go on, and what it waits for may take any time and come to anything. A transition
holds the lock from its turn to its end. -/

namespace QualityGate

/-- The same protection, whose count and audit have come to these outcomes. -/
def Protection.answering (p : Protection) (count : Outcome ErrorCount) (audit : Outcome Report) : Protection :=
  { p with count := Run.lift count, audit := Run.lift audit }

namespace Interleaving

/-- A transition that has its turn: what it waits for, or how it ends. -/
inductive Turn where
  | counting (strict : Option Bool) (installHooks : Bool)
  | sizing (strict : Option Bool) (installHooks : Bool)
  /-- The git hooks are being changed, before the state is entered. -/
  | hooking (next : PolicyState)
  | ending (o : Outcome PolicyState)

namespace Turn

def first : Transition → Turn
  | .enable strict installHooks => .counting strict installHooks
  | .disable true => .hooking {}
  | .disable false => .ending (.ok {})
  | .restore state => .ending (.ok (if state.enabled then state else {}))

/-- Once the project is classified. -/
def classified (p : Protection) (strict : Option Bool) (installHooks : Bool) (found : Outcome ProjectClass) : Turn :=
  match Protection.settledClass found with
  | .error e => .ending (.error e)
  | .ok projectClass =>
    let next : PolicyState := { enabled := true, level := p.levelFor strict, projectClass }
    if installHooks then .hooking next else .ending (.ok next)

/-- Once the errors are counted. -/
def counted (p : Protection) (strict : Option Bool) (installHooks : Bool) (count : Outcome ErrorCount) : Turn :=
  match Protection.classOfCount count with
  | .error e => classified p strict installHooks (.error e)
  | .ok (some c) => classified p strict installHooks (.ok c)
  | .ok none => .sizing strict installHooks

/-- How a turn goes on after an await. -/
inductive Resumes (p : Protection) : Turn → Turn → Prop where
  | counted (strict : Option Bool) (installHooks : Bool) (count : Outcome ErrorCount) :
    Resumes p (.counting strict installHooks) (counted p strict installHooks count)
  | sized (strict : Option Bool) (installHooks : Bool) (files : Outcome (List Path)) :
    Resumes p (.sizing strict installHooks)
      (classified p strict installHooks (Protection.classOfSize p.config.newProjectFileThreshold files))
  | hooked (next : PolicyState) (o : Outcome Unit) : Resumes p (.hooking next) (.ending (o.map fun _ => next))

end Turn

/-- How far a call has come. -/
inductive Call where
  /-- Waits for the lock. -/
  | queued (t : Transition)
  | working (t : Transition) (turn : Turn)
  /-- Has its snapshot of the state. -/
  | deciding (snapshot : PolicyState) (r : Request)
  | classifying
  | answered (a : Outcome Answer)

def Call.first (state : PolicyState) : Demand → Call
  | .transition t => .queued t
  | .decide r => .deciding state r
  | .classify => .classifying

/-- What is told apart of what is done, and which call does it. -/
inductive Deed where
  | asked (i : Nat) (d : Demand)
  | turned (i : Nat)
  | left (i : Nat) (o : Outcome PolicyState)
  | decided (i : Nat) (o : Outcome Decision)
  | other

/-- The calls so far, with what they share. -/
structure Calls extends Protected where
  /-- The call that holds the lock. -/
  holder : Option Nat := none
  calls : List Call := []

namespace Calls

def idle (s : Session) : Calls := { session := s }

/-- What a deed does to what the calls share. -/
def did (x : Calls) : Deed → Calls
  | .turned i => { x with holder := some i }
  | .left _ (.ok state) => { x with session := (Protection.enter state x.session).2, state, holder := none }
  | .left _ (.error _) => { x with holder := none }
  | _ => x

end Calls

def answerOf (t : Transition) (state : PolicyState) : Answer :=
  match t with
  | .restore _ => .restored
  | _ => .entered state

/-- What a call does next. -/
inductive Move (p : Protection) (x : Calls) (i : Nat) : Call → Deed → Call → Prop where
  | turn (t : Transition) (hfree : x.holder = none) : Move p x i (.queued t) (.turned i) (.working t (.first t))
  | resume (t : Transition) {a b : Turn} (h : a.Resumes p b) : Move p x i (.working t a) .other (.working t b)
  | leave (t : Transition) (o : Outcome PolicyState) :
    Move p x i (.working t (.ending o)) (.left i o) (.answered (o.map (answerOf t)))
  | decide (snapshot : PolicyState) (r : Request) (count : Outcome ErrorCount) (audit : Outcome Report)
    {o : Outcome Decision} (h : ((p.answering count audit).decide snapshot r x.session).1 = o) :
    Move p x i (.deciding snapshot r) (.decided i o) (.answered (o.map .decided))
  | classify (count : Outcome ErrorCount) (audit : Outcome Report) {o : Outcome ProjectClass}
    (h : ((p.answering count audit).classify x.session).1 = o) :
    Move p x i .classifying .other (.answered (o.map .classified))

/-- A new call, a call that goes on, or work and time that change all but what the transitions made known. -/
inductive Step (p : Protection) : Calls → Deed → Calls → Prop where
  | ask (x : Calls) (d : Demand) :
    Step p x (.asked x.calls.length d) { x with calls := x.calls ++ [.first x.state d] }
  | move {x : Calls} {i : Nat} {c c' : Call} {d : Deed} (hi : x.calls[i]? = some c) (h : Move p x i c d c') :
    Step p x d { x.did d with calls := x.calls.set i c' }
  | pass (x : Calls) (s : Session) (h : s.transitions = x.session.transitions) :
    Step p x .other { x with session := s }

/-- Steps one after the other, the earliest deed first. -/
inductive Trace (p : Protection) (x : Calls) : List Deed → Calls → Prop where
  | nil : Trace p x [] x
  | snoc {ds : List Deed} {d : Deed} {y z : Calls} (h : Trace p x ds y) (hd : Step p y d z) : Trace p x (ds ++ [d]) z

variable {p : Protection} {x y z : Calls} {d : Deed} {ds ds' : List Deed}

namespace Trace

theorem single (h : Step p x d y) : Trace p x [d] y := .snoc .nil h

theorem trans (h : Trace p x ds y) (h' : Trace p y ds' z) : Trace p x (ds ++ ds') z := by
  induction h' with
  | nil => rwa [List.append_nil]
  | snoc _ hd ih =>
    rw [← List.append_assoc]
    exact .snoc ih hd

theorem snoc_iff : Trace p x (ds ++ [d]) z ↔ ∃ y, Trace p x ds y ∧ Step p y d z := by
  constructor
  · intro h
    generalize hall : ds ++ [d] = all at h
    cases h with
    | nil => simp at hall
    | snoc h hd =>
      obtain ⟨rfl, rfl⟩ : ds = _ ∧ d = _ := by simpa using hall
      exact ⟨_, h, hd⟩
  · rintro ⟨y, h, hd⟩
    exact .snoc h hd

/-- Every deed of a trace is a step, from what the deeds before it have led to. -/
theorem split (h : Trace p x (ds ++ d :: ds') z) : ∃ y y', Trace p x ds y ∧ Step p y d y' := by
  induction ds' using List.reverseRecOn generalizing z with
  | nil =>
    obtain ⟨y, h, hd⟩ := snoc_iff.mp h
    exact ⟨y, z, h, hd⟩
  | append_singleton ds' d' ih =>
    rw [← List.cons_append, ← List.append_assoc] at h
    obtain ⟨_, h, -⟩ := snoc_iff.mp h
    exact ih h

end Trace

end Interleaving

end QualityGate
