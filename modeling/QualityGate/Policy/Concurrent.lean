import QualityGate.Policy.Protection

/-! Requests made at the same time. Transitions take turns in the order in which
they were made; a decision goes by the state of the moment it was asked for. -/

namespace QualityGate

inductive Demand where
  | transition (t : Transition)
  | decide (r : Request)
  | classify

inductive Answer where
  | entered (state : PolicyState)
  | restored
  | decided (d : Decision)
  | classified (c : ProjectClass)

/-- What is left to do for a demand once it was begun. -/
inductive Progress where
  | done (a : Outcome Answer)
  /-- Waits for its turn, or for work that takes its time. -/
  | waiting (d : Demand)
  /-- Has its snapshot of the state. -/
  | deciding (snapshot : PolicyState) (r : Request)

structure Protected where
  session : Session
  state : PolicyState := {}

namespace Protected

/-- A transition as a whole: the state changes only where it succeeds. -/
def transit (p : Protection) (t : Transition) (x : Protected) : Outcome Answer × Protected :=
  match p.perform t x.session with
  | (.ok state, session) =>
    let answer := match t with
      | .restore _ => .restored
      | _ => .entered state
    (.ok answer, { session, state })
  | (.error e, session) => (.error e, { x with session })

def answerFrom (p : Protection) (snapshot : PolicyState) (r : Request) (x : Protected) : Outcome Answer × Protected :=
  let (o, session) := p.decide snapshot r x.session
  (o.map .decided, { x with session })

def classifyNow (p : Protection) (x : Protected) : Outcome Answer × Protected :=
  let (o, session) := p.classify x.session
  (o.map .classified, { x with session })

/-- One demand, from its beginning to its end. -/
def serve (p : Protection) (x : Protected) : Demand → Outcome Answer × Protected
  | .transition t => transit p t x
  | .decide r => answerFrom p x.state r x
  | .classify => classifyNow p x

/-- Whether a decision has to wait for an audit or a count. -/
def decisionWaits (p : Protection) (s : PolicyState) (r : Request) : Bool :=
  s.enabled && match r.trigger with
    | .save => false
    | .commit => !s.commitsFreely && p.auditWaits
    | .build => p.countWaits

/-- Whether a transition has to wait once it has its turn. The size of a project and its hooks are
always waited for. -/
def transitionWaits (p : Protection) (x : Protected) : Transition → Bool
  | .enable _ installHooks =>
    p.countWaits || installHooks ||
      match Protection.classOfCount (p.count x.session).1 with
      | .ok none => true
      | _ => false
  | .disable uninstallHooks => uninstallHooks
  | .restore _ => false

/-- Begins one demand. `busy` tells whether a transition has its turn already. -/
def begin (p : Protection) (busy : Bool) (x : Protected) (d : Demand) : Progress × Bool × Protected :=
  match d with
  | .transition t =>
    if busy || transitionWaits p x t then (.waiting d, true, x)
    else
      let (a, x) := transit p t x
      (.done a, false, x)
  | .decide r =>
    if decisionWaits p x.state r then (.deciding x.state r, busy, x)
    else
      let (a, x) := answerFrom p x.state r x
      (.done a, busy, x)
  | .classify => (.waiting d, busy, x)

def beginAll (p : Protection) (busy : Bool) (x : Protected) : List Demand → List Progress × Protected
  | [] => ([], x)
  | d :: ds =>
    let (progress, busy, x) := begin p busy x d
    let (rest, x) := beginAll p busy x ds
    (progress :: rest, x)

def finish (p : Protection) (x : Protected) : Progress → Outcome Answer × Protected
  | .done a => (a, x)
  | .waiting d => serve p x d
  | .deciding snapshot r => answerFrom p snapshot r x

def finishAll (p : Protection) (x : Protected) : List Progress → List (Outcome Answer) × Protected
  | [] => ([], x)
  | w :: ws =>
    let (a, x) := finish p x w
    let (rest, x) := finishAll p x ws
    (a :: rest, x)

/-- Demands made together: all are begun in their order, then finished in their order. -/
def serveTogether (p : Protection) (x : Protected) (ds : List Demand) : List (Outcome Answer) × Protected :=
  let (begun, x) := beginAll p false x ds
  finishAll p x begun

end Protected

end QualityGate
