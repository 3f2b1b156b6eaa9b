import Mathlib
import QualityGate.Event.Bus
import QualityGate.Proofs.Lookup
import QualityGate.Proofs.Trace

/-! Publishes, one inside of the other, deed by deed. What a handler does when it is called is chosen anew
each time. From this follows who is called and who is not, for every tree of nested actions. -/

namespace QualityGate.Delivery

/-- What is under way. -/
inductive Task where
  /-- Actions that are still to do, by the handler of a subscription in a publish or from outside. -/
  | acting (who : Option (Nat × Nat)) (todo : List BusAction)
  /-- A publish, and those whose turn has not come. -/
  | turning (p : Nat) (kind : EventKind) (waiting : List Subscription)

structure State where
  bus : Bus
  /-- How many publishes have begun. -/
  begun : Nat
  /-- What is under way, the innermost first. -/
  stack : List Task

def start (actions : List BusAction) : State := ⟨{}, 0, [.acting none actions]⟩

inductive Deed where
  | subscribed (s : Subscription)
  | unsubscribed (key : Nat)
  | began (p : Nat) (kind : EventKind)
  /-- The turn of a subscription in a publish: what its handler goes on to do, unless it is passed over. -/
  | turn (p : Nat) (kind : EventKind) (s : Subscription) (served : Option (List BusAction))
  | returned (p key : Nat) (raised : Bool)
  | refused
  | ended (p : Nat)

/-- Whether an action fails at once. -/
def Fails (b : Bus) (a : BusAction) : Prop := a = .fail ∨ ∃ handle, a = .unsubscribe handle ∧ b.unsubscribe? handle = none

inductive Step : State → Deed → State → Prop where
  | subscribe {b : Bus} {n : Nat} {who : Option (Nat × Nat)} {todo : List BusAction} {st : List Task}
    (handle : String) (kind : EventKind) (actions : List BusAction) :
    Step ⟨b, n, .acting who (.subscribe handle kind actions :: todo) :: st⟩
      (.subscribed ⟨b.nextKey, handle, kind, actions⟩) ⟨b.subscribe handle kind actions, n, .acting who todo :: st⟩
  | unsubscribe {b b' : Bus} {n key : Nat} {who : Option (Nat × Nat)} {todo : List BusAction} {st : List Task}
    {handle : String} (hkey : b.handles.lookup handle = some key) (hb : b.unsubscribe? handle = some b') :
    Step ⟨b, n, .acting who (.unsubscribe handle :: todo) :: st⟩ (.unsubscribed key) ⟨b', n, .acting who todo :: st⟩
  | publish {b : Bus} {n : Nat} {who : Option (Nat × Nat)} {todo : List BusAction} {st : List Task} (kind : EventKind) :
    Step ⟨b, n, .acting who (.publish kind :: todo) :: st⟩ (.began n kind)
      ⟨b, n + 1, .turning n kind b.subscriptions :: .acting who todo :: st⟩
  | refuse {b : Bus} {n : Nat} {a : BusAction} {todo : List BusAction} {st : List Task} (h : Fails b a) :
    Step ⟨b, n, .acting none (a :: todo) :: st⟩ .refused ⟨b, n, .acting none todo :: st⟩
  | raise {b : Bus} {n p key : Nat} {a : BusAction} {todo : List BusAction} {st : List Task} (h : Fails b a) :
    Step ⟨b, n, .acting (some (p, key)) (a :: todo) :: st⟩ (.returned p key true) ⟨b, n, st⟩
  | leave {b : Bus} {n p key : Nat} {st : List Task} :
    Step ⟨b, n, .acting (some (p, key)) [] :: st⟩ (.returned p key false) ⟨b, n, st⟩
  | serve {b : Bus} {n p : Nat} {kind : EventKind} {s : Subscription} {rest : List Subscription} {st : List Task}
    (h : (b.isActive s.key && s.kind.covers kind) = true) (actions : List BusAction) :
    Step ⟨b, n, .turning p kind (s :: rest) :: st⟩ (.turn p kind s (some actions))
      ⟨{ b with deliveries := b.deliveries ++ [(s.handle, kind)] }, n,
        .acting (some (p, s.key)) actions :: .turning p kind rest :: st⟩
  | pass {b : Bus} {n p : Nat} {kind : EventKind} {s : Subscription} {rest : List Subscription} {st : List Task}
    (h : (b.isActive s.key && s.kind.covers kind) = false) :
    Step ⟨b, n, .turning p kind (s :: rest) :: st⟩ (.turn p kind s none) ⟨b, n, .turning p kind rest :: st⟩
  | finish {b : Bus} {n p : Nat} {kind : EventKind} {st : List Task} :
    Step ⟨b, n, .turning p kind [] :: st⟩ (.ended p) ⟨b, n, st⟩

/-! What deeds add up to. -/

def Deed.subscribed? : Deed → Option Subscription
  | .subscribed s => some s
  | _ => none

def Deed.unsubscribed? : Deed → Option Nat
  | .unsubscribed key => some key
  | _ => none

def Deed.began? : Deed → Option Nat
  | .began p _ => some p
  | _ => none

def Deed.turnOf? (p : Nat) : Deed → Option Subscription
  | .turn q _ s _ => if q = p then some s else none
  | _ => none

def Deed.call? : Deed → Option (String × EventKind)
  | .turn _ kind s (some _) => some (s.handle, kind)
  | _ => none

/-- All subscriptions that were ever made. -/
def subscribedIn (ds : List Deed) : List Subscription := ds.filterMap Deed.subscribed?

def unsubscribedIn (ds : List Deed) : List Nat := ds.filterMap Deed.unsubscribed?

/-- The subscriptions made and not ended, in the order in which they were made. -/
def activeAfter (ds : List Deed) : List Subscription := (subscribedIn ds).filter fun s => s.key ∉ unsubscribedIn ds

/-- Whose turn has come in a publish. -/
def turnsOf (p : Nat) (ds : List Deed) : List Subscription := ds.filterMap (Deed.turnOf? p)

/-- The calls, by the names of their subscriptions. -/
def callsIn (ds : List Deed) : List (String × EventKind) := ds.filterMap Deed.call?

/-- What holds of the deeds so far and of the state they have led to. -/
structure Lawful (ds : List Deed) (x : State) : Prop where
  /-- The bus has exactly the active subscriptions. -/
  active : x.bus.subscriptions = activeAfter ds
  /-- No two subscriptions are the same. -/
  distinct : ((subscribedIn ds).map Subscription.key).Nodup
  numbered : ds.filterMap Deed.began? = List.range x.begun
  /-- In a publish the turn comes to each that was active when it began, in their order, and once it has ended
  the turn has come to all. -/
  turns : ∀ pre p kind post, ds = pre ++ .began p kind :: post →
    turnsOf p ds <+: activeAfter pre ∧ (.ended p ∈ ds → turnsOf p ds = activeAfter pre)
  /-- Whose turn it is is called exactly if it wants to hear of the event and is still active. -/
  served : ∀ pre p kind s served post, ds = pre ++ .turn p kind s served :: post →
    .began p kind ∈ pre ∧ (served.isSome = true ↔ s.kind.covers kind = true ∧ s ∈ activeAfter pre)
  /-- Who has unsubscribed is not called. -/
  silent : ∀ pre key post, ds = pre ++ .unsubscribed key :: post →
    ∀ p kind s actions, .turn p kind s (some actions) ∈ post → s.key ≠ key
  /-- What the bus knows of its calls. -/
  delivered : x.bus.deliveries = callsIn ds
  /-- When nothing is under way, every publish has ended. -/
  ended : ∀ todo, x.stack = [.acting none todo] → ∀ p kind, .began p kind ∈ ds → .ended p ∈ ds

variable {ds : List Deed} {d : Deed} {x y : State} {n p key : Nat} {kind : EventKind} {s : Subscription}

/-! The bus. -/

theorem subscribedIn_snoc : subscribedIn (ds ++ [d]) = subscribedIn ds ++ d.subscribed?.toList := by
  cases h : d.subscribed? <;> simp [subscribedIn, h]

theorem unsubscribedIn_snoc : unsubscribedIn (ds ++ [d]) = unsubscribedIn ds ++ d.unsubscribed?.toList := by
  cases h : d.unsubscribed? <;> simp [unsubscribedIn, h]

theorem turnsOf_snoc : turnsOf p (ds ++ [d]) = turnsOf p ds ++ (d.turnOf? p).toList := by
  cases h : d.turnOf? p <;> simp [turnsOf, h]

theorem callsIn_snoc : callsIn (ds ++ [d]) = callsIn ds ++ d.call?.toList := by
  cases h : d.call? <;> simp [callsIn, h]

/-- The subscriptions of a bus are those of the deeds. -/
structure Kept (ds : List Deed) (b : Bus) : Prop where
  active : b.subscriptions = activeAfter ds
  keys : (subscribedIn ds).map Subscription.key = List.range b.nextKey
  handles : ∀ handle key, b.handles.lookup handle = some key → key < b.nextKey
  unsubscribed : ∀ key ∈ unsubscribedIn ds, key < b.nextKey

namespace Kept

variable {b b' : Bus}

theorem empty : Kept [] {} where
  active := rfl
  keys := rfl
  handles := nofun
  unsubscribed := nofun

theorem eq_of_key (h : Kept ds b) {t : Subscription} (hs : s ∈ subscribedIn ds) (ht : t ∈ subscribedIn ds)
    (hkey : s.key = t.key) : s = t := by
  have hnodup : ((subscribedIn ds).map Subscription.key).Nodup := by
    rw [h.keys]
    exact List.nodup_range
  exact List.inj_on_of_nodup_map hnodup hs ht hkey

/-- The key of a subscription says whether it is active. -/
theorem isActive_iff (h : Kept ds b) (hs : s ∈ subscribedIn ds) : b.isActive s.key = true ↔ s ∈ activeAfter ds := by
  rw [Bus.isActive, h.active, List.any_eq_true]
  constructor
  · rintro ⟨t, ht, hkey⟩
    have htmem : t ∈ subscribedIn ds := (List.mem_filter.mp ht).1
    rwa [h.eq_of_key hs htmem (beq_iff_eq.mp hkey).symm]
  · intro hs
    exact ⟨s, hs, by simp⟩

theorem quiet (h : Kept ds b) (hs : d.subscribed? = none) (hu : d.unsubscribed? = none) : Kept (ds ++ [d]) b := by
  have hsub : subscribedIn (ds ++ [d]) = subscribedIn ds := by simp [subscribedIn_snoc, hs]
  have hunsub : unsubscribedIn (ds ++ [d]) = unsubscribedIn ds := by simp [unsubscribedIn_snoc, hu]
  constructor
  · rw [activeAfter, hsub, hunsub, h.active, activeAfter]
  · rw [hsub, h.keys]
  · exact h.handles
  · rw [hunsub]
    exact h.unsubscribed

theorem delivered (h : Kept ds b) (deliveries : List (String × EventKind)) : Kept ds { b with deliveries } :=
  ⟨h.active, h.keys, h.handles, h.unsubscribed⟩

theorem subscribe (h : Kept ds b) (handle : String) (kind : EventKind) (actions : List BusAction) :
    Kept (ds ++ [.subscribed ⟨b.nextKey, handle, kind, actions⟩]) (b.subscribe handle kind actions) := by
  have hunsub : unsubscribedIn (ds ++ [.subscribed ⟨b.nextKey, handle, kind, actions⟩]) = unsubscribedIn ds := by
    simp [unsubscribedIn_snoc, Deed.unsubscribed?]
  have hfresh : b.nextKey ∉ unsubscribedIn ds := fun hmem => Nat.lt_irrefl _ (h.unsubscribed _ hmem)
  constructor
  · rw [activeAfter, hunsub, subscribedIn_snoc]
    simp [Bus.subscribe, Deed.subscribed?, h.active, activeAfter, hfresh]
  · rw [subscribedIn_snoc]
    simp [Bus.subscribe, Deed.subscribed?, h.keys, List.range_succ]
  · intro handle' key hkey
    by_cases hsame : handle' = handle
    · subst hsame
      rw [Bus.subscribe, lookup_insertKey_self] at hkey
      rw [← Option.some.inj hkey]
      exact Nat.lt_succ_self b.nextKey
    · rw [Bus.subscribe, lookup_insertKey_of_ne _ _ hsame] at hkey
      exact Nat.lt_succ_of_lt (h.handles handle' key hkey)
  · rw [hunsub]
    exact fun key hmem => Nat.lt_succ_of_lt (h.unsubscribed key hmem)

theorem unsubscribe (h : Kept ds b) {handle : String} (hkey : b.handles.lookup handle = some key)
    (hb : b.unsubscribe? handle = some b') : Kept (ds ++ [.unsubscribed key]) b' := by
  have hsub : subscribedIn (ds ++ [.unsubscribed key]) = subscribedIn ds := by
    simp [subscribedIn_snoc, Deed.subscribed?]
  have hunsub : unsubscribedIn (ds ++ [.unsubscribed key]) = unsubscribedIn ds ++ [key] := by
    simp [unsubscribedIn_snoc, Deed.unsubscribed?]
  rw [Bus.unsubscribe?, hkey, Option.map_some] at hb
  obtain rfl := Option.some.inj hb
  constructor
  · rw [activeAfter, hsub, hunsub]
    simp only [h.active, activeAfter, List.filter_filter]
    refine List.filter_congr fun s _ => ?_
    by_cases hs : s.key = key <;> simp [hs]
  · rw [hsub, h.keys]
  · exact h.handles
  · rw [hunsub]
    refine List.forall_mem_append.mpr ⟨h.unsubscribed, ?_⟩
    exact List.forall_mem_singleton.mpr (h.handles handle key hkey)

end Kept

/-! The publishes. -/

/-- Those whose turn in a publish has not come. -/
def Left (ds : List Deed) (p : Nat) (waiting : List Subscription) : Prop :=
  ∀ pre kind post, ds = pre ++ .began p kind :: post → activeAfter pre = turnsOf p ds ++ waiting

theorem Left.snoc {waiting waiting' : List Subscription} (h : Left ds p waiting) (hd : d.began? ≠ some p)
    (hw : turnsOf p ds ++ waiting = turnsOf p (ds ++ [d]) ++ waiting') : Left (ds ++ [d]) p waiting' := by
  intro pre kind post hsplit
  obtain ⟨-, -, rfl⟩ | ⟨post', -, hds⟩ := snoc_eq_split hsplit
  · exact absurd rfl hd
  · rw [h pre kind post' hds, hw]

theorem Left.first (hnew : ∀ kind, .began p kind ∉ ds) (hturns : turnsOf p ds = []) (kind : EventKind) :
    Left (ds ++ [.began p kind]) p (activeAfter ds) := by
  intro pre kind' post hsplit
  obtain ⟨-, rfl, -⟩ | ⟨post', -, rfl⟩ := snoc_eq_split hsplit
  · rw [turnsOf_snoc, hturns]
    rfl
  · exact absurd (by simp) (hnew kind')

theorem Left.mem {waiting : List Subscription} (h : Left ds p waiting) (hbegan : .began p kind ∈ ds) (hs : s ∈ waiting) :
    s ∈ subscribedIn ds := by
  obtain ⟨pre, post, rfl⟩ := List.append_of_mem hbegan
  have hactive : s ∈ activeAfter pre := by
    rw [h pre kind post rfl]
    exact List.mem_append_right _ hs
  rw [subscribedIn, List.filterMap_append]
  exact List.mem_append_left _ (List.mem_filter.mp hactive).1

/-- The publishes under way. -/
def turnings (stack : List Task) : List (Nat × EventKind × List Subscription) :=
  stack.filterMap fun
    | .turning p kind waiting => some (p, kind, waiting)
    | .acting .. => none

/-- The publishes of the deeds: those under way, and those that have ended. -/
structure Tally (ds : List Deed) (n : Nat) (l : List (Nat × EventKind × List Subscription)) : Prop where
  numbered : ds.filterMap Deed.began? = List.range n
  running : ∀ p kind waiting, (p, kind, waiting) ∈ l → .began p kind ∈ ds ∧ Left ds p waiting
  apart : (l.map Prod.fst).Nodup
  past : ∀ p kind, .began p kind ∈ ds → p ∈ l.map Prod.fst ∨ .ended p ∈ ds ∧ Left ds p []
  ended : ∀ p, .ended p ∈ ds → p < n ∧ p ∉ l.map Prod.fst
  turned : ∀ p, turnsOf p ds ≠ [] → p < n

namespace Tally

variable {l : List (Nat × EventKind × List Subscription)} {waiting rest : List Subscription}

theorem empty : Tally [] 0 [] where
  numbered := rfl
  running := nofun
  apart := List.nodup_nil
  past := nofun
  ended := nofun
  turned _ h := absurd rfl h

theorem lt_of_began (h : Tally ds n l) (hp : .began p kind ∈ ds) : p < n := by
  have hmem : p ∈ ds.filterMap Deed.began? := List.mem_filterMap.mpr ⟨_, hp, rfl⟩
  rw [h.numbered] at hmem
  exact List.mem_range.mp hmem

theorem lt_of_mem (h : Tally ds n l) (hp : p ∈ l.map Prod.fst) : p < n := by
  obtain ⟨⟨q, kind, waiting⟩, hmem, rfl⟩ := List.mem_map.mp hp
  exact h.lt_of_began (h.running q kind waiting hmem).1

/-- Deeds that are no part of a publish. -/
theorem quiet (h : Tally ds n l) (hbegan : d.began? = none) (hturn : ∀ p, d.turnOf? p = none)
    (hended : ∀ p, d ≠ .ended p) : Tally (ds ++ [d]) n l := by
  have hturns (p : Nat) : turnsOf p (ds ++ [d]) = turnsOf p ds := by simp [turnsOf_snoc, hturn]
  have hleft {p : Nat} {waiting : List Subscription} (hp : Left ds p waiting) : Left (ds ++ [d]) p waiting :=
    hp.snoc (by simp [hbegan]) (by rw [hturns])
  have hold {p : Nat} {kind : EventKind} (hp : .began p kind ∈ ds ++ [d]) : .began p kind ∈ ds := by
    rcases List.mem_append.mp hp with hp | hp
    · exact hp
    · rw [← List.mem_singleton.mp hp] at hbegan
      cases hbegan
  have holdEnd {p : Nat} (hp : .ended p ∈ ds ++ [d]) : .ended p ∈ ds := by
    rcases List.mem_append.mp hp with hp | hp
    · exact hp
    · exact absurd (List.mem_singleton.mp hp).symm (hended p)
  constructor
  · simp [hbegan, h.numbered]
  · intro p kind waiting hp
    obtain ⟨hstart, hp⟩ := h.running p kind waiting hp
    exact ⟨List.mem_append_left _ hstart, hleft hp⟩
  · exact h.apart
  · intro p kind hp
    exact (h.past p kind (hold hp)).imp_right fun hover => ⟨List.mem_append_left _ hover.1, hleft hover.2⟩
  · exact fun p hp => h.ended p (holdEnd hp)
  · exact fun p hp => h.turned p (by rwa [hturns] at hp)

theorem begin (h : Tally ds n l) (kind : EventKind) :
    Tally (ds ++ [.began n kind]) (n + 1) ((n, kind, activeAfter ds) :: l) := by
  have hturns (p : Nat) : turnsOf p (ds ++ [.began n kind]) = turnsOf p ds := by simp [turnsOf_snoc, Deed.turnOf?]
  have hnew (kind' : EventKind) : .began n kind' ∉ ds := fun hmem => Nat.lt_irrefl n (h.lt_of_began hmem)
  have hnone : turnsOf n ds = [] := by
    by_contra hturn
    exact Nat.lt_irrefl n (h.turned n hturn)
  have hleft {p : Nat} {waiting : List Subscription} (hp : Left ds p waiting) (hlt : p < n) :
      Left (ds ++ [.began n kind]) p waiting :=
    hp.snoc (by simp [Deed.began?]; omega) (by rw [hturns])
  constructor
  · simp [h.numbered, Deed.began?, List.range_succ]
  · intro p kind' waiting hp
    rcases List.mem_cons.mp hp with hp | hp
    · cases hp
      exact ⟨by simp, .first hnew hnone kind⟩
    · obtain ⟨hstart, hrun⟩ := h.running p kind' waiting hp
      exact ⟨List.mem_append_left _ hstart, hleft hrun (h.lt_of_began hstart)⟩
  · rw [List.map_cons, List.nodup_cons]
    exact ⟨fun hmem => Nat.lt_irrefl n (h.lt_of_mem hmem), h.apart⟩
  · intro p kind' hp
    rcases List.mem_append.mp hp with hp | hp
    · rcases h.past p kind' hp with hmem | ⟨hend, hover⟩
      · exact .inl (List.mem_cons_of_mem _ hmem)
      · exact .inr ⟨List.mem_append_left _ hend, hleft hover (h.lt_of_began hp)⟩
    · cases List.mem_singleton.mp hp
      exact .inl List.mem_cons_self
  · intro p hp
    have hend : .ended p ∈ ds := by simpa using hp
    obtain ⟨hlt, hnot⟩ := h.ended p hend
    refine ⟨Nat.lt_succ_of_lt hlt, ?_⟩
    rw [List.map_cons, List.mem_cons, not_or]
    exact ⟨Nat.ne_of_lt hlt, hnot⟩
  · intro p hp
    rw [hturns] at hp
    exact Nat.lt_succ_of_lt (h.turned p hp)

theorem turn (h : Tally ds n ((p, kind, s :: rest) :: l)) (served : Option (List BusAction)) :
    Tally (ds ++ [.turn p kind s served]) n ((p, kind, rest) :: l) := by
  have hown : turnsOf p (ds ++ [.turn p kind s served]) = turnsOf p ds ++ [s] := by
    simp [turnsOf_snoc, Deed.turnOf?]
  have hothers {q : Nat} (hq : q ≠ p) : turnsOf q (ds ++ [.turn p kind s served]) = turnsOf q ds := by
    simp [turnsOf_snoc, Deed.turnOf?, Ne.symm hq]
  have hleft {q : Nat} {waiting : List Subscription} (hp : Left ds q waiting) (hq : q ≠ p) :
      Left (ds ++ [.turn p kind s served]) q waiting :=
    hp.snoc (by simp [Deed.began?]) (by rw [hothers hq])
  obtain ⟨hbegan, hrun⟩ := h.running p kind (s :: rest) List.mem_cons_self
  have hapart := h.apart
  rw [List.map_cons, List.nodup_cons] at hapart
  constructor
  · simp [Deed.began?, h.numbered]
  · intro q kind' waiting hq
    rcases List.mem_cons.mp hq with hq | hq
    · cases hq
      exact ⟨List.mem_append_left _ hbegan, hrun.snoc (by simp [Deed.began?]) (by rw [hown]; simp)⟩
    · have hne : q ≠ p := fun he => hapart.1 (List.mem_map.mpr ⟨_, hq, he⟩)
      obtain ⟨hstart, hrun⟩ := h.running q kind' waiting (List.mem_cons_of_mem _ hq)
      exact ⟨List.mem_append_left _ hstart, hleft hrun hne⟩
  · exact h.apart
  · intro q kind' hq
    have hq : .began q kind' ∈ ds := by simpa using hq
    by_cases hne : q = p
    · subst hne
      exact .inl List.mem_cons_self
    · exact (h.past q kind' hq).imp_right fun hover => ⟨List.mem_append_left _ hover.1, hleft hover.2 hne⟩
  · exact fun q hq => h.ended q (by simpa using hq)
  · intro q hq
    by_cases hne : q = p
    · subst hne
      exact h.lt_of_began hbegan
    · exact h.turned q (by rwa [hothers hne] at hq)

theorem finish (h : Tally ds n ((p, kind, []) :: l)) : Tally (ds ++ [.ended p]) n l := by
  have hturns (q : Nat) : turnsOf q (ds ++ [.ended p]) = turnsOf q ds := by simp [turnsOf_snoc, Deed.turnOf?]
  have hleft {q : Nat} {waiting : List Subscription} (hq : Left ds q waiting) : Left (ds ++ [.ended p]) q waiting :=
    hq.snoc (by simp [Deed.began?]) (by rw [hturns])
  obtain ⟨hbegan, hrun⟩ := h.running p kind [] List.mem_cons_self
  have hapart := h.apart
  rw [List.map_cons, List.nodup_cons] at hapart
  constructor
  · simp [Deed.began?, h.numbered]
  · intro q kind' waiting hq
    obtain ⟨hstart, hrun⟩ := h.running q kind' waiting (List.mem_cons_of_mem _ hq)
    exact ⟨List.mem_append_left _ hstart, hleft hrun⟩
  · exact hapart.2
  · intro q kind' hq
    have hq : .began q kind' ∈ ds := by simpa using hq
    rcases h.past q kind' hq with hmem | ⟨hend, hover⟩
    · rw [List.map_cons, List.mem_cons] at hmem
      rcases hmem with rfl | hmem
      · exact .inr ⟨by simp, hleft hrun⟩
      · exact .inl hmem
    · exact .inr ⟨List.mem_append_left _ hend, hleft hover⟩
  · intro q hq
    rcases List.mem_append.mp hq with hq | hq
    · obtain ⟨hlt, hnot⟩ := h.ended q hq
      exact ⟨hlt, fun hmem => hnot (List.mem_cons_of_mem _ hmem)⟩
    · cases List.mem_singleton.mp hq
      exact ⟨h.lt_of_began hbegan, hapart.1⟩
  · intro q hq
    rw [hturns] at hq
    exact h.turned q hq

end Tally

/-! Every execution. -/

/-- What every step preserves. -/
structure Sound (ds : List Deed) (x : State) : Prop where
  kept : Kept ds x.bus
  tally : Tally ds x.begun (turnings x.stack)
  delivered : x.bus.deliveries = callsIn ds

theorem Sound.start (actions : List BusAction) : Sound [] (start actions) := ⟨.empty, .empty, rfl⟩

theorem deliveries_of_unsubscribe {b b' : Bus} {handle : String} (h : b.unsubscribe? handle = some b') :
    b'.deliveries = b.deliveries := by
  rw [Bus.unsubscribe?, Option.map_eq_some_iff] at h
  obtain ⟨key, -, rfl⟩ := h
  rfl

theorem Sound.step (h : Sound ds x) (hd : Step x d y) : Sound (ds ++ [d]) y := by
  obtain ⟨hkept, htally, hdelivered⟩ := h
  have hsilent (hcall : d.call? = none) : x.bus.deliveries = callsIn (ds ++ [d]) := by
    rw [callsIn_snoc, hcall, hdelivered]
    simp
  cases hd with
  | subscribe handle kind actions =>
    exact ⟨hkept.subscribe handle kind actions, htally.quiet rfl (fun _ => rfl) nofun, hsilent rfl⟩
  | unsubscribe hkey hb =>
    refine ⟨hkept.unsubscribe hkey hb, htally.quiet rfl (fun _ => rfl) nofun, ?_⟩
    rw [deliveries_of_unsubscribe hb]
    exact hsilent rfl
  | publish kind =>
    have hbegin := htally.begin kind
    rw [← hkept.active] at hbegin
    exact ⟨hkept.quiet rfl rfl, hbegin, hsilent rfl⟩
  | refuse => exact ⟨hkept.quiet rfl rfl, htally.quiet rfl (fun _ => rfl) nofun, hsilent rfl⟩
  | raise => exact ⟨hkept.quiet rfl rfl, htally.quiet rfl (fun _ => rfl) nofun, hsilent rfl⟩
  | leave => exact ⟨hkept.quiet rfl rfl, htally.quiet rfl (fun _ => rfl) nofun, hsilent rfl⟩
  | serve _ actions =>
    refine ⟨(hkept.quiet rfl rfl).delivered _, htally.turn (some actions), ?_⟩
    rw [callsIn_snoc, ← hdelivered]
    rfl
  | pass => exact ⟨hkept.quiet rfl rfl, htally.turn none, hsilent rfl⟩
  | finish => exact ⟨hkept.quiet rfl rfl, htally.finish, hsilent rfl⟩

theorem sound {actions : List BusAction} (h : Trace Step (start actions) ds x) : Sound ds x := by
  induction h with
  | nil => exact .start actions
  | snoc _ hd ih => exact ih.step hd

theorem Sound.served (h : Sound ds x) {served : Option (List BusAction)} (hd : Step x (.turn p kind s served) y) :
    .began p kind ∈ ds ∧ (served.isSome = true ↔ s.kind.covers kind = true ∧ s ∈ activeAfter ds) := by
  obtain ⟨hkept, htally, -⟩ := h
  cases hd with
  | serve hactive =>
    obtain ⟨hbegan, hleft⟩ := htally.running _ _ _ List.mem_cons_self
    have hmem := hleft.mem hbegan List.mem_cons_self
    rw [Bool.and_eq_true, hkept.isActive_iff hmem] at hactive
    exact ⟨hbegan, by simp [hactive]⟩
  | pass hpassed =>
    obtain ⟨hbegan, hleft⟩ := htally.running _ _ _ List.mem_cons_self
    have hmem := hleft.mem hbegan List.mem_cons_self
    rw [← Bool.not_eq_true, Bool.and_eq_true, hkept.isActive_iff hmem] at hpassed
    exact ⟨hbegan, by simpa using fun hcovers hs => hpassed ⟨hs, hcovers⟩⟩

theorem lawful {actions : List BusAction} (h : Trace Step (start actions) ds x) : Lawful ds x := by
  have hsound := sound h
  have hserved {pre post : List Deed} {p : Nat} {kind : EventKind} {s : Subscription}
      {served : Option (List BusAction)} (hds : ds = pre ++ .turn p kind s served :: post) :
      .began p kind ∈ pre ∧ (served.isSome = true ↔ s.kind.covers kind = true ∧ s ∈ activeAfter pre) := by
    subst hds
    obtain ⟨y, y', hpre, hd⟩ := h.split
    exact (sound hpre).served hd
  constructor
  · exact hsound.kept.active
  · rw [hsound.kept.keys]
    exact List.nodup_range
  · exact hsound.tally.numbered
  · intro pre p kind post hds
    have hbegan : .began p kind ∈ ds := by simp [hds]
    rcases hsound.tally.past p kind hbegan with hmem | ⟨-, hleft⟩
    · obtain ⟨⟨q, kind', waiting⟩, hrun, rfl⟩ := List.mem_map.mp hmem
      have hleft := (hsound.tally.running q kind' waiting hrun).2
      rw [hleft pre kind post hds]
      exact ⟨List.prefix_append _ _, fun hend => absurd hmem (hsound.tally.ended q hend).2⟩
    · rw [hleft pre kind post hds, List.append_nil]
      exact ⟨List.prefix_refl _, fun _ => rfl⟩
  · exact fun pre p kind s served post hds => hserved hds
  · intro pre key post hds p kind s actions hmem hkey
    obtain ⟨pre', post', rfl⟩ := List.append_of_mem hmem
    have hsplit : ds = (pre ++ .unsubscribed key :: pre') ++ .turn p kind s (some actions) :: post' := by
      rw [hds]
      simp
    have hcalled := ((hserved hsplit).2.mp rfl).2
    refine absurd ?_ (of_decide_eq_true (List.mem_filter.mp hcalled).2)
    rw [unsubscribedIn, List.filterMap_append, hkey]
    exact List.mem_append_right _ List.mem_cons_self
  · exact hsound.delivered
  · intro todo hstack p kind hp
    rcases hsound.tally.past p kind hp with hmem | ⟨hend, -⟩
    · rw [hstack] at hmem
      cases hmem
    · exact hend

end QualityGate.Delivery
