import QualityGate.Proofs.Event.Delivery

/-! What handlers do. A handler that raises could as well have returned; and whatever a bus does on its own, with
handlers that do what their subscriptions say, is one of the executions. -/

namespace QualityGate.Delivery

/-! Raising. -/

/-- A deed but for what a handler goes on to do and how it ends. -/
def Deed.outline : Deed → Deed
  | .turn p kind s served => .turn p kind s (served.map fun _ => [])
  | .returned p key _ => .returned p key false
  | d => d

/-- Tasks that differ at most in what a handler is still to do. -/
inductive Task.Like : Task → Task → Prop where
  | outside (todo : List BusAction) : Like (.acting none todo) (.acting none todo)
  | handler (who : Nat × Nat) (todo todo' : List BusAction) : Like (.acting (some who) todo) (.acting (some who) todo')
  | turning (p : Nat) (kind : EventKind) (waiting : List Subscription) :
    Like (.turning p kind waiting) (.turning p kind waiting)

section raising

variable {ds : List Deed} {d : Deed} {x z : State} {st st' : List Task}

theorem like_acting {who : Option (Nat × Nat)} {todo : List BusAction}
    (h : List.Forall₂ Task.Like (.acting who todo :: st) st') :
    ∃ todo' rest, st' = .acting who todo' :: rest ∧ List.Forall₂ Task.Like st rest ∧
      ∀ a, Task.Like (.acting who (a :: todo)) (.acting who (a :: todo')) := by
  cases h with
  | cons hhead htail =>
    cases hhead with
    | outside => exact ⟨todo, _, rfl, htail, fun a => .outside (a :: todo)⟩
    | handler who _ todo' => exact ⟨todo', _, rfl, htail, fun a => .handler who (a :: todo) (a :: todo')⟩

theorem like_turning {p : Nat} {kind : EventKind} {waiting : List Subscription}
    (h : List.Forall₂ Task.Like (.turning p kind waiting :: st) st') :
    ∃ rest, st' = .turning p kind waiting :: rest ∧ List.Forall₂ Task.Like st rest := by
  cases h with
  | cons hhead htail =>
    cases hhead
    exact ⟨_, rfl, htail⟩

/-- Whatever the handlers are still to do, the step to it is one in which nothing is raised. -/
theorem Step.calmed (hd : Step x d z) (h : List.Forall₂ Task.Like z.stack st') :
    ∃ st d', List.Forall₂ Task.Like x.stack st ∧ Step ⟨x.bus, x.begun, st⟩ d' ⟨z.bus, z.begun, st'⟩ ∧
      d'.outline = d.outline ∧ ∀ p key, d' ≠ .returned p key true := by
  cases hd with
  | subscribe handle kind actions =>
    obtain ⟨todo', rest, rfl, hrest, hlike⟩ := like_acting h
    exact ⟨_, _, .cons (hlike _) hrest, .subscribe handle kind actions, rfl, nofun⟩
  | unsubscribe hkey hb =>
    obtain ⟨todo', rest, rfl, hrest, hlike⟩ := like_acting h
    exact ⟨_, _, .cons (hlike _) hrest, .unsubscribe hkey hb, rfl, nofun⟩
  | publish kind =>
    obtain ⟨rest, rfl, hrest⟩ := like_turning h
    obtain ⟨todo', rest', rfl, hrest', hlike⟩ := like_acting hrest
    exact ⟨_, _, .cons (hlike _) hrest', .publish kind, rfl, nofun⟩
  | refuse hfails =>
    obtain ⟨todo', rest, rfl, hrest, hlike⟩ := like_acting h
    exact ⟨_, _, .cons (hlike _) hrest, .refuse hfails, rfl, nofun⟩
  | raise => exact ⟨_, _, .cons (.handler _ _ []) h, .leave, rfl, nofun⟩
  | leave => exact ⟨_, _, .cons (.handler _ _ []) h, .leave, rfl, nofun⟩
  | serve hactive =>
    obtain ⟨todo', rest, rfl, hrest, -⟩ := like_acting h
    obtain ⟨rest', rfl, hrest'⟩ := like_turning hrest
    exact ⟨_, _, .cons (.turning ..) hrest', .serve hactive todo', rfl, nofun⟩
  | pass hpassed =>
    obtain ⟨rest, rfl, hrest⟩ := like_turning h
    exact ⟨_, _, .cons (.turning ..) hrest, .pass hpassed, rfl, nofun⟩
  | finish => exact ⟨_, _, .cons (.turning ..) h, .finish, rfl, nofun⟩

theorem like_start {actions : List BusAction} (h : List.Forall₂ Task.Like (start actions).stack st) :
    st = (start actions).stack := by
  cases h with
  | cons hhead htail =>
    cases hhead
    cases htail
    rfl

theorem calmed {actions : List BusAction} (h : Trace Step (start actions) ds x)
    (hst : List.Forall₂ Task.Like x.stack st) :
    ∃ ds', Trace Step (start actions) ds' ⟨x.bus, x.begun, st⟩ ∧ ds'.map Deed.outline = ds.map Deed.outline ∧
      ∀ p key, .returned p key true ∉ ds' := by
  induction h generalizing st with
  | nil =>
    rw [like_start hst]
    exact ⟨[], .nil, rfl, fun _ _ => List.not_mem_nil⟩
  | snoc _ hd ih =>
    obtain ⟨st', d', hst', hd', houtline, hcalm⟩ := hd.calmed hst
    obtain ⟨ds', htrace, houtlines, hcalms⟩ := ih hst'
    refine ⟨ds' ++ [d'], .snoc htrace hd', by simp [houtline, houtlines], fun p key hmem => ?_⟩
    rcases List.mem_append.mp hmem with hmem | hmem
    · exact hcalms p key hmem
    · exact hcalm p key (List.mem_singleton.mp hmem).symm

theorem like_refl (st : List Task) : List.Forall₂ Task.Like st st := by
  refine List.forall₂_same.mpr fun t _ => ?_
  cases t with
  | acting who todo =>
    cases who with
    | none => exact .outside todo
    | some who => exact .handler who todo todo
  | turning p kind waiting => exact .turning p kind waiting

end raising

/-! A bus on its own. -/

/-- What a handler does when it does what its subscription says. A publish that is nested too deep fails. -/
def Scripted (script actions : List BusAction) : Prop :=
  actions = script ∨ ∃ pre kind post, script = pre ++ .publish kind :: post ∧ actions = pre ++ [.fail]

def Faithful (ds : List Deed) : Prop :=
  ∀ p kind s actions, .turn p kind s (some actions) ∈ ds → Scripted s.actions actions

theorem Scripted.cons {script actions : List BusAction} (h : Scripted script actions) (a : BusAction) :
    Scripted (a :: script) (a :: actions) := by
  obtain rfl | ⟨pre, kind, post, rfl, rfl⟩ := h
  · exact .inl rfl
  · exact .inr ⟨a :: pre, kind, post, rfl, rfl⟩

/-- How a publish goes: it fails at once, or it is an execution. -/
def Played (publish : EventKind → Bus → Bus × Bool) : Prop :=
  ∀ kind b, publish kind b = (b, false) ∨ (publish kind b).2 = true ∧
    ∀ n who todo st, ∃ ds n', Trace Step ⟨b, n, .acting who (.publish kind :: todo) :: st⟩ ds
      ⟨(publish kind b).1, n', .acting who todo :: st⟩ ∧ Faithful ds

section bus

variable {publish : EventKind → Bus → Bus × Bool}

theorem Faithful.append {ds ds' : List Deed} (h : Faithful ds) (h' : Faithful ds') : Faithful (ds ++ ds') := by
  intro p kind s actions hmem
  rcases List.mem_append.mp hmem with hmem | hmem
  · exact h p kind s actions hmem
  · exact h' p kind s actions hmem

theorem Faithful.cons {d : Deed} {ds : List Deed} (hd : ∀ p kind s actions, d ≠ .turn p kind s (some actions))
    (h : Faithful ds) : Faithful (d :: ds) := by
  intro p kind s actions hmem
  rcases List.mem_cons.mp hmem with hmem | hmem
  · exact absurd hmem.symm (hd p kind s actions)
  · exact h p kind s actions hmem

theorem faithful_nil : Faithful [] := nofun

theorem unsubscribe?_eq_some {b b' : Bus} {handle : String} (h : b.unsubscribe? handle = some b') :
    ∃ key, b.handles.lookup handle = some key := by
  rw [Bus.unsubscribe?, Option.map_eq_some_iff] at h
  obtain ⟨key, hkey, -⟩ := h
  exact ⟨key, hkey⟩

theorem raised_played {b : Bus} {a : BusAction} (h : Fails b a) (rest : List BusAction) (p key n : Nat)
    (st : List Task) :
    ∃ ds n', Trace Step ⟨b, n, .acting (some (p, key)) (a :: rest) :: st⟩ ds ⟨b, n', st⟩ ∧ Faithful ds :=
  ⟨_, n, .single (.raise h), .cons nofun faithful_nil⟩

/-- A handler's actions, up to its return. -/
theorem performAll_played (h : Played publish) (script : List BusAction) (b : Bus) :
    ∃ actions, Scripted script actions ∧ ∀ p key n st, ∃ ds n',
      Trace Step ⟨b, n, .acting (some (p, key)) actions :: st⟩ ds ⟨Bus.performAll publish b script, n', st⟩ ∧
        Faithful ds := by
  induction script generalizing b with
  | nil => exact ⟨[], .inl rfl, fun p key n st => ⟨_, n, .single .leave, .cons nofun faithful_nil⟩⟩
  | cons a script ih =>
    cases a with
    | fail => exact ⟨_, .inl rfl, raised_played (.inl rfl) script⟩
    | subscribe handle kind actions =>
      obtain ⟨rest, hrest, hplay⟩ := ih (b.subscribe handle kind actions)
      refine ⟨_, hrest.cons _, fun p key n st => ?_⟩
      obtain ⟨ds, n', htrace, hfaithful⟩ := hplay p key n st
      exact ⟨_, n', .cons (.subscribe handle kind actions) htrace, .cons nofun hfaithful⟩
    | unsubscribe handle =>
      cases hb : b.unsubscribe? handle with
      | none =>
        have hperform : Bus.performAll publish b (.unsubscribe handle :: script) = b := by
          simp [Bus.performAll, Bus.perform, hb]
        rw [hperform]
        exact ⟨_, .inl rfl, raised_played (.inr ⟨handle, rfl, hb⟩) script⟩
      | some b' =>
        have hperform : Bus.performAll publish b (.unsubscribe handle :: script) = Bus.performAll publish b' script := by
          simp [Bus.performAll, Bus.perform, hb]
        obtain ⟨key', hkey⟩ := unsubscribe?_eq_some hb
        obtain ⟨rest, hrest, hplay⟩ := ih b'
        rw [hperform]
        refine ⟨_, hrest.cons _, fun p key n st => ?_⟩
        obtain ⟨ds, n', htrace, hfaithful⟩ := hplay p key n st
        exact ⟨_, n', .cons (.unsubscribe hkey hb) htrace, .cons nofun hfaithful⟩
    | publish kind =>
      rcases h kind b with hfails | ⟨hok, hplayed⟩
      · have hperform : Bus.performAll publish b (.publish kind :: script) = b := by
          simp [Bus.performAll, Bus.perform, hfails]
        rw [hperform]
        exact ⟨_, .inr ⟨[], kind, script, rfl, rfl⟩, raised_played (.inl rfl) []⟩
      · have hperform : Bus.performAll publish b (.publish kind :: script) =
            Bus.performAll publish (publish kind b).1 script := by
          rw [Bus.performAll, Bus.perform]
          split
          case h_1 hpublish => rw [hpublish]
          case h_2 hpublish =>
            rw [hpublish] at hok
            cases hok
        obtain ⟨rest, hrest, hplay⟩ := ih (publish kind b).1
        rw [hperform]
        refine ⟨_, hrest.cons _, fun p key n st => ?_⟩
        obtain ⟨ds, n', htrace, hfaithful⟩ := hplayed n (some (p, key)) rest st
        obtain ⟨ds', n'', htrace', hfaithful'⟩ := hplay p key n' st
        exact ⟨_, n'', htrace.trans htrace', hfaithful.append hfaithful'⟩

theorem deliver_played (h : Played publish) (kind : EventKind) (subs : List Subscription) (b : Bus) (p n : Nat)
    (st : List Task) :
    ∃ ds n', Trace Step ⟨b, n, .turning p kind subs :: st⟩ ds
      ⟨Bus.deliver publish kind b subs, n', .turning p kind [] :: st⟩ ∧ Faithful ds := by
  induction subs generalizing b n with
  | nil => exact ⟨[], n, .nil, faithful_nil⟩
  | cons s subs ih =>
    by_cases hserved : (b.isActive s.key && s.kind.covers kind) = true
    · obtain ⟨actions, hscripted, hplay⟩ :=
        performAll_played h s.actions { b with deliveries := b.deliveries ++ [(s.handle, kind)] }
      obtain ⟨ds, n', htrace, hfaithful⟩ := hplay p s.key n (.turning p kind subs :: st)
      obtain ⟨ds', n'', htrace', hfaithful'⟩ := ih
        (Bus.performAll publish { b with deliveries := b.deliveries ++ [(s.handle, kind)] } s.actions) n'
      rw [Bus.deliver, if_pos hserved]
      refine ⟨_, n'', .cons (.serve hserved actions) (htrace.trans htrace'), ?_⟩
      intro p' kind' s' actions' hmem
      rcases List.mem_cons.mp hmem with hmem | hmem
      · cases hmem
        exact hscripted
      · exact hfaithful.append hfaithful' p' kind' s' actions' hmem
    · obtain ⟨ds, n', htrace, hfaithful⟩ := ih b n
      rw [Bus.deliver, if_neg hserved]
      exact ⟨_, n', .cons (.pass (by simpa using hserved)) htrace, .cons nofun hfaithful⟩

theorem publish_played (depth : Nat) : Played (Bus.publish depth) := by
  induction depth with
  | zero => exact fun kind b => .inl rfl
  | succ depth ih =>
    refine fun kind b => .inr ⟨rfl, fun n who todo st => ?_⟩
    obtain ⟨ds, n', htrace, hfaithful⟩ :=
      deliver_played ih kind b.subscriptions b n (n + 1) (.acting who todo :: st)
    refine ⟨_, n', .cons (.publish kind) (.snoc htrace .finish), .cons nofun (hfaithful.append ?_)⟩
    exact .cons nofun faithful_nil

/-- Steps from outside; one that fails changes nothing. -/
def run (b : Bus) (actions : List BusAction) : Bus := actions.foldl (fun b a => (b.step? a).getD b) b

theorem step?_played (b : Bus) (a : BusAction) (n : Nat) (todo : List BusAction) :
    ∃ ds n', Trace Step ⟨b, n, [.acting none (a :: todo)]⟩ ds ⟨(b.step? a).getD b, n', [.acting none todo]⟩ ∧
      Faithful ds := by
  cases a with
  | fail => exact ⟨_, n, .single (.refuse (.inl rfl)), .cons nofun faithful_nil⟩
  | subscribe handle kind actions => exact ⟨_, n, .single (.subscribe handle kind actions), .cons nofun faithful_nil⟩
  | unsubscribe handle =>
    cases hb : b.unsubscribe? handle with
    | none =>
      have hstep : (b.step? (.unsubscribe handle)).getD b = b := by simp [Bus.step?, Bus.perform, hb]
      rw [hstep]
      exact ⟨_, n, .single (.refuse (.inr ⟨handle, rfl, hb⟩)), .cons nofun faithful_nil⟩
    | some b' =>
      have hstep : (b.step? (.unsubscribe handle)).getD b = b' := by simp [Bus.step?, Bus.perform, hb]
      obtain ⟨key, hkey⟩ := unsubscribe?_eq_some hb
      rw [hstep]
      exact ⟨_, n, .single (.unsubscribe hkey hb), .cons nofun faithful_nil⟩
  | publish kind =>
    rcases publish_played Bus.maxDepth kind b with hfails | ⟨-, hplayed⟩
    · cases congrArg Prod.snd hfails
    · exact hplayed n none todo []

theorem run_played (actions : List BusAction) (b : Bus) (n : Nat) :
    ∃ ds n', Trace Step ⟨b, n, [.acting none actions]⟩ ds ⟨run b actions, n', [.acting none []]⟩ ∧ Faithful ds := by
  induction actions generalizing b n with
  | nil => exact ⟨[], n, .nil, faithful_nil⟩
  | cons a actions ih =>
    obtain ⟨ds, n', htrace, hfaithful⟩ := step?_played b a n actions
    obtain ⟨ds', n'', htrace', hfaithful'⟩ := ih ((b.step? a).getD b) n'
    exact ⟨_, n'', htrace.trans htrace', hfaithful.append hfaithful'⟩

end bus

/-- Every execution is lawful up to each of its points, and could as well be one in which no handler raises; and
every run of a bus is one of the executions. -/
theorem executions_lawful (actions : List BusAction) :
    (∀ ds x, Trace Step (start actions) ds x → Lawful ds x ∧
      ∃ ds', Trace Step (start actions) ds' x ∧ ds'.map Deed.outline = ds.map Deed.outline ∧
        ∀ p key, .returned p key true ∉ ds') ∧
      ∃ ds n, Trace Step (start actions) ds ⟨run {} actions, n, [.acting none []]⟩ ∧ Faithful ds :=
  ⟨fun _ x h => ⟨lawful h, calmed h (like_refl x.stack)⟩, run_played actions {} 0⟩

example : (run {} [.subscribe "first" .any [.unsubscribe "second", .fail], .subscribe "second" .any [],
    .subscribe "third" .any [.subscribe "late" .any []], .publish .auditStarted]).deliveries =
    [("first", .auditStarted), ("third", .auditStarted)] := by rfl

end QualityGate.Delivery
