import Mathlib
import QualityGate.Proofs.Count.Requests
import QualityGate.Proofs.Count.Stops
import QualityGate.Proofs.Count.Turns

/-! Whatever is done to a monitor in whatever order is lawful, and a watch does nothing else. -/

namespace QualityGate.Watching
open Monitor

/-! News of the counts. They differ from the news before, as those carry the numbers of the latest counts. -/

variable {ds : List Deed} {d : Deed} {m m' : Monitor}

structure Told (ds : List Deed) (m : Monitor) : Prop where
  latest : m.latest = latestIn ds
  published : m.published = ds.filterMap Deed.published?
  told : ∀ pre id o news post, ds = pre ++ .completed id o news :: post → news = newsOf (latestIn pre) o
  apart : (newsIn ds).IsChain fun a b => numbers a.1 ≠ numbers b.1
  last : (newsIn ds).getLast?.map (fun a => numbers a.1) = (latestIn ds).map numbers

def Deed.isEnd : Deed → Bool
  | .completed .. => true
  | _ => false

theorem latestIn_snoc : latestIn (ds ++ [d]) = d.success?.or (latestIn ds) := by
  rw [latestIn, filterMap_snoc, List.getLast?_append]
  cases d.success? <;> rfl

theorem newsIn_snoc : newsIn (ds ++ [d]) = newsIn ds ++ d.news?.toList := filterMap_snoc ..

/-- News differ from the news before, as those carry the numbers of the latest counts. -/
theorem newsOf_follows {l : List (ErrorCount × Option ErrorCount)} {previous : Option ErrorCount}
    (hapart : l.IsChain fun a b => numbers a.1 ≠ numbers b.1)
    (hlast : l.getLast?.map (fun a => numbers a.1) = previous.map numbers) (o : Outcome ErrorCount) :
    (l ++ (newsOf previous o).toList).IsChain (fun a b => numbers a.1 ≠ numbers b.1) ∧
      (l ++ (newsOf previous o).toList).getLast?.map (fun a => numbers a.1) = (o.toOption.or previous).map numbers := by
  cases o with
  | error e => simpa [newsOf, Except.toOption] using ⟨hapart, hlast⟩
  | ok c =>
    by_cases hsame : previous.map numbers = some (numbers c)
    · rw [newsOf, if_pos hsame, Option.toList_none, List.append_nil, hlast, hsame]
      exact ⟨hapart, rfl⟩
    · have hdiffers : ∀ a ∈ l.getLast?, numbers a.1 ≠ numbers c := by
        intro a ha heq
        rw [Option.mem_def.mp ha, Option.map_some, heq] at hlast
        exact hsame hlast.symm
      rw [newsOf, if_neg hsame, Option.toList_some]
      constructor
      · refine hapart.append (.singleton _) fun a ha b hb => ?_
        obtain rfl : (c, previous) = b := by simpa using hb
        exact hdiffers a ha
      · simp [Except.toOption]

namespace Told

theorem initial : Told [] {} where
  latest := rfl
  published := rfl
  told _ _ _ _ _ h := absurd h (by simp)
  apart := .nil
  last := rfl

theorem quiet (h : Told ds m) (hd : d.isEnd = false) (hlatest : m'.latest = m.latest)
    (hpublished : m'.published = m.published ++ d.published?.toList) : Told (ds ++ [d]) m' := by
  have hsuccess : d.success? = none := by cases d <;> first | rfl | cases hd
  have hnews : d.news? = none := by cases d <;> first | rfl | cases hd
  have hsame : newsIn (ds ++ [d]) = newsIn ds := by simp [newsIn_snoc, hnews]
  have hlast : latestIn (ds ++ [d]) = latestIn ds := by simp [latestIn_snoc, hsuccess]
  refine ⟨?_, ?_, ?_, ?_, ?_⟩
  · rw [hlatest, hlast, h.latest]
  · rw [hpublished, filterMap_snoc, h.published]
  · intro pre id o news post hsplit
    obtain ⟨-, -, hd'⟩ | ⟨post', -, hds⟩ := snoc_eq_split hsplit
    · rw [← hd'] at hd
      cases hd
    · exact h.told pre id o news post' hds
  · rw [hsame]
    exact h.apart
  · rw [hsame, hlast]
    exact h.last

theorem silent (h : Told ds m) (hd : d.isEnd = false) (hnone : d.published? = none)
    (hlatest : m'.latest = m.latest) (hpublished : m'.published = m.published) : Told (ds ++ [d]) m' :=
  h.quiet hd hlatest (by rw [hpublished, hnone, Option.toList_none, List.append_nil])

theorem completed (h : Told ds m) (id : Nat) (o : Outcome ErrorCount) (hlatest : m'.latest = o.toOption.or m.latest)
    (hpublished : m'.published =
      m.published ++ ((newsOf m.latest o).map fun (c, previous) => .countsChanged c previous).toList) :
    Told (ds ++ [.completed id o (newsOf m.latest o)]) m' := by
  have hlast : latestIn (ds ++ [.completed id o (newsOf m.latest o)]) = o.toOption.or (latestIn ds) := latestIn_snoc
  have hnews : newsIn (ds ++ [.completed id o (newsOf m.latest o)]) = newsIn ds ++ (newsOf (latestIn ds) o).toList := by
    rw [newsIn_snoc, h.latest]
    rfl
  obtain ⟨hapart, hcarried⟩ := newsOf_follows h.apart h.last o
  refine ⟨?_, ?_, ?_, ?_, ?_⟩
  · rw [hlatest, hlast, h.latest]
  · rw [hpublished, filterMap_snoc, h.published]
    rfl
  · intro pre id' o' news post hsplit
    obtain ⟨-, rfl, hd⟩ | ⟨post', -, hds⟩ := snoc_eq_split hsplit
    · cases hd
      rw [h.latest]
    · exact h.told pre id' o' news post' hds
  · rwa [hnews]
  · rwa [hnews, hlast]

end Told

theorem Told.step {x y : State} (h : Told ds x.monitor) (hcounted : Counted ds x.monitor) (hstep : Step x d y) :
    Told (ds ++ [d]) y.monitor := by
  have hids := hcounted.nodup
  cases hstep with
  | poll => exact h.silent rfl rfl rfl rfl
  | accept hvia hdrops =>
    rw [receive_of_accepts hvia hdrops]
    exact h.quiet rfl rfl rfl
  | refuse hvia hdrops =>
    rw [receive_of_drops hvia hdrops]
    exact h.quiet rfl rfl rfl
  | echo hvia => exact h.quiet rfl rfl rfl
  | overhear he =>
    rw [hear_of_unheeded he]
    exact h.quiet rfl rfl rfl
  | start hidle =>
    rw [begin_of_idle hidle]
    exact h.silent rfl rfl rfl rfl
  | tick hj hsleeping => exact h.silent rfl rfl rfl rfl
  | begin hj hqueued hc hb =>
    obtain ⟨l, r, hjobs⟩ := List.append_of_mem hj
    rw [start_of_free hids hjobs hc hb]
    exact h.silent rfl rfl rfl rfl
  | drop hj hqueued hc hb =>
    obtain ⟨l, r, hjobs⟩ := List.append_of_mem hj
    rw [start_of_busy hids hjobs hc hb]
    exact h.silent rfl rfl rfl rfl
  | callOff hj hqueued hc =>
    obtain ⟨l, r, hjobs⟩ := List.append_of_mem hj
    rw [start_of_cancelled hids hjobs hc]
    exact h.silent rfl rfl rfl rfl
  | complete hj hcounting hc o =>
    obtain ⟨l, r, hjobs⟩ := List.append_of_mem hj
    rw [complete_of_going hids hjobs hc]
    exact h.completed _ o rfl rfl
  | cut hj hcounting hc o =>
    obtain ⟨l, r, hjobs⟩ := List.append_of_mem hj
    rw [complete_of_cancelled hids hjobs hc]
    exact h.silent rfl rfl rfl rfl
  | spare hj hcounting => exact h.silent rfl rfl rfl rfl
  | leave hj hsleeping hc => exact h.silent rfl rfl rfl rfl
  | stop => exact h.silent rfl rfl rfl rfl
  | stopped hover => exact h.silent rfl rfl rfl rfl

/-! Every step, and the whole run. -/

variable {x y z w : State}

/-- What every step keeps. -/
structure Sound (ds : List Deed) (x : State) : Prop where
  counted : Counted ds x.monitor
  told : Told ds x.monitor
  held : Held ds x
  blamed : Blamed ds x.monitor

theorem Sound.step (h : Sound ds x) (hstep : Step x d y) : Sound (ds ++ [d]) y := by
  have hcounted := h.counted.step hstep
  have htold := h.told.step h.counted hstep
  rcases hstep.continues h.counted with ⟨hd, hc, hstops, hbegun, hsub⟩ | ⟨rfl, hmonitor, hstops, hbegun⟩ |
    ⟨l, k, own, r, rfl, hmonitor, hx, hy, hbegun, hover⟩
  · have howned : ∀ id, d.owned? = some id → x.stops = [] := fun _ hid => h.held.owned hstep hid
    exact ⟨hcounted, htold, h.held.ordinary h.counted.ids hd hc hstops hbegun hsub howned,
      h.blamed.ordinary hc fun id hid => hstep.cancelled hid⟩
  · have hblamed := h.blamed.stop x.begun
    rw [← hmonitor] at hblamed
    exact ⟨hcounted, htold, h.held.stop hmonitor hstops hbegun, hblamed⟩
  · have hblamed := h.blamed.stopped k
    rw [← hmonitor] at hblamed
    exact ⟨hcounted, htold, h.held.stop_over hmonitor hx hy hbegun hover, hblamed⟩

theorem sound (h : Trace Step {} ds x) : Sound ds x := by
  induction h with
  | nil => exact ⟨.initial, .initial, .initial, .initial⟩
  | snoc _ hstep ih => exact ih.step hstep

theorem lawful (h : Trace Step {} ds x) : Lawful ds x := by
  obtain ⟨hcounted, htold, hheld, hblamed⟩ := sound h
  have hended (pre : List Deed) (k : Nat) (post : List Deed) (hsplit : ds = pre ++ .stopping k :: post)
      (hover : .stopped k ∈ post) (id : Nat) (hid : Remembered pre id) (j : Job) (hj : j ∈ x.monitor.jobs)
      (hsame : j.id = id) : j.phase = .finished := by
    subst hsame
    by_contra hunfinished
    obtain ⟨own, hmem, -⟩ := hheld.waited pre k post hsplit j hj hid hunfinished
    refine (hheld.underWay k (List.mem_map_of_mem hmem)).2 ?_
    rw [hsplit]
    exact List.mem_append_right _ (List.mem_cons_of_mem _ hover)
  refine ⟨hcounted.alone, hcounted.isBusy_iff, hcounted.nodup, hcounted.answered, hcounted.begun, hcounted.dropped,
    hblamed.blamed, htold.latest, htold.published, htold.told, htold.apart, htold.last, ?_, hended⟩
  intro pre k post hsplit hover d hd id hid
  exact hended pre k post hsplit hover id (hheld.remembered hsplit hd hid)

theorem Sound.unsubscribed (h : Sound ds x) (hidle : x.monitor.isRunning = false) : x.monitor.isSubscribed = false := by
  rw [← Bool.not_eq_true]
  intro hsubscribed
  obtain ⟨-, j, hj, htiming, -⟩ := h.held.subscribed hsubscribed
  exact List.any_eq_false.mp hidle j hj htiming

theorem Sound.unsubscribed_of_stopped (h : Sound ds x) {k : Nat} (hstop : Step x (.stopped k) y) :
    y.monitor.isSubscribed = false := by
  rw [← Bool.not_eq_true]
  cases hstop with
  | stopped hover =>
    intro hsubscribed
    exact List.append_ne_nil_of_right_ne_nil _ (List.cons_ne_nil _ _) (h.held.subscribed hsubscribed).1

theorem remembered_or_forgotten {id : Nat} (hd : d ∈ ds) (hid : d.created? = some id) :
    Remembered ds id ∨ Forgotten ds id := by
  obtain ⟨pre, post, rfl⟩ := List.append_of_mem hd
  by_cases hover : ∀ k, .stopping k ∈ pre → .stopped k ∈ post → .stopped k ∈ pre
  · exact .inl ⟨pre, d, post, rfl, hid, hover⟩
  · simp only [not_forall] at hover
    obtain ⟨k, hbegan, hended, hgoing⟩ := hover
    exact .inr ⟨pre, d, post, k, rfl, hid, hbegan, hgoing, hended⟩

theorem Forgotten.made {id : Nat} (h : Forgotten ds id) : ∃ d ∈ ds, d.created? = some id := by
  obtain ⟨pre, d, post, -, rfl, hid, -⟩ := h
  exact ⟨d, by simp, hid⟩

theorem Lawful.endsAll_iff (h : Lawful ds x) :
    EndsAll ds x ↔ ∀ pre k post, ds = pre ++ .stopping k :: post → .stopped k ∈ post →
      ∀ id, Forgotten pre id → ∀ j ∈ x.monitor.jobs, j.id = id → j.phase = .finished := by
  constructor
  · intro hall pre k post hsplit hover id hforgotten
    obtain ⟨d, hd, hid⟩ := hforgotten.made
    exact hall pre k post hsplit hover d hd id hid
  · intro hforgotten pre k post hsplit hover d hd id hid
    rcases remembered_or_forgotten hd hid with hmade | hmade
    · exact h.directEnded pre k post hsplit hover id hmade
    · exact hforgotten pre k post hsplit hover id hmade

/-- A schedule is lawful at each of its points, and a stop fails to end only a change that an earlier stop has
forgotten. The bus has as many subscribers when a stop is over as it had before the start; and whatever a watch is
asked to do, it does in one of the schedules. -/
theorem schedules_lawful (h : Trace Step {} ds x) :
    Lawful ds x ∧
    (EndsAll ds x ↔ ∀ pre k post, ds = pre ++ .stopping k :: post → .stopped k ∈ post →
      ∀ id, Forgotten pre id → ∀ j ∈ x.monitor.jobs, j.id = id → j.phase = .finished) ∧
    (∀ id y ds' z k w, Step x (.started id) y → Trace Step y ds' z → Step z (.stopped k) w →
      ∀ others, w.monitor.subscribers others = x.monitor.subscribers others) ∧
    ∀ orders, ∃ ds n t, Trace Step {} ds ⟨(Watch.run orders).monitor, [], n, t⟩ := by
  refine ⟨lawful h, (lawful h).endsAll_iff, ?_, run_reached⟩
  intro id y ds' z k w hstart h' hstop others
  have hbefore := (sound h).unsubscribed hstart.started.2
  have hafter := (sound ((h.snoc hstart).trans h')).unsubscribed_of_stopped hstop
  simp [subscribers, hbefore, hafter]

/-- A change is asked for during a stop, and another stop follows. -/
def changeDuringStop : List Deed :=
  [.started 0, .stopping 0, .calledOff 0, .asked 1 .change none, .stopped 0, .stopping 1, .stopped 1]

/-- The first stop has forgotten the change, so the second waits for nothing and is over at once. -/
def afterChangeDuringStop : State where
  monitor := { jobs := [{ id := 0, cause := .timer, isCancelled := true, phase := .finished }, { id := 1, cause := .caller }] }
  begun := 2

theorem trace_changeDuringStop : Trace Step {} changeDuringStop afterChangeDuringStop :=
  .cons (.start rfl) <| .cons .stop <|
    .cons (.callOff (j := { id := 0, cause := .timer, isCancelled := true }) (.head _) rfl rfl) <|
    .cons (.accept rfl rfl) <| .cons (.stopped (l := []) (by decide)) <| .cons .stop <|
    .single (.stopped (l := []) (by decide))

theorem schedules_lawful_changeDuringStop :
    Trace Step {} changeDuringStop afterChangeDuringStop ∧ Lawful changeDuringStop afterChangeDuringStop :=
  ⟨trace_changeDuringStop, (schedules_lawful trace_changeDuringStop).1⟩

/-- A change that is asked for while a stop is under way goes on when the next stop is over. -/
theorem change_outlives_stop :
    Trace Step {} changeDuringStop afterChangeDuringStop ∧ ¬ EndsAll changeDuringStop afterChangeDuringStop := by
  refine ⟨trace_changeDuringStop, fun hall => ?_⟩
  have hended := hall [.started 0, .stopping 0, .calledOff 0, .asked 1 .change none, .stopped 0] 1 [.stopped 1] rfl
    (by simp) (.asked 1 .change none) (by simp) 1 rfl { id := 1, cause := .caller } (by simp [afterChangeDuringStop]) rfl
  cases hended

end QualityGate.Watching
