import Mathlib
import QualityGate.Proofs.Count.Requests

/-! Stops. A stop waits for the timer and for the changes that were there when it began, unless an earlier stop has
forgotten them; it forgets the changes that come while it waits. -/

namespace QualityGate.Watching
open Monitor

variable {ds : List Deed} {d : Deed} {m m' : Monitor} {x y : State}

/-- How a job can go on. -/
structure Onward (j j' : Job) : Prop where
  id : j'.id = j.id
  cause : j'.cause = j.cause
  unfinished : j'.phase ≠ .finished → j.phase ≠ .finished
  cancelled : j'.isCancelled = true → j.isCancelled = true
  timing : isTiming j = true → j.isCancelled = false → isTiming j' = true

theorem Onward.refl (j : Job) : Onward j j := ⟨rfl, rfl, fun h => h, fun h => h, fun h _ => h⟩

/-- Jobs go on, and there may be a new one. -/
structure Continues (d : Deed) (m m' : Monitor) : Prop where
  back : ∀ j' ∈ m'.jobs, (∃ j ∈ m.jobs, Onward j j') ∨
    j'.id = m.jobs.length ∧ j'.isCancelled = false ∧ (j'.cause ≠ .caller ↔ d.created? = some j'.id)
  forth : ∀ j ∈ m.jobs, ∃ j' ∈ m'.jobs, Onward j j'
  created : ∀ id, d.created? = some id → id = m.jobs.length ∧ id < m'.jobs.length
  length : m.jobs.length ≤ m'.jobs.length

namespace Continues

theorem mapped (f : Job → Job) (hf : ∀ j ∈ m.jobs, Onward j (f j)) (hjobs : m'.jobs = m.jobs.map f)
    (hd : d.created? = none) : Continues d m m' where
  back j' hj' := by
    rw [hjobs] at hj'
    obtain ⟨j, hj, rfl⟩ := List.mem_map.mp hj'
    exact .inl ⟨j, hj, hf j hj⟩
  forth j hj := ⟨f j, by rw [hjobs]; exact List.mem_map_of_mem hj, hf j hj⟩
  created id hid := by simp [hd] at hid
  length := by simp [hjobs]

theorem same (hjobs : m'.jobs = m.jobs) (hd : d.created? = none) : Continues d m m' :=
  mapped id (fun j _ => .refl j) (by rw [hjobs, List.map_id]) hd

theorem queued (cause : CountCause) (hjobs : m'.jobs = m.jobs ++ [{ id := m.jobs.length, cause }])
    (hd : d.created? = if cause = .caller then none else some m.jobs.length) : Continues d m m' where
  back j' hj' := by
    rw [hjobs] at hj'
    rcases List.mem_append.mp hj' with hj' | hj'
    · exact .inl ⟨j', hj', .refl j'⟩
    · rw [List.mem_singleton.mp hj', hd]
      exact .inr ⟨rfl, rfl, by simp⟩
  forth j hj := ⟨j, by simp [hjobs, hj], .refl j⟩
  created id hid := by
    rw [hd] at hid
    split at hid
    · cases hid
    · obtain rfl := Option.some.inj hid
      simp [hjobs]
  length := by simp [hjobs]

theorem replaced {l r : List Job} {j j' : Job} (hjobs : m.jobs = l ++ j :: r) (hjobs' : m'.jobs = l ++ j' :: r)
    (hj : Onward j j') (hd : d.created? = none) : Continues d m m' where
  back i hi := by
    rw [hjobs'] at hi
    rcases List.mem_append.mp hi with hl | hr
    · exact .inl ⟨i, by simp [hjobs, hl], .refl i⟩
    · rcases List.mem_cons.mp hr with rfl | hr
      · exact .inl ⟨j, by simp [hjobs], hj⟩
      · exact .inl ⟨i, by simp [hjobs, hr], .refl i⟩
  forth i hi := by
    rw [hjobs] at hi
    rcases List.mem_append.mp hi with hl | hr
    · exact ⟨i, by simp [hjobs', hl], .refl i⟩
    · rcases List.mem_cons.mp hr with rfl | hr
      · exact ⟨j', by simp [hjobs'], hj⟩
      · exact ⟨i, by simp [hjobs', hr], .refl i⟩
  created id hid := by simp [hd] at hid
  length := by simp [hjobs, hjobs']

end Continues

/-- Deeds that are no part of a stop. -/
def Deed.isOrdinary : Deed → Bool
  | .stopping _ | .stopped _ => false
  | _ => true

/-- What a step can do to the jobs and to the stops. -/
theorem Step.continues (h : Counted ds x.monitor) (hstep : Step x d y) :
    (d.isOrdinary = true ∧ Continues d x.monitor y.monitor ∧ y.stops = x.stops ∧ y.begun = x.begun ∧
      (y.monitor.isSubscribed = x.monitor.isSubscribed ∨
        x.stops = [] ∧ ∃ j ∈ y.monitor.jobs, isTiming j = true ∧ j.isCancelled = false)) ∨
    (d = .stopping x.begun ∧ y.monitor = x.monitor.cancel ∧
      y.stops = x.stops ++ [(x.begun, (x.monitor.jobs.filter isOwn).map Job.id)] ∧ y.begun = x.begun + 1) ∨
    ∃ l k own r, d = .stopped k ∧ y.monitor = x.monitor.forget ∧ x.stops = l ++ (k, own) :: r ∧ y.stops = l ++ r ∧
      y.begun = x.begun ∧ ∀ j ∈ x.monitor.jobs, j.id ∈ own → j.phase = .finished := by
  have hids := h.nodup
  cases hstep with
  | poll => exact .inl ⟨rfl, .queued .caller rfl rfl, rfl, rfl, .inl rfl⟩
  | accept hvia hdrops =>
    rw [receive_of_accepts hvia hdrops]
    exact .inl ⟨rfl, .queued .change rfl rfl, rfl, rfl, .inl rfl⟩
  | refuse hvia hdrops =>
    rw [receive_of_drops hvia hdrops]
    exact .inl ⟨rfl, .same rfl rfl, rfl, rfl, .inl rfl⟩
  | echo hvia => exact .inl ⟨rfl, .same rfl rfl, rfl, rfl, .inl rfl⟩
  | overhear he =>
    rw [hear_of_unheeded he]
    exact .inl ⟨rfl, .same rfl rfl, rfl, rfl, .inl rfl⟩
  | start hidle =>
    rw [begin_of_idle hidle]
    exact .inl ⟨rfl, .queued .timer rfl rfl, rfl, rfl, .inr ⟨rfl, _, List.mem_append_right _ (.head _), rfl, rfl⟩⟩
  | tick hj hsleeping =>
    obtain ⟨l, r, hjobs⟩ := List.append_of_mem hj
    rw [h.tick_eq hjobs hsleeping]
    refine .inl ⟨rfl, .replaced hjobs rfl ⟨rfl, rfl, ?_, id, ?_⟩ rfl, rfl, rfl, .inl rfl⟩
    · simp [hsleeping]
    · simp +contextual [isTiming]
  | begin hj hqueued hc hb =>
    obtain ⟨l, r, hjobs⟩ := List.append_of_mem hj
    rw [start_of_free hids hjobs hc hb]
    refine .inl ⟨rfl, .replaced hjobs rfl ⟨rfl, rfl, ?_, id, ?_⟩ rfl, rfl, rfl, .inl rfl⟩
    · simp [hqueued]
    · simp +contextual [isTiming]
  | drop hj hqueued hc hb =>
    obtain ⟨l, r, hjobs⟩ := List.append_of_mem hj
    rw [start_of_busy hids hjobs hc hb]
    refine .inl ⟨rfl, .replaced hjobs rfl ⟨rfl, rfl, ?_, id, ?_⟩ rfl, rfl, rfl, .inl rfl⟩
    · simp [hqueued]
    · simp +contextual [isTiming, phaseAfter]
  | callOff hj hqueued hc =>
    obtain ⟨l, r, hjobs⟩ := List.append_of_mem hj
    rw [start_of_cancelled hids hjobs hc]
    refine .inl ⟨rfl, .replaced hjobs rfl ⟨rfl, rfl, ?_, id, ?_⟩ rfl, rfl, rfl, .inl rfl⟩
    · simp
    · simp [hc]
  | complete hj hcounting hc o =>
    obtain ⟨l, r, hjobs⟩ := List.append_of_mem hj
    rw [complete_of_going hids hjobs hc]
    refine .inl ⟨rfl, .replaced hjobs rfl ⟨rfl, rfl, ?_, id, ?_⟩ rfl, rfl, rfl, .inl rfl⟩
    · simp [hcounting]
    · simp +contextual [isTiming, phaseAfter]
  | cut hj hcounting hc o =>
    obtain ⟨l, r, hjobs⟩ := List.append_of_mem hj
    rw [complete_of_cancelled hids hjobs hc]
    refine .inl ⟨rfl, .replaced hjobs rfl ⟨rfl, rfl, ?_, id, ?_⟩ rfl, rfl, rfl, .inl rfl⟩
    · simp
    · simp [hc]
  | spare hj hcounting =>
    obtain ⟨l, r, hjobs⟩ := List.append_of_mem hj
    rw [update_eq hids hjobs]
    refine .inl ⟨rfl, .replaced hjobs rfl ⟨rfl, rfl, id, ?_, ?_⟩ rfl, rfl, rfl, .inl rfl⟩
    · simp
    · exact fun htiming _ => htiming
  | leave hj hsleeping hc =>
    obtain ⟨l, r, hjobs⟩ := List.append_of_mem hj
    rw [update_eq hids hjobs]
    refine .inl ⟨rfl, .replaced hjobs rfl ⟨rfl, rfl, ?_, id, ?_⟩ rfl, rfl, rfl, .inl rfl⟩
    · simp
    · simp [hc]
  | stop => exact .inr (.inl ⟨rfl, rfl, rfl, rfl⟩)
  | stopped hover => exact .inr (.inr ⟨_, _, _, _, rfl, rfl, rfl, rfl, rfl, hover⟩)

theorem created_of_owned {id : Nat} (h : d.owned? = some id) : d.created? = some id := by
  cases d with
  | started id' => exact h
  | asked id' cause via =>
    cases cause with
    | change => cases via with
      | none => cases h
      | some e => exact h
    | caller => cases h
    | timer => cases h
  | _ => cases h

theorem Remembered.made {id : Nat} (h : Remembered ds id) : ∃ d ∈ ds, d.created? = some id := by
  obtain ⟨pre, d, post, rfl, hd, -⟩ := h
  exact ⟨d, by simp, hd⟩

theorem remembered_snoc {id : Nat} (h : Remembered (ds ++ [d]) id) : Remembered ds id ∨ d.created? = some id := by
  obtain ⟨pre, d', post, hsplit, hd', hover⟩ := h
  obtain ⟨-, -, rfl⟩ | ⟨post', rfl, hds⟩ := snoc_eq_split hsplit
  · exact .inr hd'
  · exact .inl ⟨pre, d', post', hds, hd', fun k hbegan hended => hover k hbegan (mem_snoc.mpr (.inl hended))⟩

structure Held (ds : List Deed) (x : State) : Prop where
  /-- Stops are numbered as they begin. -/
  stopping : ∀ k, .stopping k ∈ ds → k < x.begun ∧ (.stopped k ∈ ds ∨ k ∈ x.stops.map Prod.fst)
  stopped : ∀ k, .stopped k ∈ ds → k < x.begun
  underWay : ∀ k ∈ x.stops.map Prod.fst, .stopping k ∈ ds ∧ .stopped k ∉ ds
  apart : (x.stops.map Prod.fst).Nodup
  subscribed : x.monitor.isSubscribed = true →
    x.stops = [] ∧ ∃ j ∈ x.monitor.jobs, isTiming j = true ∧ j.isCancelled = false
  quiet : ∀ pre d id post, ds = pre ++ d :: post → d.owned? = some id → Quiet pre
  named : ∀ d ∈ ds, ∀ id, d.created? = some id → id < x.monitor.jobs.length
  kept : ∀ j ∈ x.monitor.jobs, Remembered ds j.id → j.phase ≠ .finished → j.cause ≠ .caller
  /-- A stop waits for what was there before it and is not forgotten. -/
  waited : ∀ pre k post, ds = pre ++ .stopping k :: post → ∀ j ∈ x.monitor.jobs, Remembered pre j.id →
    j.phase ≠ .finished → ∃ own, (k, own) ∈ x.stops ∧ j.id ∈ own

namespace Held

theorem initial : Held [] {} where
  stopping := by simp
  stopped := by simp
  underWay := by simp
  apart := by simp
  subscribed := by simp
  quiet := by simp
  named := by simp
  kept := by simp
  waited := by simp

theorem ordinary (h : Held ds x) (hids : x.monitor.jobs.map Job.id = List.range x.monitor.jobs.length)
    (hd : d.isOrdinary = true) (hc : Continues d x.monitor y.monitor) (hstops : y.stops = x.stops) (hbegun : y.begun = x.begun)
    (hsubscribed : y.monitor.isSubscribed = x.monitor.isSubscribed ∨
      x.stops = [] ∧ ∃ j ∈ y.monitor.jobs, isTiming j = true ∧ j.isCancelled = false)
    (howned : ∀ id, d.owned? = some id → x.stops = []) : Held (ds ++ [d]) y := by
  have hnot (k : Nat) : d ≠ .stopping k ∧ d ≠ .stopped k := by
    constructor <;> rintro rfl <;> cases hd
  have hold {j : Job} (hj : j ∈ x.monitor.jobs) : j.id < x.monitor.jobs.length := by
    have hmem : j.id ∈ x.monitor.jobs.map Job.id := List.mem_map_of_mem hj
    rwa [hids, List.mem_range] at hmem
  constructor
  · intro k hk
    rcases mem_snoc.mp hk with hk | hk
    · obtain ⟨hlt, hover⟩ := h.stopping k hk
      rw [hbegun, hstops]
      exact ⟨hlt, hover.imp_left fun hk => mem_snoc.mpr (.inl hk)⟩
    · exact absurd hk.symm (hnot k).1
  · intro k hk
    rcases mem_snoc.mp hk with hk | hk
    · rw [hbegun]
      exact h.stopped k hk
    · exact absurd hk.symm (hnot k).2
  · intro k hk
    rw [hstops] at hk
    obtain ⟨hbegan, hgoing⟩ := h.underWay k hk
    refine ⟨mem_snoc.mpr (.inl hbegan), fun hover => ?_⟩
    rcases mem_snoc.mp hover with hover | hover
    · exact hgoing hover
    · exact (hnot k).2 hover.symm
  · rw [hstops]
    exact h.apart
  · intro hsub
    rw [hstops]
    rcases hsubscribed with hsame | hstart
    · rw [hsame] at hsub
      obtain ⟨hnone, j, hj, htiming, hgoing⟩ := h.subscribed hsub
      obtain ⟨j', hj', honward⟩ := hc.forth j hj
      refine ⟨hnone, j', hj', honward.timing htiming hgoing, ?_⟩
      rw [← Bool.not_eq_true]
      intro hcancelled
      rw [honward.cancelled hcancelled] at hgoing
      cases hgoing
    · exact hstart
  · intro pre d' id post hsplit hid
    obtain ⟨-, rfl, rfl⟩ | ⟨post', -, hds⟩ := snoc_eq_split hsplit
    · intro k hk
      refine (h.stopping k hk).2.resolve_right ?_
      simp [howned id hid]
    · exact h.quiet pre d' id post' hds hid
  · intro d' hd' id hid
    rcases mem_snoc.mp hd' with hd' | rfl
    · exact Nat.lt_of_lt_of_le (h.named d' hd' id hid) hc.length
    · exact (hc.created id hid).2
  · intro j' hj' hid hunfinished
    rcases hc.back j' hj' with ⟨j, hj, honward⟩ | ⟨hnew, -, hcause⟩
    · rw [honward.id] at hid
      rcases remembered_snoc hid with hid | hid
      · rw [honward.cause]
        exact h.kept j hj hid (honward.unfinished hunfinished)
      · exact absurd (hc.created j.id hid).1 (Nat.ne_of_lt (hold hj))
    · rcases remembered_snoc hid with hid | hid
      · obtain ⟨d', hd', hmade⟩ := hid.made
        exact absurd hnew (Nat.ne_of_lt (h.named d' hd' _ hmade))
      · exact hcause.mpr hid
  · intro pre k post hsplit j' hj' hid hunfinished
    obtain ⟨-, -, hd'⟩ | ⟨post', -, rfl⟩ := snoc_eq_split hsplit
    · exact absurd hd'.symm (hnot k).1
    · rw [hstops]
      rcases hc.back j' hj' with ⟨j, hj, honward⟩ | ⟨hnew, -, -⟩
      · rw [honward.id] at hid ⊢
        exact h.waited pre k post' rfl j hj hid (honward.unfinished hunfinished)
      · obtain ⟨d', hd', hmade⟩ := hid.made
        exact absurd hnew (Nat.ne_of_lt (h.named d' (List.mem_append_left _ hd') _ hmade))

/-- While a stop is under way nothing is listened for, and nothing is started. -/
theorem owned (h : Held ds x) (hstep : Step x d y) {id : Nat} (hid : d.owned? = some id) : x.stops = [] := by
  cases hstep with
  | start hidle => rfl
  | @accept m stops n t via hvia hdrops =>
    cases via with
    | none => cases hid
    | some e =>
      have hsubscribed : m.isSubscribed = true := by
        simp only [heeds, Option.all_some, Bool.and_eq_true] at hvia
        exact hvia.1
      exact (h.subscribed hsubscribed).1
  | _ => cases hid

theorem remembered (h : Held ds x) {pre post : List Deed} (hsplit : ds = pre ++ post) (hd : d ∈ pre) {id : Nat}
    (hid : d.owned? = some id) : Remembered pre id := by
  obtain ⟨first, rest, rfl⟩ := List.append_of_mem hd
  have hquiet := h.quiet first d id (rest ++ post) (by simp [hsplit]) hid
  exact ⟨first, d, rest, rfl, created_of_owned hid, fun k hbegan _ => hquiet k hbegan⟩

theorem stop (h : Held ds x) (hmonitor : y.monitor = x.monitor.cancel)
    (hstops : y.stops = x.stops ++ [(x.begun, (x.monitor.jobs.filter isOwn).map Job.id)]) (hbegun : y.begun = x.begun + 1) :
    Held (ds ++ [.stopping x.begun]) y := by
  have hremembered {id : Nat} (hid : Remembered (ds ++ [.stopping x.begun]) id) : Remembered ds id :=
    (remembered_snoc hid).resolve_right nofun
  have hback {j' : Job} (hj' : j' ∈ y.monitor.jobs) :
      ∃ j ∈ x.monitor.jobs, j.id = j'.id ∧ j.cause = j'.cause ∧ j.phase = j'.phase := by
    rw [hmonitor] at hj'
    obtain ⟨j, hj, rfl⟩ := List.mem_map.mp hj'
    exact ⟨j, hj, by split <;> exact ⟨rfl, rfl, rfl⟩⟩
  have hfresh : x.begun ∉ x.stops.map Prod.fst := fun hmem =>
    Nat.lt_irrefl _ (h.stopping _ (h.underWay _ hmem).1).1
  constructor
  · intro k hk
    rw [hbegun, hstops, List.map_append]
    rcases mem_snoc.mp hk with hk | hk
    · obtain ⟨hlt, hover | hgoing⟩ := h.stopping k hk
      · exact ⟨Nat.lt_succ_of_lt hlt, .inl (mem_snoc.mpr (.inl hover))⟩
      · exact ⟨Nat.lt_succ_of_lt hlt, .inr (List.mem_append_left _ hgoing)⟩
    · cases hk
      exact ⟨Nat.lt_succ_self _, .inr (by simp)⟩
  · intro k hk
    rw [hbegun]
    rcases mem_snoc.mp hk with hk | hk
    · exact Nat.lt_succ_of_lt (h.stopped k hk)
    · cases hk
  · intro k hk
    rw [hstops, List.map_append] at hk
    rcases List.mem_append.mp hk with hk | hk
    · obtain ⟨hbegan, hgoing⟩ := h.underWay k hk
      exact ⟨mem_snoc.mpr (.inl hbegan), fun hover => hgoing ((mem_snoc.mp hover).resolve_right nofun)⟩
    · obtain rfl := List.mem_singleton.mp hk
      refine ⟨mem_snoc.mpr (.inr rfl), fun hover => ?_⟩
      exact Nat.lt_irrefl _ (h.stopped _ ((mem_snoc.mp hover).resolve_right nofun))
  · rw [hstops, List.map_append]
    refine List.nodup_append.mpr ⟨h.apart, List.nodup_singleton _, fun k hk k' hk' heq => ?_⟩
    rw [heq, List.mem_singleton.mp hk'] at hk
    exact hfresh hk
  · intro hsub
    rw [hmonitor] at hsub
    cases hsub
  · intro pre d' id post hsplit hid
    obtain ⟨-, -, rfl⟩ | ⟨post', -, hds⟩ := snoc_eq_split hsplit
    · cases hid
    · exact h.quiet pre d' id post' hds hid
  · intro d hd id hid
    rw [hmonitor]
    rcases mem_snoc.mp hd with hd | rfl
    · simpa [cancel] using h.named d hd id hid
    · cases hid
  · intro j' hj' hid hunfinished
    obtain ⟨j, hj, hsame, hcause, hphase⟩ := hback hj'
    rw [← hcause]
    rw [← hsame] at hid
    rw [← hphase] at hunfinished
    exact h.kept j hj (hremembered hid) hunfinished
  · intro pre k post hsplit j' hj' hid hunfinished
    obtain ⟨j, hj, hsame, hcause, hphase⟩ := hback hj'
    rw [← hsame] at hid ⊢
    rw [← hphase] at hunfinished
    rw [hstops]
    obtain ⟨-, rfl, hd'⟩ | ⟨post', -, hds⟩ := snoc_eq_split hsplit
    · cases hd'
      refine ⟨_, List.mem_append_right _ (.head _), List.mem_map_of_mem (List.mem_filter.mpr ⟨hj, ?_⟩)⟩
      simp [isOwn, hunfinished, h.kept j hj hid hunfinished]
    · obtain ⟨own, hown, hmem⟩ := h.waited pre k post' hds j hj hid hunfinished
      exact ⟨own, List.mem_append_left _ hown, hmem⟩

theorem stop_over (h : Held ds x) {l r : List (Nat × List Nat)} {k : Nat} {own : List Nat}
    (hmonitor : y.monitor = x.monitor.forget) (hx : x.stops = l ++ (k, own) :: r) (hy : y.stops = l ++ r)
    (hbegun : y.begun = x.begun) (hover : ∀ j ∈ x.monitor.jobs, j.id ∈ own → j.phase = .finished) :
    Held (ds ++ [.stopped k]) y := by
  have hmem : (k, own) ∈ x.stops := by simp [hx]
  obtain ⟨hbegan, hgoing⟩ := h.underWay k (List.mem_map_of_mem hmem)
  have hleft : k ∉ y.stops.map Prod.fst := by
    have hapart := h.apart
    rw [hx, List.map_append, List.map_cons, List.nodup_middle, List.nodup_cons, ← List.map_append] at hapart
    rw [hy]
    exact hapart.1
  have hsub : y.stops.Sublist x.stops := by
    rw [hx, hy]
    exact (List.sublist_cons_self _ _).append_left _
  have hothers {a : Nat × List Nat} (ha : a ∈ x.stops) (hne : a.1 ≠ k) : a ∈ y.stops := by
    rw [hx] at ha
    rw [hy]
    rcases List.mem_append.mp ha with hl | hr
    · exact List.mem_append_left _ hl
    · rcases List.mem_cons.mp hr with rfl | hr
      · exact absurd rfl hne
      · exact List.mem_append_right _ hr
  have hback {j' : Job} (hj' : j' ∈ y.monitor.jobs) :
      ∃ j ∈ x.monitor.jobs, j.id = j'.id ∧ j.phase = j'.phase ∧
        (j.cause = .change ∧ j.phase ≠ .finished ∨ j.cause = j'.cause) := by
    rw [hmonitor] at hj'
    obtain ⟨j, hj, rfl⟩ := List.mem_map.mp hj'
    refine ⟨j, hj, ?_⟩
    split
    case isTrue hforgotten => exact ⟨rfl, rfl, .inl (by simpa using hforgotten)⟩
    case isFalse => exact ⟨rfl, rfl, .inr rfl⟩
  have hwaited (pre post : List Deed) (hsplit : ds = pre ++ .stopping k :: post) {j : Job} (hj : j ∈ x.monitor.jobs)
      (hid : Remembered pre j.id) : j.phase = .finished := by
    by_contra hunfinished
    obtain ⟨own', hmem', hown⟩ := h.waited pre k post hsplit j hj hid hunfinished
    have hsame : own' = own := congrArg Prod.snd (List.inj_on_of_nodup_map h.apart hmem' hmem rfl)
    exact hunfinished (hover j hj (hsame ▸ hown))
  constructor
  · intro k' hk'
    rw [hbegun]
    obtain ⟨hlt, hended | hgoing'⟩ := h.stopping k' ((mem_snoc.mp hk').resolve_right nofun)
    · exact ⟨hlt, .inl (mem_snoc.mpr (.inl hended))⟩
    · by_cases hsame : k' = k
      · exact ⟨hlt, .inl (mem_snoc.mpr (.inr (by rw [hsame])))⟩
      · obtain ⟨a, ha, rfl⟩ := List.mem_map.mp hgoing'
        exact ⟨hlt, .inr (List.mem_map_of_mem (hothers ha hsame))⟩
  · intro k' hk'
    rw [hbegun]
    rcases mem_snoc.mp hk' with hk' | hk'
    · exact h.stopped k' hk'
    · cases hk'
      exact (h.stopping k hbegan).1
  · intro k' hk'
    obtain ⟨hbegan', hgoing'⟩ := h.underWay k' ((hsub.map Prod.fst).subset hk')
    refine ⟨mem_snoc.mpr (.inl hbegan'), fun hended => ?_⟩
    rcases mem_snoc.mp hended with hended | hended
    · exact hgoing' hended
    · cases hended
      exact hleft hk'
  · exact (hsub.map Prod.fst).nodup h.apart
  · intro hsubscribed
    rw [hmonitor] at hsubscribed
    rw [(h.subscribed hsubscribed).1] at hmem
    cases hmem
  · intro pre d' id post hsplit hid
    obtain ⟨-, -, rfl⟩ | ⟨post', -, hds⟩ := snoc_eq_split hsplit
    · cases hid
    · exact h.quiet pre d' id post' hds hid
  · intro d hd id hid
    rw [hmonitor]
    rcases mem_snoc.mp hd with hd | rfl
    · simpa [forget] using h.named d hd id hid
    · cases hid
  · intro j' hj' hid hunfinished
    obtain ⟨j, hj, hsame, hphase, hcause⟩ := hback hj'
    rw [← hsame] at hid
    rw [← hphase] at hunfinished
    -- A change that is forgotten was made during the stop, which waited for all others.
    obtain ⟨pre, d, post, hsplit, hd, hknown⟩ := hid
    obtain ⟨-, -, rfl⟩ | ⟨post, rfl, rfl⟩ := snoc_eq_split hsplit
    · cases hd
    have hlater : .stopping k ∈ post := by
      rcases List.mem_append.mp hbegan with hpre | hpost
      · exact absurd (List.mem_append_left _ (hknown k hpre (mem_snoc.mpr (.inr rfl)))) hgoing
      · rcases List.mem_cons.mp hpost with rfl | hpost
        · cases hd
        · exact hpost
    obtain ⟨a, b, rfl⟩ := List.append_of_mem hlater
    have hfirst : Remembered (pre ++ d :: a) j.id :=
      ⟨pre, d, a, rfl, hd, fun k' hk' hended => hknown k' hk' (by simp [hended])⟩
    exact absurd (hwaited (pre ++ d :: a) b (by simp) hj hfirst) hunfinished
  · intro pre k' post hsplit j' hj' hid hunfinished
    obtain ⟨j, hj, hsame, hphase, -⟩ := hback hj'
    rw [← hsame] at hid ⊢
    rw [← hphase] at hunfinished
    obtain ⟨-, -, hd'⟩ | ⟨post', -, hds⟩ := snoc_eq_split hsplit
    · cases hd'
    · obtain ⟨own', hown, hmem'⟩ := h.waited pre k' post' hds j hj hid hunfinished
      refine ⟨own', hothers hown ?_, hmem'⟩
      rintro rfl
      exact hunfinished (hwaited pre post' hds hj hid)

end Held

theorem Stopped.append {pre : List Deed} {id : Nat} (h : Stopped pre id) (post : List Deed) : Stopped (pre ++ post) id := by
  obtain ⟨first, k, rest, rfl, hmade⟩ := h
  exact ⟨first, k, rest ++ post, by simp, hmade⟩

/-- Who is told to stop. -/
structure Blamed (ds : List Deed) (m : Monitor) : Prop where
  made : ∀ j ∈ m.jobs, j.cause ≠ .caller → ∃ d ∈ ds, d.created? = some j.id
  cancelled : ∀ j ∈ m.jobs, j.isCancelled = true → Stopped ds j.id
  blamed : ∀ pre d post, ds = pre ++ d :: post → ∀ id, d.cancelled? = some id → Stopped pre id

namespace Blamed

theorem initial : Blamed [] {} where
  made := by simp
  cancelled := by simp
  blamed := by simp

theorem ordinary (h : Blamed ds m) (hc : Continues d m m')
    (hd : ∀ id, d.cancelled? = some id → ∃ j ∈ m.jobs, j.id = id ∧ j.isCancelled = true) : Blamed (ds ++ [d]) m' := by
  refine ⟨?_, ?_, ?_⟩
  · intro j' hj' hcause
    rcases hc.back j' hj' with ⟨j, hj, honward⟩ | ⟨-, -, hnew⟩
    · rw [honward.cause] at hcause
      obtain ⟨d', hd', hmade⟩ := h.made j hj hcause
      exact ⟨d', List.mem_append_left _ hd', honward.id ▸ hmade⟩
    · exact ⟨d, by simp, hnew.mp hcause⟩
  · intro j' hj' hcancelled
    rcases hc.back j' hj' with ⟨j, hj, honward⟩ | ⟨-, hgoing, -⟩
    · rw [honward.id]
      exact (h.cancelled j hj (honward.cancelled hcancelled)).append _
    · rw [hcancelled] at hgoing
      cases hgoing
  · intro pre d' post hsplit id hid
    obtain ⟨-, rfl, rfl⟩ | ⟨post', -, hds⟩ := snoc_eq_split hsplit
    · obtain ⟨j, hj, rfl, hcancelled⟩ := hd id hid
      exact h.cancelled j hj hcancelled
    · exact h.blamed pre d' post' hds id hid

theorem stop (h : Blamed ds m) (k : Nat) : Blamed (ds ++ [.stopping k]) m.cancel := by
  have hback {j' : Job} (hj' : j' ∈ m.cancel.jobs) :
      ∃ j ∈ m.jobs, j.id = j'.id ∧ j.cause = j'.cause ∧ (j'.isCancelled = true → j.cause ≠ .caller ∨ j.isCancelled = true) := by
    obtain ⟨j, hj, rfl⟩ := List.mem_map.mp hj'
    refine ⟨j, hj, ?_⟩
    split
    case isTrue hown => exact ⟨rfl, rfl, fun _ => .inl fun hcaller => by simp [isOwn, hcaller] at hown⟩
    case isFalse => exact ⟨rfl, rfl, .inr⟩
  refine ⟨?_, ?_, ?_⟩
  · intro j' hj' hcause
    obtain ⟨j, hj, hsame, hcause', -⟩ := hback hj'
    obtain ⟨d, hd, hmade⟩ := h.made j hj (hcause' ▸ hcause)
    exact ⟨d, mem_snoc.mpr (.inl hd), hsame ▸ hmade⟩
  · intro j' hj' hcancelled
    obtain ⟨j, hj, hsame, -, hwhy⟩ := hback hj'
    rw [← hsame]
    rcases hwhy hcancelled with hown | hbefore
    · exact ⟨ds, k, [], rfl, h.made j hj hown⟩
    · exact (h.cancelled j hj hbefore).append _
  · intro pre d' post hsplit id hid
    obtain ⟨-, -, rfl⟩ | ⟨post', -, hds⟩ := snoc_eq_split hsplit
    · cases hid
    · exact h.blamed pre d' post' hds id hid

theorem stopped (h : Blamed ds m) (k : Nat) : Blamed (ds ++ [.stopped k]) m.forget := by
  have hback {j' : Job} (hj' : j' ∈ m.forget.jobs) :
      ∃ j ∈ m.jobs, j.id = j'.id ∧ (j'.cause ≠ .caller → j.cause ≠ .caller) ∧ j.isCancelled = j'.isCancelled := by
    obtain ⟨j, hj, rfl⟩ := List.mem_map.mp hj'
    refine ⟨j, hj, ?_⟩
    split
    case isTrue => exact ⟨rfl, fun hcause => absurd rfl hcause, rfl⟩
    case isFalse => exact ⟨rfl, id, rfl⟩
  refine ⟨?_, ?_, ?_⟩
  · intro j' hj' hcause
    obtain ⟨j, hj, hsame, hcause', -⟩ := hback hj'
    obtain ⟨d, hd, hmade⟩ := h.made j hj (hcause' hcause)
    exact ⟨d, mem_snoc.mpr (.inl hd), hsame ▸ hmade⟩
  · intro j' hj' hcancelled
    obtain ⟨j, hj, hsame, -, hcancelled'⟩ := hback hj'
    rw [← hsame]
    exact (h.cancelled j hj (hcancelled' ▸ hcancelled)).append _
  · intro pre d' post hsplit id hid
    obtain ⟨-, -, rfl⟩ | ⟨post', -, hds⟩ := snoc_eq_split hsplit
    · cases hid
    · exact h.blamed pre d' post' hds id hid

end Blamed

theorem Step.cancelled (hstep : Step x d y) {id : Nat} (hid : d.cancelled? = some id) :
    ∃ j ∈ x.monitor.jobs, j.id = id ∧ j.isCancelled = true := by
  cases hstep with
  | callOff hj hqueued hc => exact ⟨_, hj, Option.some.inj hid, hc⟩
  | cut hj hcounting hc o => exact ⟨_, hj, Option.some.inj hid, hc⟩
  | leave hj hsleeping hc => exact ⟨_, hj, Option.some.inj hid, hc⟩
  | _ => cases hid

theorem Step.started {id : Nat} (hstep : Step x (.started id) y) :
    x.stops = [] ∧ x.monitor.isRunning = false := by
  cases hstep with
  | start hidle => exact ⟨rfl, hidle⟩

end QualityGate.Watching
