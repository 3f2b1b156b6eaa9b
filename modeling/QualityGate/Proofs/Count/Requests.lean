import Mathlib
import QualityGate.Proofs.Count.Watching

/-! Requests and counts. Every request is answered once, and a count begins only when none is in progress. -/

namespace QualityGate.Monitor

variable {m : Monitor} {l r : List Job} {j : Job}

/-- Jobs have names of their own, so an update by name changes one of them. -/
theorem update_eq (hids : (m.jobs.map Job.id).Nodup) (h : m.jobs = l ++ j :: r) (f : Job → Job) :
    m.update j.id f = { m with jobs := l ++ f j :: r } := by
  rw [h, List.map_append, List.map_cons, List.nodup_middle, List.nodup_cons, ← List.map_append] at hids
  have hother : ∀ i ∈ l ++ r, (if i.id == j.id then f i else i) = i := by
    intro i hi
    have hne : i.id ≠ j.id := fun hid => hids.1 (hid ▸ List.mem_map_of_mem hi)
    simp [hne]
  have hkeep (l' : List Job) (hl' : l' ⊆ l ++ r) : (l'.map fun i => if i.id == j.id then f i else i) = l' := by
    have hid := List.map_congr_left fun i hi => hother i (hl' hi)
    rwa [List.map_id'] at hid
  rw [update, h, List.map_append, List.map_cons, hkeep l (List.subset_append_left l r),
    hkeep r (List.subset_append_right l r)]
  simp

theorem start_of_cancelled (hids : (m.jobs.map Job.id).Nodup) (h : m.jobs = l ++ j :: r) (hc : j.isCancelled = true) :
    m.start j = { m with jobs := l ++ { j with phase := .finished } :: r } := by
  rw [start, if_pos hc, update_eq hids h]

theorem start_of_busy (hids : (m.jobs.map Job.id).Nodup) (h : m.jobs = l ++ j :: r) (hc : j.isCancelled = false)
    (hb : m.isBusy = true) :
    m.start j = { m with jobs := l ++ { j with phase := phaseAfter j } :: r, dropped := m.dropped + 1 } := by
  rw [start, if_neg (by simp [hc]), if_pos hb, update_eq hids h]

theorem start_of_free (hids : (m.jobs.map Job.id).Nodup) (h : m.jobs = l ++ j :: r) (hc : j.isCancelled = false)
    (hb : m.isBusy = false) :
    m.start j = { m with jobs := l ++ { j with phase := .counting } :: r, begun := m.begun + 1 } := by
  rw [start, if_neg (by simp [hc]), if_neg (by simp [hb]), update_eq hids h]

theorem complete_of_cancelled (hids : (m.jobs.map Job.id).Nodup) (h : m.jobs = l ++ j :: r) (hc : j.isCancelled = true)
    (o : Outcome ErrorCount) : m.complete j o = { m with jobs := l ++ { j with phase := .finished } :: r } := by
  rw [complete, if_pos hc, update_eq hids h]

end QualityGate.Monitor

namespace QualityGate.Watching
open Monitor

variable {ds : List Deed} {d : Deed} {m m' : Monitor} {l r : List Job} {j j' : Job}

theorem sameNumbers_iff {a b : ErrorCount} : a.sameNumbers b = true ↔ numbers a = numbers b := by
  simp [ErrorCount.sameNumbers, numbers, and_assoc]

theorem any_sameNumbers (previous : Option ErrorCount) (c : ErrorCount) :
    (previous.any fun p => p.sameNumbers c) = true ↔ previous.map numbers = some (numbers c) := by
  cases previous <;> simp [sameNumbers_iff]

theorem complete_of_going (hids : (m.jobs.map Job.id).Nodup) (h : m.jobs = l ++ j :: r) (hc : j.isCancelled = false)
    (o : Outcome ErrorCount) :
    m.complete j o =
      { m with
        jobs := l ++ { j with phase := phaseAfter j, result := some o } :: r
        latest := o.toOption.or m.latest
        published := m.published ++ ((newsOf m.latest o).map fun (c, previous) => .countsChanged c previous).toList } := by
  rw [complete, if_neg (by simp [hc]), update_eq hids h]
  cases o with
  | error e => simp [newsOf, Except.toOption]
  | ok c =>
    by_cases hsame : m.latest.map numbers = some (numbers c)
    · simp [learn, newsOf, hsame, Except.toOption, (any_sameNumbers m.latest c).mpr hsame]
    · have hnot := Bool.eq_false_iff.mpr (mt (any_sameNumbers m.latest c).mp hsame)
      simp only [learn, hnot]
      simp [newsOf, hsame, Except.toOption]

/-! The jobs and the counts. -/

structure Counted (ds : List Deed) (m : Monitor) : Prop where
  ids : m.jobs.map Job.id = List.range m.jobs.length
  timers : m.jobs.countP isTiming ≤ 1
  sleeping : ∀ j ∈ m.jobs, j.phase = .sleeping → j.cause = .timer
  counting : (m.jobs.filter isCounting).map Job.id = countingAfter ds
  alone : (countingAfter ds).length ≤ 1
  answered : ∀ id, ds.countP (Deed.asks id) = ds.countP (Deed.answers id) + m.jobs.countP (waits id)
  begun : m.begun = ds.countP Deed.begins
  dropped : m.dropped = ds.countP Deed.drops

theorem countingAfter_snoc : countingAfter (ds ++ [d]) = d.counting (countingAfter ds) := by simp [countingAfter]

theorem countP_middle {α : Type} (p : α → Bool) (l r : List α) (a : α) :
    (l ++ a :: r).countP p = (l ++ r).countP p + (p a).toNat := by
  cases h : p a <;> simp [h, Nat.add_assoc]

/-- Deeds that are no part of a request that waits or of a count. -/
def Deed.isApart : Deed → Bool
  | .refused _ | .heard _ | .spared _ | .left _ | .stopping _ | .stopped _ => true
  | _ => false

theorem counting_of_apart (hd : d.isApart = true) (l : List Nat) : d.counting l = l := by
  cases d <;> first | rfl | cases hd

theorem unasked_of_apart (hd : d.isApart = true) (id : Nat) : d.asks id = false ∧ d.answers id = false := by
  cases d <;> first | exact ⟨rfl, rfl⟩ | cases hd

theorem begins_of_apart (hd : d.isApart = true) : d.begins = false := by
  cases d <;> first | rfl | cases hd

theorem waits_of_ne (hj : j.phase ≠ .queued) (id : Nat) : waits id j = false := by simp [waits, hj]

namespace Counted

theorem initial : Counted [] {} where
  ids := rfl
  timers := by decide
  sleeping := by simp
  counting := rfl
  alone := by decide
  answered _ := rfl
  begun := rfl
  dropped := rfl

theorem nodup (h : Counted ds m) : (m.jobs.map Job.id).Nodup := by
  rw [h.ids]
  exact List.nodup_range

theorem snoc (h : Counted ds m) (hids : m'.jobs.map Job.id = List.range m'.jobs.length)
    (htimers : m'.jobs.countP isTiming ≤ 1) (hsleeping : ∀ j ∈ m'.jobs, j.phase = .sleeping → j.cause = .timer)
    (hcounting : (m'.jobs.filter isCounting).map Job.id = d.counting (countingAfter ds))
    (halone : (d.counting (countingAfter ds)).length ≤ 1)
    (hwaits : ∀ id, (d.asks id).toNat + m.jobs.countP (waits id) = (d.answers id).toNat + m'.jobs.countP (waits id))
    (hbegun : m'.begun = m.begun + d.begins.toNat) (hdropped : m'.dropped = m.dropped + d.drops.toNat) :
    Counted (ds ++ [d]) m' := by
  refine ⟨hids, htimers, hsleeping, ?_, ?_, fun id => ?_, ?_, ?_⟩
  · rw [countingAfter_snoc, hcounting]
  · rwa [countingAfter_snoc]
  · have hbefore := h.answered id
    have hstep := hwaits id
    rw [countP_snoc, countP_snoc]
    omega
  · rw [countP_snoc, ← h.begun, hbegun]
  · rw [countP_snoc, ← h.dropped, hdropped]

/-- What happens to all jobs alike. -/
theorem mapped (h : Counted ds m) (hd : d.isApart = true) (f : Job → Job) (hid : ∀ j, (f j).id = j.id)
    (hphase : ∀ j, (f j).phase = j.phase) (hcause : ∀ j, (f j).cause = .timer ↔ j.cause = .timer)
    (hjobs : m'.jobs = m.jobs.map f) (hbegun : m'.begun = m.begun) (hdropped : m'.dropped = m.dropped + d.drops.toNat) :
    Counted (ds ++ [d]) m' := by
  have hcounting : isCounting ∘ f = isCounting := funext fun j => by simp [isCounting, hphase]
  have hwaits (id : Nat) : waits id ∘ f = waits id := funext fun j => by simp [waits, hid, hphase]
  have htiming : isTiming ∘ f = isTiming := by
    funext j
    have hiff : ((f j).cause == .timer) = (j.cause == .timer) := by
      rw [Bool.eq_iff_iff, beq_iff_eq, beq_iff_eq, hcause]
    simp [isTiming, hphase, hiff]
  have hids : Job.id ∘ f = Job.id := funext hid
  apply h.snoc
  · rw [hjobs, List.map_map, hids, h.ids, List.length_map]
  · rw [hjobs, List.countP_map, htiming]
    exact h.timers
  · intro j hj hsleeping
    rw [hjobs] at hj
    obtain ⟨i, hi, rfl⟩ := List.mem_map.mp hj
    exact (hcause i).mpr (h.sleeping i hi (hphase i ▸ hsleeping))
  · rw [hjobs, List.filter_map, List.map_map, hids, hcounting, h.counting, counting_of_apart hd]
  · rw [counting_of_apart hd]
    exact h.alone
  · intro id
    rw [hjobs, List.countP_map, hwaits, (unasked_of_apart hd id).1, (unasked_of_apart hd id).2]
  · rw [hbegun, begins_of_apart hd]
    rfl
  · exact hdropped

/-- What happens to no job. -/
theorem same (h : Counted ds m) (hd : d.isApart = true) (hjobs : m'.jobs = m.jobs) (hbegun : m'.begun = m.begun)
    (hdropped : m'.dropped = m.dropped + d.drops.toNat) : Counted (ds ++ [d]) m' :=
  h.mapped hd id (fun _ => rfl) (fun _ => rfl) (fun _ => Iff.rfl) (by rw [hjobs, List.map_id]) hbegun hdropped

theorem queued (h : Counted ds m) (cause : CountCause) (htimer : cause = .timer → m.isRunning = false)
    (hjobs : m'.jobs = m.jobs ++ [{ id := m.jobs.length, cause }]) (hcounting : ∀ l, d.counting l = l)
    (hasks : ∀ id, d.asks id = (m.jobs.length == id)) (hanswers : ∀ id, d.answers id = false)
    (hbegun : m'.begun = m.begun + d.begins.toNat) (hdropped : m'.dropped = m.dropped + d.drops.toNat) :
    Counted (ds ++ [d]) m' := by
  apply h.snoc
  · simp [hjobs, h.ids, List.range_succ]
  · by_cases hcause : cause = .timer
    · have hnone : m.jobs.countP isTiming = 0 := by
        rw [List.countP_eq_zero]
        have hidle := htimer hcause
        rw [isRunning, List.any_eq_false] at hidle
        exact hidle
      rw [hjobs, countP_snoc, hnone]
      simpa using Bool.toNat_le _
    · have hother : (cause == .timer) = false := beq_eq_false_iff_ne.mpr hcause
      rw [hjobs, countP_snoc]
      simpa [isTiming, hother] using h.timers
  · intro j hj hsleeping
    rw [hjobs] at hj
    rcases List.mem_append.mp hj with hj | hj
    · exact h.sleeping j hj hsleeping
    · rw [List.mem_singleton.mp hj] at hsleeping
      cases hsleeping
  · rw [hjobs, List.filter_append, hcounting, ← h.counting]
    simp [isCounting]
  · rw [hcounting]
    exact h.alone
  · intro id
    rw [hjobs, countP_snoc, hasks, hanswers]
    simp [waits, Nat.add_comm]
  · exact hbegun
  · exact hdropped

/-- What happens to one job. -/
theorem replaced (h : Counted ds m) (hjobs : m.jobs = l ++ j :: r)
    (hjobs' : m'.jobs = l ++ j' :: r) (hid : j'.id = j.id) (hcause : j'.cause = j.cause) (hphase : j.phase ≠ .finished)
    (hsleeping : j'.phase = .sleeping → j.cause = .timer)
    (hcounting : ((l ++ j' :: r).filter isCounting).map Job.id = d.counting (countingAfter ds))
    (halone : (d.counting (countingAfter ds)).length ≤ 1)
    (hwaits : ∀ id, (d.asks id).toNat + (waits id j).toNat = (d.answers id).toNat + (waits id j').toNat)
    (hbegun : m'.begun = m.begun + d.begins.toNat) (hdropped : m'.dropped = m.dropped + d.drops.toNat) :
    Counted (ds ++ [d]) m' := by
  have hids := h.ids
  have htimers := h.timers
  rw [hjobs] at hids htimers
  apply h.snoc
  · rw [hjobs']
    simpa [hid] using hids
  · rw [hjobs', countP_middle]
    rw [countP_middle] at htimers
    have hle : (isTiming j').toNat ≤ (isTiming j).toNat := by
      have hunfinished : (j.phase != .finished) = true := bne_iff_ne.mpr hphase
      rw [isTiming, isTiming, hcause, hunfinished, Bool.and_true]
      exact Bool.toNat_le_toNat (Bool.and_le_left _ _)
    omega
  · intro i hi hi'
    rw [hjobs'] at hi
    rcases List.mem_append.mp hi with hl | hr
    · exact h.sleeping i (by simp [hjobs, hl]) hi'
    · rcases List.mem_cons.mp hr with rfl | hr
      · rw [hcause]
        exact hsleeping hi'
      · exact h.sleeping i (by simp [hjobs, hr]) hi'
  · rw [hjobs', hcounting]
  · exact halone
  · intro id
    have hone := hwaits id
    rw [hjobs, hjobs', countP_middle, countP_middle]
    omega
  · exact hbegun
  · exact hdropped

end Counted

theorem filter_middle {α : Type} {p : α → Bool} {a : α} (h : p a = false) (l r : List α) :
    (l ++ a :: r).filter p = (l ++ r).filter p := by
  simp [h]

namespace Counted

theorem isBusy_iff (h : Counted ds m) : m.isBusy = true ↔ countingAfter ds ≠ [] := by
  rw [← h.counting, Ne, List.map_eq_nil_iff, List.filter_eq_nil_iff, isBusy, List.any_eq_true]
  simp [isCounting]

theorem none_counting (h : Counted ds m) (hjobs : m.jobs = l ++ j :: r)
    (hj : isCounting j = false) (hj' : isCounting j' = false) :
    ((l ++ j' :: r).filter isCounting).map Job.id = countingAfter ds := by
  rw [filter_middle hj', ← filter_middle hj, ← hjobs, h.counting]

theorem nobody_counting (h : Counted ds m) (hjobs : m.jobs = l ++ j :: r)
    (hb : m.isBusy = false) : l.filter isCounting = [] ∧ r.filter isCounting = [] ∧ countingAfter ds = [] := by
  have hidle : countingAfter ds = [] := by
    by_contra hbusy
    exact Bool.eq_false_iff.mp hb (h.isBusy_iff.mpr hbusy)
  have hnone := h.counting
  rw [hidle, List.map_eq_nil_iff, hjobs, List.filter_append, List.append_eq_nil_iff] at hnone
  have hr := (List.sublist_cons_self j r).filter isCounting
  rw [hnone.2] at hr
  exact ⟨hnone.1, List.sublist_nil.mp hr, hidle⟩

/-- The others, where one job is in its count. -/
theorem only_counting (h : Counted ds m) (hjobs : m.jobs = l ++ j :: r)
    (hj : j.phase = .counting) : (l ++ r).filter isCounting = [] ∧ countingAfter ds = [j.id] := by
  have hcounting := h.counting
  have halone := h.alone
  rw [hjobs, List.filter_append, List.filter_cons_of_pos (by simp [isCounting, hj])] at hcounting
  rw [← hcounting] at halone
  simp only [List.map_append, List.map_cons, List.length_append, List.length_cons, List.length_map] at halone
  have hl : l.filter isCounting = [] := List.length_eq_zero_iff.mp (by omega)
  have hr : r.filter isCounting = [] := List.length_eq_zero_iff.mp (by omega)
  rw [List.filter_append, hl, hr]
  rw [hl, hr] at hcounting
  exact ⟨rfl, hcounting.symm⟩

/-- Only one timer can wait for its tick. -/
theorem tick_eq (h : Counted ds m) (hjobs : m.jobs = l ++ j :: r)
    (hj : j.phase = .sleeping) : m.tick = { m with jobs := l ++ { j with phase := .queued } :: r } := by
  have hmem : j ∈ m.jobs := by simp [hjobs]
  have htiming : isTiming j = true := by simp [isTiming, hj, h.sleeping j hmem hj]
  have htimers := h.timers
  rw [hjobs, countP_middle, htiming] at htimers
  have hnone : (l ++ r).countP isTiming = 0 := by
    rw [Bool.toNat_true] at htimers
    omega
  have hawake : ∀ i ∈ l ++ r, (if i.phase == .sleeping then { i with phase := .queued } else i) = i := by
    intro i hi
    have hnot : i.phase ≠ .sleeping := by
      intro hsleeping
      have hi' : i ∈ m.jobs := by
        rw [hjobs]
        exact ((List.sublist_cons_self j r).append_left l).subset hi
      exact List.countP_eq_zero.mp hnone i hi (by simp [isTiming, hsleeping, h.sleeping i hi' hsleeping])
    simp [hnot]
  have hkeep (l' : List Job) (hl' : l' ⊆ l ++ r) :
      (l'.map fun i => if i.phase == .sleeping then { i with phase := .queued } else i) = l' := by
    have hid := List.map_congr_left fun i hi => hawake i (hl' hi)
    rwa [List.map_id'] at hid
  rw [tick, hjobs, List.map_append, List.map_cons, hkeep l (List.subset_append_left l r),
    hkeep r (List.subset_append_right l r)]
  simp [hj]

end Counted

theorem receive_of_drops {via : Option Event} (hvia : m.heeds via = true) (h : m.dropsChange = true) :
    m.receive via = { m with dropped := m.dropped + 1, published := m.published ++ via.toList } := by
  cases via with
  | none => simp [receive, notify, h]
  | some e =>
    have hheard : (m.isSubscribed && EventKind.diagnosticsChanged.covers e.kind) = true := by simpa [heeds] using hvia
    have hdrops : dropsChange { m with published := m.published ++ [e] } = true := h
    simp only [receive, hear, hheard, notify, hdrops]
    rfl

theorem receive_of_accepts {via : Option Event} (hvia : m.heeds via = true) (h : m.dropsChange = false) :
    m.receive via = { m.enqueue .change with published := m.published ++ via.toList } := by
  cases via with
  | none => simp [receive, notify, h, enqueue]
  | some e =>
    have hheard : (m.isSubscribed && EventKind.diagnosticsChanged.covers e.kind) = true := by simpa [heeds] using hvia
    have hdrops : dropsChange { m with published := m.published ++ [e] } = false := h
    simp only [receive, hear, hheard, notify, hdrops]
    rfl

theorem hear_of_unheeded {e : Event} (he : m.heeds (some e) = false) :
    m.hear e = { m with published := m.published ++ [e] } := by
  have hunheard : (m.isSubscribed && EventKind.diagnosticsChanged.covers e.kind) = false := by simpa [heeds] using he
  simp only [hear, hunheard]
  rfl

theorem begin_of_idle (h : m.isRunning = false) : m.begin = { m.enqueue .timer with isSubscribed := true } := by
  simp [Monitor.begin, h]

theorem phaseAfter_ne (j : Job) : phaseAfter j ≠ .counting ∧ phaseAfter j ≠ .queued := by
  unfold phaseAfter
  split <;> simp

theorem timer_of_phaseAfter (h : phaseAfter j = .sleeping) : j.cause = .timer := by
  by_contra hne
  simp [phaseAfter, hne] at h

/-- Whatever is done keeps the jobs and the counts in order. -/
theorem Counted.step {x y : State} (h : Counted ds x.monitor) (hstep : Step x d y) : Counted (ds ++ [d]) y.monitor := by
  cases hstep with
  | poll => exact h.queued .caller nofun rfl (fun _ => rfl) (fun _ => rfl) (fun _ => rfl) rfl rfl
  | accept hvia hdrops =>
    rw [receive_of_accepts hvia hdrops]
    exact h.queued .change nofun rfl (fun _ => rfl) (fun _ => rfl) (fun _ => rfl) rfl rfl
  | refuse hvia hdrops =>
    rw [receive_of_drops hvia hdrops]
    exact h.same rfl rfl rfl rfl
  | echo hvia => exact h.same rfl rfl rfl rfl
  | overhear he =>
    rw [hear_of_unheeded he]
    exact h.same rfl rfl rfl rfl
  | start hidle =>
    rw [begin_of_idle hidle]
    exact h.queued .timer (fun _ => hidle) rfl (fun _ => rfl) (fun _ => rfl) (fun _ => rfl) rfl rfl
  | tick hj hsleeping =>
    obtain ⟨l, r, hjobs⟩ := List.append_of_mem hj
    rw [h.tick_eq hjobs hsleeping]
    refine h.replaced hjobs rfl rfl rfl (by simp [hsleeping]) nofun ?_ h.alone ?_ rfl rfl
    · exact h.none_counting hjobs (by simp [isCounting, hsleeping]) rfl
    · simp [Deed.asks, Deed.answers, waits, hsleeping]
  | begin hj hqueued hc hb =>
    obtain ⟨l, r, hjobs⟩ := List.append_of_mem hj
    obtain ⟨hl, hr, hidle⟩ := h.nobody_counting hjobs hb
    rw [start_of_free h.nodup hjobs hc hb]
    refine h.replaced hjobs rfl rfl rfl (by simp [hqueued]) nofun ?_ ?_ ?_ rfl rfl
    · rw [List.filter_append, List.filter_cons_of_pos rfl, hl, hr, hidle]
      rfl
    · simp [hidle, Deed.counting]
    · simp [Deed.asks, Deed.answers, waits, hqueued]
  | drop hj hqueued hc hb =>
    obtain ⟨l, r, hjobs⟩ := List.append_of_mem hj
    rw [start_of_busy h.nodup hjobs hc hb]
    refine h.replaced hjobs rfl rfl rfl (by simp [hqueued]) timer_of_phaseAfter ?_ h.alone ?_ rfl rfl
    · exact h.none_counting hjobs (by simp [isCounting, hqueued]) (by simp [isCounting, phaseAfter_ne])
    · simp [Deed.asks, Deed.answers, waits, hqueued, phaseAfter_ne]
  | callOff hj hqueued hc =>
    obtain ⟨l, r, hjobs⟩ := List.append_of_mem hj
    rw [start_of_cancelled h.nodup hjobs hc]
    refine h.replaced hjobs rfl rfl rfl (by simp [hqueued]) nofun ?_ h.alone ?_ rfl rfl
    · exact h.none_counting hjobs (by simp [isCounting, hqueued]) rfl
    · simp [Deed.asks, Deed.answers, waits, hqueued]
  | complete hj hcounting hc o =>
    obtain ⟨l, r, hjobs⟩ := List.append_of_mem hj
    obtain ⟨hothers, hone⟩ := h.only_counting hjobs hcounting
    rw [complete_of_going h.nodup hjobs hc]
    refine h.replaced hjobs rfl rfl rfl (by simp [hcounting]) timer_of_phaseAfter ?_ ?_ ?_ rfl rfl
    · rw [filter_middle (by simp [isCounting, phaseAfter_ne]), hothers, hone]
      simp [Deed.counting]
    · simp [hone, Deed.counting]
    · simp [Deed.asks, Deed.answers, waits_of_ne, hcounting, phaseAfter_ne]
  | cut hj hcounting hc o =>
    obtain ⟨l, r, hjobs⟩ := List.append_of_mem hj
    obtain ⟨hothers, hone⟩ := h.only_counting hjobs hcounting
    rw [complete_of_cancelled h.nodup hjobs hc]
    refine h.replaced hjobs rfl rfl rfl (by simp [hcounting]) nofun ?_ ?_ ?_ rfl rfl
    · rw [filter_middle rfl, hothers, hone]
      simp [Deed.counting]
    · simp [hone, Deed.counting]
    · simp [Deed.asks, Deed.answers, waits_of_ne, hcounting]
  | spare hj hcounting =>
    exact h.mapped rfl _ (fun _ => by split <;> rfl) (fun _ => by split <;> rfl) (fun _ => by split <;> rfl) rfl rfl rfl
  | leave hj hsleeping hc =>
    obtain ⟨l, r, hjobs⟩ := List.append_of_mem hj
    rw [update_eq h.nodup hjobs]
    refine h.replaced hjobs rfl rfl rfl (by simp [hsleeping]) nofun ?_ h.alone ?_ rfl rfl
    · exact h.none_counting hjobs (by simp [isCounting, hsleeping]) rfl
    · simp [Deed.asks, Deed.answers, waits_of_ne, hsleeping]
  | stop =>
    exact h.mapped rfl _ (fun _ => by split <;> rfl) (fun _ => by split <;> rfl) (fun _ => by split <;> rfl) rfl rfl rfl
  | stopped hover =>
    refine h.mapped rfl _ (fun _ => by split <;> rfl) (fun _ => by split <;> rfl) (fun j => ?_) rfl rfl rfl
    split
    case isTrue hchange => simp_all
    case isFalse => rfl

end QualityGate.Watching
