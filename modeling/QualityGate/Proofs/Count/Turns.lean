import Mathlib
import QualityGate.Proofs.Count.Requests

/-! A watch lets jobs take their turns, first come, first served. Each of its turns is a step or two, and once all
have had theirs no job is left that waits to begin or to stop. -/

namespace QualityGate

/-- What can be asked of a watch. -/
inductive Watch.Order where
  | poll | notify
  | hear (e : Event)
  | start | stop | hold | release
  | set (value : Outcome ErrorCount)
  | settle

namespace Watch

def obey (w : Watch) : Order → Watch
  | .poll => w.request.1
  | .notify => w.adding Monitor.notify
  | .hear e => w.adding fun m => m.hear e
  | .start => w.adding Monitor.begin
  | .stop => w.stop
  | .hold => { w with isOpen := false }
  | .release => w.release
  | .set value => { w with value }
  | .settle => w.settle

def run (orders : List Order) : Watch := orders.foldl obey {}

end Watch

namespace Watching
open Monitor

variable {ds : List Deed} {m m' m'' : Monitor} {l r : List Job} {j j' : Job} {w : Watch}

theorem job?_middle (hids : (m.jobs.map Job.id).Nodup) (h : m.jobs = l ++ j :: r) : m.job? j.id = some j := by
  rw [h, List.map_append, List.map_cons, List.nodup_middle, List.nodup_cons, ← List.map_append] at hids
  have hnone : l.find? (fun i => i.id == j.id) = none := by
    rw [List.find?_eq_none]
    intro i hi hid
    rw [← beq_iff_eq.mp hid] at hids
    exact hids.1 (List.mem_map_of_mem (List.mem_append_left r hi))
  rw [job?, h, List.find?_append, hnone]
  simp

theorem exists_of_job? {id : Nat} (h : m.job? id = some j) : j.id = id ∧ ∃ l r, m.jobs = l ++ j :: r := by
  have hid := List.find?_some h
  exact ⟨beq_iff_eq.mp hid, List.append_of_mem (List.mem_of_find?_eq_some h)⟩

theorem ne_of_job?_eq_none {id : Nat} (h : m.job? id = none) (hj : j ∈ m.jobs) : j.id ≠ id := by
  rw [job?, List.find?_eq_none] at h
  exact fun hid => h j hj (beq_iff_eq.mpr hid)

/-- What becomes of jobs that take turns. -/
def Went (m m' : Monitor) : Prop :=
  ∀ j' ∈ m'.jobs, ∃ j ∈ m.jobs, j.id = j'.id ∧ j.cause = j'.cause ∧ j.isCancelled = j'.isCancelled ∧
    (j'.phase ≠ .finished → j.phase ≠ .finished)

theorem Went.refl (m : Monitor) : Went m m := fun j hj => ⟨j, hj, rfl, rfl, rfl, id⟩

theorem Went.trans (h : Went m m') (h' : Went m' m'') : Went m m'' := by
  intro j'' hj''
  obtain ⟨j', hj', hid', hcause', hcancelled', hunfinished'⟩ := h' j'' hj''
  obtain ⟨j, hj, hid, hcause, hcancelled, hunfinished⟩ := h j' hj'
  exact ⟨j, hj, hid.trans hid', hcause.trans hcause', hcancelled.trans hcancelled', hunfinished ∘ hunfinished'⟩

/-- Jobs that do not begin or stop before they have had a turn. -/
def Due (j : Job) : Prop := j.phase = .queued ∨ j.isCancelled = true ∧ j.phase ≠ .finished

/-- Those who are due can go on. -/
def Pending (ready : List Nat) (m : Monitor) : Prop := ∀ j ∈ m.jobs, Due j → j.id ∈ ready

/-- A turn of one job. -/
structure Advanced (id : Nat) (m m' : Monitor) : Prop where
  went : Went m m'
  others : ∀ j' ∈ m'.jobs, j'.id ≠ id → j' ∈ m.jobs
  moved : ∀ j' ∈ m'.jobs, j'.id = id → ¬Due j'

namespace Advanced

theorem absent {id : Nat} (h : m.job? id = none) : Advanced id m m :=
  ⟨.refl m, fun _ hj _ => hj, fun _ hj hid => absurd hid (ne_of_job?_eq_none h hj)⟩

theorem replaced (hids : (m.jobs.map Job.id).Nodup) (hjobs : m.jobs = l ++ j :: r) (hjobs' : m'.jobs = l ++ j' :: r)
    (hid : j'.id = j.id) (hcause : j'.cause = j.cause) (hcancelled : j'.isCancelled = j.isCancelled)
    (hunfinished : j'.phase ≠ .finished → j.phase ≠ .finished) (hdue : ¬Due j') : Advanced j.id m m' := by
  have hold : ∀ i ∈ l ++ r, i ∈ m.jobs := by
    intro i hi
    rw [hjobs]
    exact ((List.sublist_cons_self j r).append_left l).subset hi
  have hsplit : ∀ i ∈ m'.jobs, i = j' ∨ i ∈ l ++ r := by
    intro i hi
    rw [hjobs'] at hi
    simpa [or_left_comm, or_comm, or_assoc] using hi
  have hothers : ∀ i ∈ l ++ r, i.id ≠ j.id := by
    rw [hjobs, List.map_append, List.map_cons, List.nodup_middle, List.nodup_cons, ← List.map_append] at hids
    intro i hi hsame
    exact hids.1 (hsame ▸ List.mem_map_of_mem hi)
  constructor
  · intro i hi
    rcases hsplit i hi with rfl | hi
    · exact ⟨j, by simp [hjobs], hid.symm, hcause.symm, hcancelled.symm, hunfinished⟩
    · exact ⟨i, hold i hi, rfl, rfl, rfl, id⟩
  · intro i hi hne
    rcases hsplit i hi with rfl | hi
    · exact absurd hid hne
    · exact hold i hi
  · intro i hi hsame
    rcases hsplit i hi with rfl | hi
    · exact hdue
    · exact absurd hsame (hothers i hi)

theorem pending {id : Nat} {ready : List Nat} (h : Advanced id m m') (hready : Pending (id :: ready) m) :
    Pending ready m' := by
  intro j' hj' hdue
  by_cases hid : j'.id = id
  · exact absurd hdue (h.moved j' hj' hid)
  · exact (List.mem_cons.mp (hready j' (h.others j' hj' hid) hdue)).resolve_left hid

end Advanced

theorem Counted.reached {x y : State} {ds' : List Deed} (h : Counted ds x.monitor) (h' : Trace Step x ds' y) :
    ∃ ds'', Counted ds'' y.monitor := by
  induction h' with
  | nil => exact ⟨ds, h⟩
  | snoc _ hstep ih =>
    obtain ⟨ds'', hcounted⟩ := ih
    exact ⟨_, hcounted.step hstep⟩

theorem not_due_of_finished (h : j.phase = .finished) : ¬Due j := by simp [Due, h]

theorem not_due_of_going (hphase : j.phase ≠ .queued) (hc : j.isCancelled = false) : ¬Due j := by simp [Due, hphase, hc]

section turns

variable {s : List (Nat × List Nat)} {n : Nat} {t : Bool}

/-- The turn of a job that is in its count. -/
theorem advanceCounting_reached (hids : (w.monitor.jobs.map Job.id).Nodup) (hjobs : w.monitor.jobs = l ++ j :: r)
    (hcounting : j.phase = .counting) :
    (∃ ds' t', Trace Step ⟨w.monitor, s, n, t⟩ ds' ⟨(w.advanceCounting j).monitor, s, n, t'⟩) ∧
      Advanced j.id w.monitor (w.advanceCounting j).monitor := by
  have hmem : j ∈ w.monitor.jobs := by simp [hjobs]
  cases hc : j.isCancelled with
  | true =>
    have hadvance : w.advanceCounting j = { w with monitor := w.monitor.complete j w.value } := by
      simp [Watch.advanceCounting, hc]
    rw [hadvance]
    refine ⟨⟨_, _, .single (.cut hmem hcounting hc w.value)⟩, ?_⟩
    rw [complete_of_cancelled hids hjobs hc]
    exact .replaced hids hjobs rfl rfl rfl rfl (by simp) (not_due_of_finished rfl)
  | false =>
    cases hopen : w.isOpen with
    | true =>
      have hadvance : w.advanceCounting j = { w with monitor := w.monitor.complete j w.value } := by
        simp [Watch.advanceCounting, hopen]
      rw [hadvance]
      refine ⟨⟨_, _, .single (.complete hmem hcounting hc w.value)⟩, ?_⟩
      rw [complete_of_going hids hjobs hc]
      exact .replaced hids hjobs rfl rfl rfl rfl (by simp [hcounting]) (not_due_of_going (phaseAfter_ne j).2 hc)
    | false =>
      have hadvance : w.advanceCounting j = w := by simp [Watch.advanceCounting, hopen, hc]
      rw [hadvance]
      exact ⟨⟨[], t, .nil⟩, .replaced hids hjobs hjobs rfl rfl rfl id (not_due_of_going (by simp [hcounting]) hc)⟩

/-- The turn of a job that is to begin. -/
theorem advanceQueued_reached (hcounted : Counted ds w.monitor) (hjobs : w.monitor.jobs = l ++ j :: r)
    (hqueued : j.phase = .queued) :
    (∃ ds' t', Trace Step ⟨w.monitor, s, n, t⟩ ds' ⟨(w.advanceQueued j).monitor, s, n, t'⟩) ∧
      Advanced j.id w.monitor (w.advanceQueued j).monitor := by
  have hids := hcounted.nodup
  have hmem : j ∈ w.monitor.jobs := by simp [hjobs]
  -- The job as it is after the first step, which is the last one unless that began a count.
  have hrest (i : Job) {d : Deed} {t' : Bool} (hid : i.id = j.id) (hcause : i.cause = j.cause)
      (hcancelled : i.isCancelled = j.isCancelled) (hstarted : (w.monitor.start j).jobs = l ++ i :: r)
      (hstep : Step ⟨w.monitor, s, n, t⟩ d ⟨w.monitor.start j, s, n, t'⟩) (hdue : ¬Due i) :
      (∃ ds' t', Trace Step ⟨w.monitor, s, n, t⟩ ds' ⟨(w.advanceQueued j).monitor, s, n, t'⟩) ∧
        Advanced j.id w.monitor (w.advanceQueued j).monitor := by
    have hnodup := (hcounted.step hstep).nodup
    have hfound : (w.monitor.start j).job? j.id = some i := by
      rw [← hid]
      exact job?_middle hnodup hstarted
    have hfirst : Advanced j.id w.monitor (w.monitor.start j) :=
      .replaced hids hjobs hstarted hid hcause hcancelled (by simp [hqueued]) hdue
    by_cases hcounting : i.phase = .counting
    · have hadvance : w.advanceQueued j = Watch.advanceCounting { w with monitor := w.monitor.start j } i := by
        simp [Watch.advanceQueued, hfound, hcounting]
      rw [hadvance]
      obtain ⟨⟨ds', t'', htrace⟩, hsecond⟩ :=
        advanceCounting_reached (w := { w with monitor := w.monitor.start j }) hnodup hstarted hcounting
      refine ⟨⟨_, t'', .cons hstep htrace⟩, hfirst.went.trans hsecond.went, ?_, ?_⟩
      · intro i' hi' hne
        exact hfirst.others i' (hsecond.others i' hi' (hid ▸ hne)) hne
      · intro i' hi' hsame
        exact hsecond.moved i' hi' (hid ▸ hsame)
    · have hadvance : w.advanceQueued j = { w with monitor := w.monitor.start j } := by
        simp [Watch.advanceQueued, hfound, hcounting]
      rw [hadvance]
      exact ⟨⟨_, _, .single hstep⟩, hfirst⟩
  cases hc : j.isCancelled with
  | true =>
    have hstarted : (w.monitor.start j).jobs = l ++ { j with phase := .finished } :: r := by
      rw [start_of_cancelled hids hjobs hc]
    exact hrest { j with phase := .finished } rfl rfl rfl hstarted (.callOff hmem hqueued hc) (not_due_of_finished rfl)
  | false =>
    cases hb : w.monitor.isBusy with
    | true =>
      have hstarted : (w.monitor.start j).jobs = l ++ { j with phase := phaseAfter j } :: r := by
        rw [start_of_busy hids hjobs hc hb]
      exact hrest { j with phase := phaseAfter j } rfl rfl rfl hstarted (.drop hmem hqueued hc hb) (not_due_of_going (phaseAfter_ne j).2 hc)
    | false =>
      have hstarted : (w.monitor.start j).jobs = l ++ { j with phase := .counting } :: r := by
        rw [start_of_free hids hjobs hc hb]
      exact hrest { j with phase := .counting } rfl rfl rfl hstarted (.begin hmem hqueued hc hb) (not_due_of_going nofun hc)

theorem advance_reached (hcounted : Counted ds w.monitor) (id : Nat) :
    (∃ ds' t', Trace Step ⟨w.monitor, s, n, t⟩ ds' ⟨(w.advance id).monitor, s, n, t'⟩) ∧
      Advanced id w.monitor (w.advance id).monitor := by
  have hids := hcounted.nodup
  cases hfound : w.monitor.job? id with
  | none =>
    have hadvance : w.advance id = w := by simp [Watch.advance, hfound]
    rw [hadvance]
    exact ⟨⟨[], t, .nil⟩, .absent hfound⟩
  | some j =>
    obtain ⟨rfl, l, r, hjobs⟩ := exists_of_job? hfound
    have hmem : j ∈ w.monitor.jobs := by simp [hjobs]
    cases hphase : j.phase with
    | queued =>
      have hadvance : w.advance j.id = w.advanceQueued j := by simp [Watch.advance, hfound, hphase]
      rw [hadvance]
      exact advanceQueued_reached hcounted hjobs hphase
    | counting =>
      have hadvance : w.advance j.id = w.advanceCounting j := by simp [Watch.advance, hfound, hphase]
      rw [hadvance]
      exact advanceCounting_reached hids hjobs hphase
    | sleeping =>
      cases hc : j.isCancelled with
      | true =>
        have hadvance : w.advance j.id =
            { w with monitor := w.monitor.update j.id fun j => { j with phase := .finished } } := by
          simp [Watch.advance, hfound, hphase, hc]
        rw [hadvance]
        refine ⟨⟨_, _, .single (.leave hmem hphase hc)⟩, ?_⟩
        rw [update_eq hids hjobs]
        exact .replaced hids hjobs rfl rfl rfl rfl (by simp) (not_due_of_finished rfl)
      | false =>
        have hadvance : w.advance j.id = w := by simp [Watch.advance, hfound, hphase, hc]
        rw [hadvance]
        exact ⟨⟨[], t, .nil⟩, .replaced hids hjobs hjobs rfl rfl rfl id (not_due_of_going (by simp [hphase]) hc)⟩
    | finished =>
      have hadvance : w.advance j.id = w := by simp [Watch.advance, hfound, hphase]
      rw [hadvance]
      exact ⟨⟨[], t, .nil⟩, .replaced hids hjobs hjobs rfl rfl rfl id (not_due_of_finished hphase)⟩

/-- All have their turns, and what is asked for meanwhile is nothing. -/
theorem advances_reached (ready : List Nat) (hcounted : Counted ds w.monitor) :
    (∃ ds' t', Trace Step ⟨w.monitor, s, n, t⟩ ds' ⟨(ready.foldl Watch.advance w).monitor, s, n, t'⟩) ∧
      Went w.monitor (ready.foldl Watch.advance w).monitor ∧
      (Pending ready w.monitor → Pending [] (ready.foldl Watch.advance w).monitor) := by
  induction ready generalizing w ds t with
  | nil => exact ⟨⟨[], t, .nil⟩, .refl _, id⟩
  | cons id ready ih =>
    obtain ⟨⟨first, t', hfirst⟩, hadvanced⟩ := advance_reached (s := s) (n := n) (t := t) hcounted id
    obtain ⟨ds', hcounted'⟩ := hcounted.reached hfirst
    obtain ⟨⟨rest, t'', hrest⟩, hwent, hpending⟩ := ih (t := t') hcounted'
    exact ⟨⟨_, t'', hfirst.trans hrest⟩, hadvanced.went.trans hwent, fun hready => hpending (hadvanced.pending hready)⟩

end turns

section orders

variable {n : Nat} {t : Bool}

theorem Pending.mono {ready ready' : List Nat} (h : Pending ready m) (hsub : ready ⊆ ready') : Pending ready' m :=
  fun j hj hdue => hsub (h j hj hdue)

/-- What is added can go on. -/
theorem pending_adding {f : Monitor → Monitor} {new : List Job} (hready : Pending w.ready w.monitor)
    (hjobs : (f w.monitor).jobs = w.monitor.jobs ++ new) : Pending (w.adding f).ready (w.adding f).monitor := by
  have hdrop : (f w.monitor).jobs.drop w.monitor.jobs.length = new := by rw [hjobs, List.drop_left]
  intro j hj hdue
  simp only [Watch.adding, hjobs, List.mem_append] at hj
  simp only [Watch.adding, hdrop, List.mem_append]
  rcases hj with hj | hj
  · exact .inl (hready j hj hdue)
  · exact .inr (List.mem_map_of_mem hj)

theorem receive_reached (via : Option Event) (hvia : w.monitor.heeds via = true) (hready : Pending w.ready w.monitor) :
    (∃ ds' t', Trace Step ⟨w.monitor, [], n, t⟩ ds' ⟨(w.adding fun m => m.receive via).monitor, [], n, t'⟩) ∧
      Pending (w.adding fun m => m.receive via).ready (w.adding fun m => m.receive via).monitor := by
  cases hdrops : w.monitor.dropsChange with
  | true =>
    have hjobs : (w.monitor.receive via).jobs = w.monitor.jobs ++ [] := by
      rw [receive_of_drops hvia hdrops, List.append_nil]
    exact ⟨⟨_, _, .single (.refuse hvia hdrops)⟩, pending_adding hready hjobs⟩
  | false =>
    have hjobs : (w.monitor.receive via).jobs =
        w.monitor.jobs ++ [{ id := w.monitor.jobs.length, cause := .change }] := by
      rw [receive_of_accepts hvia hdrops]
      rfl
    exact ⟨⟨_, _, .single (.accept hvia hdrops)⟩, pending_adding hready hjobs⟩

/-- Once all have had their turns, those that were asked to stop have ended. -/
theorem finished_of_went (hcounted : Counted ds m) (hwent : Went m.cancel m') (hpending : Pending [] m') :
    (∀ j ∈ m'.jobs, j.id ∈ (m.jobs.filter isOwn).map Job.id → j.phase = .finished) ∧
      ∀ j ∈ m'.jobs, j.cause = .change → j.phase = .finished := by
  have hback {j : Job} (hj : j ∈ m'.jobs) : ∃ i ∈ m.jobs, i.id = j.id ∧ i.cause = j.cause ∧
      (isOwn i = true → j.isCancelled = true) ∧ (j.phase ≠ .finished → i.phase ≠ .finished) := by
    obtain ⟨i', hi', hid, hcause, hcancelled, hunfinished⟩ := hwent j hj
    obtain ⟨i, hi, rfl⟩ := List.mem_map.mp hi'
    split at hid
    case isTrue hown =>
      rw [if_pos hown] at hcause hcancelled hunfinished
      exact ⟨i, hi, hid, hcause, fun _ => hcancelled.symm, hunfinished⟩
    case isFalse hother =>
      rw [if_neg hother] at hcause hunfinished
      exact ⟨i, hi, hid, hcause, fun hown => absurd hown hother, hunfinished⟩
  have hended {j : Job} (hj : j ∈ m'.jobs) (hc : j.isCancelled = true) : j.phase = .finished := by
    by_contra hunfinished
    exact List.not_mem_nil (hpending j hj (.inr ⟨hc, hunfinished⟩))
  constructor
  · intro j hj hmem
    obtain ⟨k, hk, hkid⟩ := List.mem_map.mp hmem
    obtain ⟨hk, hown⟩ := List.mem_filter.mp hk
    obtain ⟨i, hi, hid, -, hcancelled, -⟩ := hback hj
    obtain rfl : i = k := List.inj_on_of_nodup_map hcounted.nodup hi hk (hid.trans hkid.symm)
    exact hended hj (hcancelled hown)
  · intro j hj hchange
    by_contra hunfinished
    obtain ⟨i, hi, -, hcause, hcancelled, hphase⟩ := hback hj
    refine hunfinished (hended hj (hcancelled ?_))
    simp [isOwn, hcause, hchange, hphase hunfinished]

theorem forget_of_finished (h : ∀ j ∈ m.jobs, j.cause = .change → j.phase = .finished) : m.forget = m := by
  have hkeep : ∀ j ∈ m.jobs,
      (if j.cause == .change && j.phase != .finished then { j with cause := .caller } else j) = j := by
    intro j hj
    by_cases hchange : j.cause = .change
    · simp [h j hj hchange]
    · simp [hchange]
  have hjobs := List.map_congr_left hkeep
  rw [List.map_id'] at hjobs
  rw [forget, hjobs]

theorem cancel_of_none (h : m.jobs.any isOwn = false) : m.cancel = { m with isSubscribed := false } := by
  have hkeep : ∀ j ∈ m.jobs, (if isOwn j then { j with isCancelled := true } else j) = j := by
    intro j hj
    exact if_neg (List.any_eq_false.mp h j hj)
  have hjobs := List.map_congr_left hkeep
  rw [List.map_id'] at hjobs
  rw [cancel, hjobs]

/-- Those who are asked to stop and do not wait for their turn already are put behind those who do. -/
theorem Pending.cancel {ready : List Nat} (h : Pending ready m) :
    Pending (ready ++ (m.jobs.filter fun j => isOwn j && j.phase != .queued).map Job.id) m.cancel := by
  intro j' hj' hdue
  obtain ⟨j, hj, rfl⟩ := List.mem_map.mp hj'
  by_cases hown : isOwn j = true
  · rw [if_pos hown]
    by_cases hqueued : j.phase = .queued
    · exact List.mem_append_left _ (h j hj (.inl hqueued))
    · refine List.mem_append_right _ (List.mem_map.mpr ⟨j, List.mem_filter.mpr ⟨hj, ?_⟩, rfl⟩)
      simp [hown, hqueued]
  · rw [if_neg hown] at hdue ⊢
    exact List.mem_append_left _ (h j hj hdue)

/-- A stop asks those to stop that it then waits for. -/
theorem stop_reached (hcounted : Counted ds w.monitor) (hready : Pending w.ready w.monitor) :
    (∃ ds' n' t', Trace Step ⟨w.monitor, [], n, t⟩ ds' ⟨w.stop.monitor, [], n', t'⟩) ∧
      Pending w.stop.ready w.stop.monitor := by
  have hbegin : Step ⟨w.monitor, [], n, t⟩ (.stopping n)
      ⟨w.monitor.cancel, [(n, (w.monitor.jobs.filter isOwn).map Job.id)], n + 1, false⟩ := .stop
  have hover {m' : Monitor} {ds' : List Deed} {t' : Bool}
      (hended : ∀ j ∈ m'.jobs, j.id ∈ (w.monitor.jobs.filter isOwn).map Job.id → j.phase = .finished)
      (hchanges : ∀ j ∈ m'.jobs, j.cause = .change → j.phase = .finished)
      (htrace : Trace Step ⟨w.monitor.cancel, [(n, (w.monitor.jobs.filter isOwn).map Job.id)], n + 1, false⟩ ds'
        ⟨m', [(n, (w.monitor.jobs.filter isOwn).map Job.id)], n + 1, t'⟩) :
      ∃ ds' n' t', Trace Step ⟨w.monitor, [], n, t⟩ ds' ⟨m', [], n', t'⟩ := by
    have hstopped : Step ⟨m', [] ++ (n, (w.monitor.jobs.filter isOwn).map Job.id) :: [], n + 1, t'⟩ (.stopped n)
        ⟨m'.forget, [] ++ [], n + 1, false⟩ := .stopped hended
    rw [forget_of_finished hchanges] at hstopped
    exact ⟨_, _, _, (Trace.cons hbegin htrace).snoc hstopped⟩
  cases hany : w.monitor.jobs.any isOwn with
  | false =>
    have hstop : w.stop = { w with monitor := w.monitor.cancel } := by simp [Watch.stop, hany]
    have hothers := List.any_eq_false.mp hany
    have hjobs : w.monitor.cancel.jobs = w.monitor.jobs := by rw [cancel_of_none hany]
    rw [hstop]
    refine ⟨hover ?_ ?_ .nil, fun j hj => hready j (hjobs ▸ hj)⟩
    · simp [List.filter_eq_nil_iff.mpr hothers]
    · intro j hj hchange
      by_contra hunfinished
      exact hothers j (hjobs ▸ hj) (by simp [isOwn, hchange, hunfinished])
  | true =>
    have hstop : w.stop = (w.ready ++ (w.monitor.jobs.filter fun j => isOwn j && j.phase != .queued).map Job.id).foldl
        Watch.advance { w with monitor := w.monitor.cancel, ready := [] } := by
      simp [Watch.stop, Watch.settle, hany]
    obtain ⟨⟨ds', t', htrace⟩, hwent, hpending⟩ :=
      advances_reached (w := { w with monitor := w.monitor.cancel, ready := [] })
        (s := [(n, (w.monitor.jobs.filter isOwn).map Job.id)]) (n := n + 1) (t := false)
        (w.ready ++ (w.monitor.jobs.filter fun j => isOwn j && j.phase != .queued).map Job.id) (hcounted.step hbegin)
    have hcancelled := hready.cancel
    obtain ⟨hended, hchanges⟩ := finished_of_went hcounted hwent (hpending hcancelled)
    rw [hstop]
    exact ⟨hover hended hchanges htrace, fun j hj hdue => absurd (hpending hcancelled j hj hdue) List.not_mem_nil⟩

theorem obey_reached (o : Watch.Order) (hcounted : Counted ds w.monitor) (hready : Pending w.ready w.monitor) :
    (∃ ds' n' t', Trace Step ⟨w.monitor, [], n, t⟩ ds' ⟨(w.obey o).monitor, [], n', t'⟩) ∧
      Pending (w.obey o).ready (w.obey o).monitor := by
  cases o with
  | poll => exact ⟨⟨_, _, _, .single .poll⟩, pending_adding hready rfl⟩
  | notify =>
    obtain ⟨⟨ds', t', htrace⟩, hpending⟩ := receive_reached (n := n) (t := t) none rfl hready
    exact ⟨⟨ds', n, t', htrace⟩, hpending⟩
  | hear e =>
    cases he : w.monitor.heeds (some e) with
    | true =>
      obtain ⟨⟨ds', t', htrace⟩, hpending⟩ := receive_reached (n := n) (t := t) (some e) he hready
      exact ⟨⟨ds', n, t', htrace⟩, hpending⟩
    | false =>
      have hjobs : (w.monitor.hear e).jobs = w.monitor.jobs ++ [] := by
        rw [hear_of_unheeded he, List.append_nil]
      exact ⟨⟨_, _, _, .single (.overhear he)⟩, pending_adding hready hjobs⟩
  | start =>
    cases hidle : w.monitor.isRunning with
    | true =>
      have hbegin : w.monitor.begin = w.monitor := by simp [Monitor.begin, hidle]
      have hjobs : w.monitor.begin.jobs = w.monitor.jobs ++ [] := by rw [hbegin, List.append_nil]
      refine ⟨⟨[], n, t, ?_⟩, pending_adding hready hjobs⟩
      rw [Watch.obey, Watch.adding, hbegin]
      exact .nil
    | false =>
      have hjobs : w.monitor.begin.jobs = w.monitor.jobs ++ [{ id := w.monitor.jobs.length, cause := .timer }] := by
        rw [begin_of_idle hidle]
        rfl
      exact ⟨⟨_, _, _, .single (.start hidle)⟩, pending_adding hready hjobs⟩
  | stop => exact stop_reached hcounted hready
  | hold => exact ⟨⟨[], n, t, .nil⟩, hready⟩
  | release => exact ⟨⟨[], n, t, .nil⟩, hready.mono (List.subset_append_left _ _)⟩
  | set value => exact ⟨⟨[], n, t, .nil⟩, hready⟩
  | settle =>
    obtain ⟨⟨ds', t', htrace⟩, -, hpending⟩ := advances_reached (w := { w with ready := [] }) (s := []) (n := n)
      (t := t) w.ready hcounted
    exact ⟨⟨ds', n, t', htrace⟩, fun j hj hdue => absurd (hpending hready j hj hdue) List.not_mem_nil⟩

/-- Whatever a watch is asked, it does steps. -/
theorem run_reached (orders : List Watch.Order) :
    ∃ ds n t, Trace Step {} ds ⟨(Watch.run orders).monitor, [], n, t⟩ := by
  have hreached : (∃ ds n t, Trace Step {} ds ⟨(Watch.run orders).monitor, [], n, t⟩) ∧
      Pending (Watch.run orders).ready (Watch.run orders).monitor := by
    induction orders using List.reverseRecOn with
    | nil => exact ⟨⟨[], 0, false, .nil⟩, fun _ hj => absurd hj List.not_mem_nil⟩
    | append_singleton orders o ih =>
      obtain ⟨⟨ds, n, t, htrace⟩, hready⟩ := ih
      obtain ⟨ds', hcounted⟩ := Counted.initial.reached htrace
      obtain ⟨⟨rest, n', t', hrest⟩, hpending⟩ := obey_reached (n := n) (t := t) o hcounted hready
      rw [Watch.run, List.foldl_append]
      exact ⟨⟨_, n', t', htrace.trans hrest⟩, hpending⟩
  exact hreached.1

end orders

end Watching

end QualityGate
