import Mathlib
import QualityGate.Proofs.Run

/-! Outcomes of several steps: the first step that fails decides how the whole does.
Of a failure it is said whether it is one that was to be foreseen. Some
outcomes and runs leave nothing but reports. -/

namespace QualityGate

namespace Outcome

variable {α β γ : Type} {f : α → Outcome β} {as : List α} {bs : List β}

theorem eq_ok_of_toOption {o : Outcome α} {a : α} (h : o.toOption = some a) : o = .ok a := by
  cases o with
  | ok b => exact congrArg _ (Option.some.inj h)
  | error e => cases h

theorem exists_bind_ok_iff {o : Outcome α} (g : α → β) :
    (∃ b, (o >>= fun a => (.ok (g a) : Outcome β)) = .ok b) ↔ ∃ a, o = .ok a := by
  cases o with
  | ok a => exact iff_of_true ⟨g a, rfl⟩ ⟨a, rfl⟩
  | error e => exact iff_of_false nofun nofun

theorem mapM_congr {g : α → Outcome β} (h : ∀ a ∈ as, f a = g a) : as.mapM f = as.mapM g := by
  induction as with
  | nil => rfl
  | cons a as ih =>
    obtain ⟨ha, has⟩ := List.forall_mem_cons.mp h
    rw [List.mapM_cons, List.mapM_cons, ha, ih has]

theorem mapM_eq_ok_iff : as.mapM f = .ok bs ↔ List.Forall₂ (fun a b => f a = .ok b) as bs := by
  induction as generalizing bs with
  | nil =>
    rw [List.forall₂_nil_left_iff]
    exact Except.ok.injEq [] bs ▸ eq_comm
  | cons a as ih =>
    rw [List.mapM_cons]
    constructor
    · intro hall
      obtain ⟨b, hb, hrest⟩ := bind_eq_ok hall
      obtain ⟨bs', hbs, hcons⟩ := bind_eq_ok hrest
      obtain rfl := Except.ok.inj hcons
      exact .cons hb (ih.mp hbs)
    · rintro (_ | ⟨hb, hbs⟩)
      rw [bind_of_ok hb, bind_of_ok (ih.mpr hbs)]
      rfl

theorem exists_of_mem_mapM {b : β} (h : as.mapM f = .ok bs) (hb : b ∈ bs) : ∃ a ∈ as, f a = .ok b := by
  rw [mapM_eq_ok_iff] at h
  induction h with
  | nil => exact absurd hb List.not_mem_nil
  | @cons a b' as bs ha _ ih =>
    rcases List.mem_cons.mp hb with rfl | hb
    · exact ⟨a, List.mem_cons_self, ha⟩
    · obtain ⟨a', ha', he⟩ := ih hb
      exact ⟨a', List.mem_cons_of_mem a ha', he⟩

theorem mem_of_mapM {a : α} {b : β} (h : as.mapM f = .ok bs) (ha : a ∈ as) (hb : f a = .ok b) : b ∈ bs := by
  rw [mapM_eq_ok_iff] at h
  induction h with
  | nil => exact absurd ha List.not_mem_nil
  | @cons a' b' as bs ha' _ ih =>
    rcases List.mem_cons.mp ha with rfl | ha
    · obtain rfl := Except.ok.inj (ha'.symm.trans hb)
      exact List.mem_cons_self
    · exact List.mem_cons_of_mem b' (ih ha)

theorem mapM_map_eq_ok_iff {f : β → Outcome γ} {g : α → β} {h : α → γ} :
    (as.map g).mapM f = .ok (as.map h) ↔ ∀ a ∈ as, f (g a) = .ok (h a) := by
  rw [mapM_eq_ok_iff, List.forall₂_map_left_iff, List.forall₂_map_right_iff, List.forall₂_same]

theorem length_of_mapM (h : as.mapM f = .ok bs) : bs.length = as.length := (mapM_eq_ok_iff.mp h).length_eq.symm

theorem mapM_flatMap (g : α → List β) (f : β → Outcome γ) (as : List α) :
    (as.flatMap g).mapM f = List.flatten <$> as.mapM fun a => (g a).mapM f := by
  induction as with
  | nil => rfl
  | cons a as ih =>
    rw [List.flatMap_cons, List.mapM_append, ih, List.mapM_cons]
    simp

/-! The first failure. -/

/-- Of the items that fail with what `P` says, the first one fails with `e`. -/
def FirstFails (P : α → Failure → Prop) (as : List α) (e : Failure) : Prop :=
  ∃ before a after, as = before ++ a :: after ∧ (∀ x ∈ before, ∀ e', ¬ P x e') ∧ P a e

section firstFails

variable {P : α → Failure → Prop} {e : Failure} {a : α}

@[simp] theorem firstFails_nil : ¬ FirstFails P [] e := by
  rintro ⟨before, a, after, hsplit, -⟩
  simp at hsplit

theorem firstFails_cons : FirstFails P (a :: as) e ↔ P a e ∨ (∀ e', ¬ P a e') ∧ FirstFails P as e := by
  constructor
  · rintro ⟨_ | ⟨x, before⟩, a', after, hsplit, hbefore, he⟩
    · obtain ⟨rfl, -⟩ := List.cons.inj hsplit
      exact .inl he
    · obtain ⟨rfl, hrest⟩ := List.cons.inj hsplit
      obtain ⟨hx, hbefore⟩ := List.forall_mem_cons.mp hbefore
      exact .inr ⟨hx, before, a', after, hrest, hbefore, he⟩
  · rintro (he | ⟨ha, before, a', after, rfl, hbefore, he⟩)
    · exact ⟨[], a, as, rfl, nofun, he⟩
    · exact ⟨a :: before, a', after, rfl, List.forall_mem_cons.mpr ⟨ha, hbefore⟩, he⟩

theorem firstFails_map {g : β → α} {bs : List β} :
    FirstFails P (bs.map g) e ↔ FirstFails (fun b => P (g b)) bs e := by
  induction bs with
  | nil => simp
  | cons b bs ih => rw [List.map_cons, firstFails_cons, firstFails_cons, ih]

/-! Steps that are taken one after the other fail with the first of them. -/

theorem ok_firstFails {b : β} : (.ok b : Outcome β) = .error e ↔ FirstFails P [] e := iff_of_false nofun firstFails_nil

theorem bind_firstFails {o : Outcome γ} {k : γ → Outcome β} (ho : ∀ e, o = .error e ↔ P a e)
    (hk : ∀ c, k c = .error e ↔ FirstFails P as e) : (o >>= k) = .error e ↔ FirstFails P (a :: as) e := by
  rw [firstFails_cons]
  cases o with
  | ok c =>
    have hno : ∀ e', ¬ P a e' := by
      intro e' he'
      cases (ho e').mpr he'
    rw [bind_of_ok rfl, hk c]
    simp [hno]
  | error e' =>
    have he' : P a e' := (ho e').mp rfl
    rw [bind_of_error rfl]
    constructor
    · intro h
      exact .inl (Except.error.inj h ▸ he')
    · rintro (h | ⟨hno, -⟩)
      · cases (ho e).mpr h
        rfl
      · exact absurd he' (hno e')

theorem FirstFails.exists_mem (h : FirstFails P as e) : ∃ a ∈ as, P a e := by
  obtain ⟨before, a, after, rfl, -, he⟩ := h
  exact ⟨a, by simp, he⟩

theorem mapM_firstFails (h : ∀ a ∈ as, ∀ e, f a = .error e ↔ P a e) : as.mapM f = .error e ↔ FirstFails P as e := by
  induction as with
  | nil => exact ok_firstFails
  | cons a as ih =>
    obtain ⟨ha, has⟩ := List.forall_mem_cons.mp h
    rw [List.mapM_cons]
    refine bind_firstFails ha fun b => ?_
    rw [← ih has]
    cases as.mapM f with
    | ok bs => exact iff_of_false nofun nofun
    | error e' => exact Iff.rfl

end firstFails

theorem exists_mapM_eq_ok_iff : (∃ bs, as.mapM f = .ok bs) ↔ ∀ a ∈ as, ∃ b, f a = .ok b := by
  constructor
  · rintro ⟨bs, h⟩
    rw [mapM_eq_ok_iff] at h
    induction h with
    | nil => exact nofun
    | cons hb _ ih => exact List.forall_mem_cons.mpr ⟨⟨_, hb⟩, ih⟩
  · intro h
    cases hall : as.mapM f with
    | ok bs => exact ⟨bs, rfl⟩
    | error e =>
      obtain ⟨a, ha, he⟩ := ((mapM_firstFails fun _ _ _ => Iff.rfl).mp hall).exists_mem
      obtain ⟨b, hb⟩ := h a ha
      cases he.symm.trans hb

end Outcome

/-- A value, or a failure of the kind that is foreseen; but where something stands in the way it is that failure,
and not a foreseen one. -/
structure Foreseen {α : Type} (kind obstacle : Failure → Prop) (o : Outcome α) : Prop where
  free : (∀ e, ¬ obstacle e) → o.FailsOnly kind
  obstructed : ∀ e, obstacle e → o = .error e ∧ ¬ kind e

namespace Foreseen

variable {α β : Type} {kind obstacle obstacle' : Failure → Prop} {o : Outcome α} {f : α → Outcome β}

theorem congr (h : Foreseen kind obstacle o) (hobstacle : ∀ e, obstacle' e ↔ obstacle e) : Foreseen kind obstacle' o where
  free hfree := h.free fun e he => hfree e ((hobstacle e).mpr he)
  obstructed e he := h.obstructed e ((hobstacle e).mp he)

/-- Nothing but the first step is obstructed. -/
theorem bind (h : ∀ e, o = .error e ↔ obstacle e) (hkind : ∀ e, obstacle e → ¬ kind e)
    (hf : ∀ a, (f a).FailsOnly kind) : Foreseen kind obstacle (o >>= f) where
  free hfree := by
    cases ho : o with
    | ok a => exact hf a
    | error e => exact absurd ((h e).mp ho) (hfree e)
  obstructed e he := ⟨Outcome.bind_of_error ((h e).mpr he), hkind e he⟩

theorem of_iff (h : ∀ e, o = .error e ↔ obstacle e) (hkind : ∀ e, obstacle e → ¬ kind e) : Foreseen kind obstacle o where
  free hfree e he := absurd ((h e).mp he) (hfree e)
  obstructed e he := ⟨(h e).mpr he, hkind e he⟩

end Foreseen

/-! Outcomes and runs that leave nothing but reports: where they fail, it is not
because the user stopped them. -/

/-- No failure that ends the whole run. -/
def Settled {α : Type} (o : Outcome α) : Prop := ∀ e, o = .error e → e.endsRun = false

namespace Settled

variable {α β : Type} {o : Outcome α}

@[simp] theorem ok (a : α) : Settled (.ok a : Outcome α) := by
  intro e h
  cases h

@[simp] theorem error_iff (e : Failure) : Settled (.error e : Outcome α) ↔ e.endsRun = false := by
  simp [Settled]

theorem bind {f : α → Outcome β} (h : Settled o) (hf : ∀ a, Settled (f a)) : Settled (o >>= f) :=
  Outcome.FailsOnly.bind h hf

theorem map (f : α → β) (h : Settled o) : Settled (o.map f) := by
  cases o with
  | ok a => exact ok _
  | error e => exact (error_iff e).mpr (h e rfl)

theorem mapM {f : α → Outcome β} (hf : ∀ a, Settled (f a)) (as : List α) : Settled (as.mapM f) :=
  Outcome.FailsOnly.mapM fun a _ => hf a

theorem mapError {ε : Type} {r : Except ε α} {f : ε → Failure} (hf : ∀ x, (f x).endsRun = false) :
    Settled (r.mapError f) :=
  Outcome.FailsOnly.mapError hf

end Settled

/-- No reply of a tool is that the user stops it. -/
def Bench.Calm (b : Bench) : Prop := ∀ tool replies, (tool, replies) ∈ b.replies → ∀ r ∈ replies, Settled r

namespace Bench.Calm

variable {b : Bench}

theorem reply (hb : b.Calm) (tool : String) : Settled (b.reply tool) := by
  cases h : b.replies.lookup tool with
  | none => simp [Bench.reply, h, Failure.endsRun]
  | some replies =>
    cases replies with
    | nil => simp [Bench.reply, h, Failure.endsRun]
    | cons r rest =>
      obtain ⟨l₁, l₂, he, -⟩ := List.lookup_eq_some_iff.mp h
      simpa [Bench.reply, h] using hb tool (r :: rest) (by simp [he]) r (by simp)

theorem mem_of_mem_remaining {r : Reply} : ∀ {replies : List Reply}, r ∈ remaining replies → r ∈ replies
  | [], h => h
  | [_], h => h
  | _ :: _ :: _, h => List.mem_cons_of_mem _ h

theorem call (hb : b.Calm) (c : ToolCall) : (b.call c).2.Calm := by
  intro tool replies h r hr
  obtain ⟨⟨name, before⟩, hm, he⟩ := List.mem_map.mp h
  by_cases hn : name = c.tool
  · obtain ⟨rfl, rfl⟩ : name = tool ∧ remaining before = replies := by simpa [hn] using he
    exact hb _ _ hm r (mem_of_mem_remaining hr)
  · obtain ⟨rfl, rfl⟩ : name = tool ∧ before = replies := by simpa [hn] using he
    exact hb _ _ hm r hr

end Bench.Calm

namespace Run

/-- A run that only reports, as long as its tools do. -/
def Settled {α : Type} (t : Run α) : Prop :=
  ∀ s, s.bench.Calm → QualityGate.Settled (t s).1 ∧ (t s).2.bench.Calm

namespace Settled

variable {α β : Type} {t : Run α}

theorem pure (a : α) : Settled (pure a : Run α) := fun _ hs => ⟨.ok a, hs⟩

theorem lift {o : Outcome α} (h : QualityGate.Settled o) : Settled (Run.lift o) := by
  intro s hs
  simpa using ⟨h, hs⟩

theorem workspace : Settled Run.workspace := fun _ hs => ⟨.ok _, hs⟩

theorem call (c : ToolCall) : Settled (Run.call c) := fun _ hs => ⟨hs.reply c.tool, hs.call c⟩

theorem bind {f : α → Run β} (h : Settled t) (hf : ∀ a, Settled (f a)) : Settled (t >>= f) := by
  intro s hs
  rw [bind_apply]
  obtain ⟨ho, hb⟩ := h s hs
  rcases ht : t s with ⟨_ | a, s'⟩
  · rw [ht] at ho hb
    exact ⟨(QualityGate.Settled.error_iff _).mpr (ho _ rfl), hb⟩
  · rw [ht] at hb
    exact hf a s' hb

end Settled

end Run

end QualityGate
