import QualityGate.Session

/-! How runs compose: what a run gives and what it leaves of the session, for
each way of building a run from smaller ones. -/

namespace QualityGate

namespace Outcome

variable {α β : Type} {o : Outcome α} {f : α → Outcome β}

theorem bind_of_ok {a : α} (h : o = .ok a) : (o >>= f) = f a := h ▸ rfl

theorem bind_of_error {e : Failure} (h : o = .error e) : (o >>= f) = .error e := h ▸ rfl

theorem bind_eq_ok {b : β} (h : (o >>= f) = .ok b) : ∃ a, o = .ok a ∧ f a = .ok b := by
  cases o with
  | ok a => exact ⟨a, rfl, h⟩
  | error e => cases h

/-- No failures but those of a kind. -/
def FailsOnly (q : Failure → Prop) (o : Outcome α) : Prop := ∀ e, o = .error e → q e

namespace FailsOnly

variable {q : Failure → Prop}

theorem ok (a : α) : FailsOnly q (.ok a : Outcome α) := by
  intro e h
  cases h

theorem error {e : Failure} (h : q e) : FailsOnly q (.error e : Outcome α) := by
  rintro f ⟨⟩
  exact h

theorem bind (h : FailsOnly q o) (hf : ∀ a, FailsOnly q (f a)) : FailsOnly q (o >>= f) := by
  cases o with
  | ok a => exact hf a
  | error e => exact error (h e rfl)

theorem mapM {g : α → Outcome β} {as : List α} (hg : ∀ a ∈ as, FailsOnly q (g a)) : FailsOnly q (as.mapM g) := by
  induction as with
  | nil => exact ok _
  | cons a as ih =>
    obtain ⟨ha, has⟩ := List.forall_mem_cons.mp hg
    rw [List.mapM_cons]
    exact ha.bind fun b => (ih has).bind fun bs => ok _

theorem mapError {ε : Type} {r : Except ε α} {f : ε → Failure} (hf : ∀ x, q (f x)) : FailsOnly q (r.mapError f) := by
  cases r with
  | ok a => exact ok a
  | error x => exact error (hf x)

end FailsOnly

end Outcome

namespace Run

variable {α β : Type}

@[simp] theorem pure_apply (a : α) (s : Session) : (pure a : Run α) s = (.ok a, s) := rfl

@[simp] theorem lift_apply (o : Outcome α) (s : Session) : Run.lift o s = (o, s) := by
  cases o <;> rfl

@[simp] theorem attempt_apply (t : Run α) (s : Session) :
    Run.attempt t s = (.ok (t s).1, (t s).2) := rfl

@[simp] theorem workspace_apply (s : Session) : Run.workspace s = (.ok s.workspace, s) := rfl

@[simp] theorem get_apply (s : Session) : (get : Run Session) s = (.ok s, s) := rfl

@[simp] theorem publish_apply (e : Event) (s : Session) :
    Run.publish e s = (.ok (), { s with events := s.events ++ [e] }) := rfl

@[simp] theorem call_apply (c : ToolCall) (s : Session) :
    Run.call c s = (s.bench.reply c.tool, { s with bench := (s.bench.call c).2 }) := rfl

theorem bind_apply (t : Run α) (f : α → Run β) (s : Session) :
    (t >>= f) s = match t s with
      | (.ok a, s') => f a s'
      | (.error e, s') => (.error e, s') := by
  change ExceptT.bindCont f (t s).1 (t s).2 = _
  rcases t s with ⟨_ | _, _⟩ <;> rfl

theorem bind_eq_ok {t : Run α} {f : α → Run β} {s s' : Session} {b : β}
    (h : (t >>= f) s = (.ok b, s')) : ∃ a s₁, t s = (.ok a, s₁) ∧ f a s₁ = (.ok b, s') := by
  rw [bind_apply] at h
  split at h
  next a s₁ ht => exact ⟨a, s₁, ht, h⟩
  next => cases h

theorem mapM_cons (f : α → Run β) (a : α) (as : List α) (s : Session) :
    (a :: as).mapM f s = (f a >>= fun b => as.mapM f >>= fun bs => pure (b :: bs)) s := by
  rw [List.mapM_cons]

theorem mapM_cons_eq_ok {f : α → Run β} {a : α} {as : List α} {s s' : Session} {bs : List β}
    (h : (a :: as).mapM f s = (.ok bs, s')) :
    ∃ b s₁ rest, f a s = (.ok b, s₁) ∧ as.mapM f s₁ = (.ok rest, s') ∧ bs = b :: rest := by
  rw [mapM_cons] at h
  obtain ⟨b, s₁, hb, h⟩ := bind_eq_ok h
  obtain ⟨rest, s₂, hr, h⟩ := bind_eq_ok h
  cases h
  exact ⟨b, s₁, rest, hb, hr, rfl⟩

end Run

end QualityGate
