import Mathlib
import QualityGate.Proofs.Report.Tally

/-! Repeated issues. A check keeps the first of all issues that have one identity, whatever their severities are, so that
an error goes with its repetitions where a warning of the same identity stands before it. -/

namespace QualityGate

namespace Issue

variable {i j : Issue}

def SamePlace (i j : Issue) : Prop := i.file = j.file ∧ i.line = j.line ∧ i.column = j.column

/-- One place and one code, or one place, no codes and one message. -/
def Repeats (i j : Issue) : Prop := SamePlace i j ∧ i.code = j.code ∧ (i.code.isSome ∨ i.message = j.message)

/-- A code that reads like what stands in for the code of an issue without one. -/
def Imitates (i j : Issue) : Prop := SamePlace i j ∧ i.code = some ("msg:" ++ j.message) ∧ j.code = none

instance : DecidableRel SamePlace := fun _ _ => inferInstanceAs (Decidable (_ ∧ _))

instance : DecidableRel Repeats := fun _ _ => inferInstanceAs (Decidable (_ ∧ _))

instance : DecidableRel Imitates := fun _ _ => inferInstanceAs (Decidable (_ ∧ _))

theorem SamePlace.symm (h : i.SamePlace j) : j.SamePlace i := ⟨h.1.symm, h.2.1.symm, h.2.2.symm⟩

/-- Two issues have one identity where they repeat each other, and where one imitates the other. -/
theorem identity_eq_iff : i.identity = j.identity ↔ i.Repeats j ∨ i.Imitates j ∨ j.Imitates i := by
  have hplace : i.identity = j.identity ↔
      i.SamePlace j ∧ i.code.getD ("msg:" ++ i.message) = j.code.getD ("msg:" ++ j.message) := by
    simp only [identity, SamePlace, Prod.mk.injEq, and_assoc]
  have hcomm : j.SamePlace i ↔ i.SamePlace j := ⟨SamePlace.symm, SamePlace.symm⟩
  rw [hplace, Repeats, Imitates, Imitates, hcomm]
  cases hi : i.code with
  | none =>
    cases hj : j.code with
    | none => simp
    | some d => simp [eq_comm]
  | some c => cases hj : j.code <;> simp

end Issue

namespace Findings

variable {is : List Issue} {seen : List (String × Nat × Nat × String)} {f : Findings}

/-- The issues that repeat none before them, in their order. -/
def unrepeated (is : List Issue) : List Issue :=
  (is.zipIdx.filter fun (i, n) => ∀ j ∈ is.take n, ¬ j.Repeats i).map Prod.fst

/-! What is kept, place by place. -/

theorem firstOfEach_eq_filter (seen : List (String × Nat × Nat × String)) (is : List Issue) :
    firstOfEach seen is =
      (is.zipIdx.filter fun (i, n) => i.identity ∉ seen ∧ ∀ j ∈ is.take n, j.identity ≠ i.identity).map Prod.fst := by
  induction is generalizing seen with
  | nil => rfl
  | cons a as ih =>
    have hrest (seen' : List (String × Nat × Nat × String))
        (h : ∀ x : Issue, x.identity ∉ seen' ↔ x.identity ∉ seen ∧ a.identity ≠ x.identity) :
        firstOfEach seen' as =
          ((as.zipIdx 1).filter fun (i, n) =>
            i.identity ∉ seen ∧ ∀ j ∈ (a :: as).take n, j.identity ≠ i.identity).map Prod.fst := by
      rw [ih, List.zipIdx_succ, List.filter_map, List.map_map]
      congr 1
      refine List.filter_congr fun x _ => ?_
      simp [h, and_assoc]
    rw [firstOfEach, List.zipIdx_cons, List.filter_cons]
    by_cases ha : a.identity ∈ seen
    · have hseen (x : Issue) : x.identity ∉ seen ↔ x.identity ∉ seen ∧ a.identity ≠ x.identity := by
        refine ⟨fun hx => ⟨hx, ?_⟩, And.left⟩
        rintro he
        exact hx (he ▸ ha)
      rw [if_pos (by simpa using ha), if_neg (by simp [ha]), hrest seen hseen]
    · have hseen (x : Issue) : x.identity ∉ a.identity :: seen ↔ x.identity ∉ seen ∧ a.identity ≠ x.identity := by
        rw [List.mem_cons, not_or, and_comm, ne_comm]
      rw [if_neg (by simpa using ha), if_pos (by simp [ha]), List.map_cons, hrest _ hseen]

theorem deduplicated_issues_eq_filter (f : Findings) :
    f.deduplicated.issues =
      (f.issues.zipIdx.filter fun (i, n) => ∀ j ∈ f.issues.take n, j.identity ≠ i.identity).map Prod.fst := by
  rw [deduplicated, firstOfEach_eq_filter]
  simp

/-! What is kept is kept again. -/

theorem nodup_firstOfEach (seen : List (String × Nat × Nat × String)) (is : List Issue) :
    ((firstOfEach seen is).map Issue.identity).Nodup := by
  induction is generalizing seen with
  | nil => exact List.nodup_nil
  | cons a as ih =>
    rw [firstOfEach]
    split
    · exact ih seen
    · rw [List.map_cons, List.nodup_cons]
      refine ⟨fun ha => ?_, ih _⟩
      obtain ⟨i, hi, he⟩ := List.mem_map.mp ha
      obtain ⟨-, -, -, hfresh, -⟩ := mem_firstOfEach.mp hi
      exact hfresh (he ▸ List.mem_cons_self)

theorem firstOfEach_of_nodup (h : (is.map Issue.identity).Nodup) (hseen : ∀ i ∈ is, i.identity ∉ seen) :
    firstOfEach seen is = is := by
  induction is generalizing seen with
  | nil => rfl
  | cons a as ih =>
    obtain ⟨ha, has⟩ := List.forall_mem_cons.mp hseen
    obtain ⟨hfresh, hnodup⟩ := List.nodup_cons.mp h
    rw [firstOfEach, if_neg (by simpa using ha), ih hnodup]
    intro i hi hmem
    rcases List.mem_cons.mp hmem with he | hmem
    · exact hfresh (List.mem_map.mpr ⟨i, hi, he⟩)
    · exact has i hi hmem

theorem deduplicated_deduplicated (f : Findings) : f.deduplicated.deduplicated = f.deduplicated := by
  have hissues : firstOfEach [] (firstOfEach [] f.issues) = firstOfEach [] f.issues :=
    firstOfEach_of_nodup (nodup_firstOfEach [] f.issues) fun _ _ => List.not_mem_nil
  simp only [deduplicated, hissues]

/-! Errors. -/

/-- Of each identity something is kept, and it stands nowhere after. -/
theorem exists_mem_deduplicated {pre post : List Issue} {i : Issue} (h : f.issues = pre ++ i :: post) :
    ∃ k ∈ f.deduplicated.issues, k.identity = i.identity ∧ (k = i ∨ k ∈ pre) := by
  have hsome : ((pre ++ [i]).find? fun j => j.identity == i.identity).isSome := by
    rw [List.find?_isSome]
    exact ⟨i, by simp, by simp⟩
  obtain ⟨k, hk⟩ := Option.isSome_iff_exists.mp hsome
  obtain ⟨hidentity, before, after, hsplit, hfirst⟩ := List.find?_eq_some_iff_append.mp hk
  have hkeep : k.identity = i.identity := beq_iff_eq.mp hidentity
  refine ⟨k, mem_deduplicated.mpr ⟨before, after ++ post, ?_, fun j hj => ?_⟩, hkeep, ?_⟩
  · rw [h, ← List.singleton_append, ← List.append_assoc, hsplit, List.append_assoc, List.cons_append]
  · rw [hkeep]
    simpa using hfirst j hj
  · have hmem : k ∈ pre ++ [i] := hsplit ▸ by simp
    simpa [or_comm] using hmem

theorem exists_error_iff (f : Findings) :
    (∃ i ∈ f.deduplicated.issues, i.isError = true) ↔
      ∃ pre i post, f.issues = pre ++ i :: post ∧ i.isError = true ∧
        ∀ j ∈ pre, j.identity = i.identity → j.isError = true := by
  constructor
  · rintro ⟨i, hi, herror⟩
    obtain ⟨pre, post, hsplit, hfirst⟩ := mem_deduplicated.mp hi
    exact ⟨pre, i, post, hsplit, herror, fun j hj he => absurd he (hfirst j hj)⟩
  · rintro ⟨pre, i, post, hsplit, herror, hall⟩
    obtain ⟨k, hk, hidentity, rfl | hpre⟩ := exists_mem_deduplicated hsplit
    · exact ⟨k, hk, herror⟩
    · exact ⟨k, hk, hall k hpre hidentity⟩

/-- Suppressions and concerns stay, and what is kept once is kept again. Where no code imitates another issue, the issues
that are kept are those that repeat none before them, in their order, and an error is among them exactly where some error
repeats no warning that stands before it. -/
theorem deduplicated_unrepeated (f : Findings) :
    f.deduplicated.suppressions = f.suppressions ∧ f.deduplicated.concerns = f.concerns ∧
      f.deduplicated.deduplicated = f.deduplicated ∧
      ((∀ i ∈ f.issues, ∀ j ∈ f.issues, ¬ i.Imitates j) →
        f.deduplicated.issues = unrepeated f.issues ∧
          ((∃ i ∈ f.deduplicated.issues, i.isError = true) ↔
            ∃ pre i post, f.issues = pre ++ i :: post ∧ i.isError = true ∧
              ∀ j ∈ pre, j.Repeats i → j.isError = true)) := by
  refine ⟨rfl, rfl, f.deduplicated_deduplicated, fun hapart => ?_⟩
  have hidentity {i j : Issue} (hi : i ∈ f.issues) (hj : j ∈ f.issues) : i.identity = j.identity ↔ i.Repeats j := by
    rw [Issue.identity_eq_iff]
    simp [hapart i hi j hj, hapart j hj i hi]
  constructor
  · rw [deduplicated_issues_eq_filter, unrepeated]
    congr 1
    refine List.filter_congr fun x hx => ?_
    have hmem : x.1 ∈ f.issues := List.fst_mem_of_mem_zipIdx hx
    simp only [decide_eq_decide]
    exact forall₂_congr fun j hj => not_congr (hidentity (List.mem_of_mem_take hj) hmem)
  · rw [exists_error_iff]
    refine exists_congr fun pre => exists_congr fun i => exists_congr fun post => and_congr_right fun hsplit =>
      and_congr_right fun _ => forall₂_congr fun j hj => imp_congr_left (hidentity ?_ ?_)
    · rw [hsplit]
      exact List.mem_append_left _ hj
    · rw [hsplit]
      simp

/-- Lines of a build without places or codes: the last one repeats the first. -/
def buildLines : Findings where
  issues :=
    [{ source := .build, severity := .medium, message := "unused variable" },
      { source := .build, severity := .high, message := "undefined reference" },
      { source := .build, severity := .high, message := "unused variable" }]

theorem deduplicated_unrepeated_buildLines :
    (∀ i ∈ buildLines.issues, ∀ j ∈ buildLines.issues, ¬ i.Imitates j) ∧
      buildLines.deduplicated.issues = buildLines.issues.take 2 ∧
      ∃ i ∈ buildLines.deduplicated.issues, i.isError = true := by
  have hapart : ∀ i ∈ buildLines.issues, ∀ j ∈ buildLines.issues, ¬ i.Imitates j := by decide
  obtain ⟨-, -, -, hissues⟩ := deduplicated_unrepeated buildLines
  obtain ⟨hkept, herror⟩ := hissues hapart
  have hunrepeated : unrepeated buildLines.issues = buildLines.issues.take 2 := by decide
  exact ⟨hapart, hkept.trans hunrepeated, herror.mpr ⟨_, _, _, (List.take_append_drop 1 _).symm, by decide, by decide⟩⟩

/-- One rule at one place, first as a warning and then as an error. -/
def escalated : Findings where
  issues :=
    [{ file := "a.ts", line := 1, column := 1, source := .lint, severity := .medium, message := "m", code := some "eqeqeq" },
      { file := "a.ts", line := 1, column := 1, source := .lint, severity := .high, message := "m", code := some "eqeqeq" }]

/-- The only error goes with the repetition. -/
theorem error_lost_escalated :
    (∃ i ∈ escalated.issues, i.isError = true) ∧ ¬ ∃ i ∈ escalated.deduplicated.issues, i.isError = true := by
  decide

end Findings

end QualityGate
