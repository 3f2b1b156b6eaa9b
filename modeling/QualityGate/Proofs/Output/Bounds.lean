import Mathlib
import QualityGate.Output.Lint
import QualityGate.Proofs.Output.Printed

/-! Output that is beyond what can be read: whole numbers with too many digits,
and brackets that stand too deep in each other. Nothing else ends a count. -/

namespace QualityGate

open Text

/-- A number has too many digits, or brackets stand too deep in each other. -/
def Failure.OutOfBounds (e : Failure) : Prop :=
  (∃ digits, e = .badValue (Numeral.tooLongText digits)) ∨
    ∃ container, e = .tooDeep (Json.Problem.tooDeep container).text

/-! Payloads. -/

namespace Json

theorem ofJson_outOfBounds {f : LocatedFault} (h : f.problem.isSyntax = false) : (Failure.ofJson f).OutOfBounds := by
  have hmessage : f.message = f.problem.text := by rw [LocatedFault.message, h, if_neg Bool.false_ne_true]
  unfold Failure.ofJson
  rw [hmessage]
  cases hp : f.problem with
  | tooManyDigits n => exact .inl ⟨n, by rw [Problem.text.eq_def]⟩
  | tooDeep container => exact .inr ⟨container, rfl⟩
  | _ => simp [hp, Problem.isSyntax] at h

theorem isSyntax_of_firstPayload? {ts : List (List Char)} {f : LocatedFault} (h : firstPayload? ts = .error f) :
    f.problem.isSyntax = false := by
  induction ts with
  | nil => cases h
  | cons t ts ih =>
    rw [firstPayload?] at h
    split at h
    · split at h
      · cases h
      · split at h
        · exact ih h
        · cases h
          simp_all
    · exact ih h

theorem valueFrom_nested (n : Nat) {fuel depth : Nat} (hfuel : 2 * n < fuel) (hdepth : mostNested ≤ depth + n)
    (index : Nat) :
    ∃ i, valueFrom (σ := String) fuel depth index (List.replicate (n + 1) '[') = .error ⟨.tooDeep "array", i⟩ := by
  induction n generalizing fuel depth index with
  | zero =>
    obtain ⟨fuel, rfl⟩ : ∃ k, fuel = k + 1 := ⟨fuel - 1, by omega⟩
    exact ⟨index, by simp [valueFrom, show mostNested ≤ depth from hdepth]⟩
  | succ n ih =>
    obtain ⟨fuel, rfl⟩ : ∃ k, fuel = k + 2 := ⟨fuel - 2, by omega⟩
    rw [List.replicate_succ]
    by_cases h : mostNested ≤ depth
    · exact ⟨index, by simp [valueFrom, h]⟩
    · have hfuel : 2 * n < fuel := by omega
      have hdepth : mostNested ≤ depth + 1 + n := by omega
      obtain ⟨i, hi⟩ := ih hfuel hdepth (index + 1)
      rw [List.replicate_succ] at hi ⊢
      refine ⟨i, ?_⟩
      simp [valueFrom, h, skipSpace, isSpace, itemsFrom, hi, bind, Except.bind]

theorem payload?_nested {n : Nat} (h : mostNested ≤ n) (stderr : List Char) :
    ∃ f, payload? (List.replicate (n + 1) '[') stderr = .error f ∧ f.problem = .tooDeep "array" := by
  have htrim : trim (List.replicate (n + 1) '[') = List.replicate (n + 1) '[' := by
    rw [trim_eq_self_iff, dropBlanks_eq_self_iff, trimRight_eq_self_iff]
    refine ⟨fun c hc => ?_, fun c hc => ?_⟩
    · rw [List.eq_of_mem_replicate (List.mem_of_mem_head? hc)]
      rfl
    · rw [List.eq_of_mem_replicate (List.mem_of_mem_getLast? hc)]
      rfl
  have hfuel : 2 * n < 2 * (n + 1) + 2 := by omega
  have hdepth : mostNested ≤ 0 + n := by omega
  obtain ⟨i, hi⟩ := valueFrom_nested n hfuel hdepth 0
  have hread : readChars (List.replicate (n + 1) '[') = .error ⟨.tooDeep "array", i⟩ := by
    rw [List.replicate_succ] at hi ⊢
    rw [readChars]
    · simp [skipSpace, isSpace, bind, Except.bind, hi]
    · simp
  simp only [payload?, htrim, List.filterMap_cons, id, firstPayload?, read, hread, Except.mapError]
  simp [List.replicate_succ, opensSpan, Fault.locate, Problem.isSyntax]

end Json

/-! Counts. -/

namespace Output

theorem numberOf_outOfBounds {a : Pattern} (ha : a.CapturesAre fun _ => AreDigits) {before : Option Char} {pos : Nat}
    {rest : List Char} {m : Found} (hm : a.foundAt? ⟨before, pos, rest, []⟩ = some m) (name : String) :
    Outcome.FailsOnly Failure.OutOfBounds (numberOf m name) := by
  intro e he
  have hdigits (ds : List Char) (hds : m.group? name = some ds) : AreDigits ds := Pattern.group_of_foundAt ha hm hds
  obtain ⟨ds, -, -, rfl⟩ := (numberOf_eq_error_iff hdigits).mp he
  exact .inl ⟨ds.length, rfl⟩

namespace Lint

section

variable {name : String}

theorem capturesDigits : (Pattern.capture name Pattern.digits).CapturesAre fun _ => AreDigits :=
  ⟨fun _ _ _ _ h => (reads_digits.mp h).1, trivial⟩

theorem capturesDigits_plural (w : String) : ∀ a ∈ plural w, a.CapturesAre fun _ => AreDigits := by
  simp only [plural, List.forall_mem_cons, List.not_mem_nil, false_implies, implies_true, and_true]
  exact ⟨Pattern.capturesAre_word w, trivial, trivial⟩

end

theorem summary_captures : summary.CapturesAre fun _ => AreDigits := by
  have hblanks : (Pattern.blanks 1).CapturesAre fun _ => AreDigits := trivial
  have hchar (c : Char) : (Pattern.char c).CapturesAre fun _ => AreDigits := trivial
  rw [summary, Pattern.capturesAre_ofList]
  simp only [List.forall_mem_append, List.forall_mem_cons, capturesDigits, hblanks, hchar, true_and]
  simpa using ⟨⟨capturesDigits_plural "problem", capturesDigits_plural "error"⟩, capturesDigits_plural "warning"⟩

theorem total_captures (w : String) : (total w).CapturesAre fun _ => AreDigits := by
  have hsuffix : (Pattern.orElse
      (Pattern.ofList [Pattern.char '(', Pattern.wordIgnoringCase "s", Pattern.char ')'])
      (Pattern.wordIgnoringCase "s")).CapturesAre fun _ => AreDigits := by
    refine ⟨Pattern.capturesAre_ofList.mpr ?_, Pattern.capturesAre_wordIgnoringCase "s"⟩
    simp only [List.forall_mem_cons, List.not_mem_nil, false_implies, implies_true, and_true]
    exact ⟨trivial, Pattern.capturesAre_wordIgnoringCase "s", trivial⟩
  rw [total, Pattern.capturesAre_ofList]
  simp only [List.forall_mem_cons, List.not_mem_nil, false_implies, implies_true, and_true]
  exact ⟨capturesDigits, trivial, Pattern.capturesAre_wordIgnoringCase w, ⟨hsuffix, trivial⟩, trivial⟩

theorem largestTotal_outOfBounds (w : String) (text : List Char) :
    Outcome.FailsOnly Failure.OutOfBounds (largestTotal w text) := by
  refine .bind (.mapM fun m hm => ?_) fun ns => .ok _
  obtain ⟨before, pos, rest, hfound⟩ := Pattern.exists_foundAt_of_mem_findAll hm
  exact numberOf_outOfBounds (total_captures w) hfound "count"

theorem countText_outOfBounds (text : List Char) : Outcome.FailsOnly Failure.OutOfBounds (countText text) :=
  .bind (largestTotal_outOfBounds "error" text) fun _ => .bind (largestTotal_outOfBounds "warning" text) fun _ => .ok _

theorem countOutput_outOfBounds (stdout stderr : String) :
    Outcome.FailsOnly Failure.OutOfBounds (countOutput stdout stderr) := by
  simp only [countOutput]
  split
  case h_1 m hm =>
    obtain ⟨before, pos, rest, hfound⟩ := Pattern.exists_foundAt_of_find hm
    have hnumber := numberOf_outOfBounds summary_captures hfound
    exact .bind (hnumber "errors") fun _ => .bind (hnumber "warnings") fun _ => .ok _
  case h_2 => exact countText_outOfBounds _

/-- Output that cannot be counted is out of bounds. -/
theorem counts_outOfBounds (stdout stderr : String) :
    Outcome.FailsOnly Failure.OutOfBounds (counts stdout stderr) := by
  have hpayload : Outcome.FailsOnly Failure.OutOfBounds
      ((Json.payload? stdout.toList stderr.toList).mapError Failure.ofJson) := by
    cases h : Json.payload? stdout.toList stderr.toList with
    | ok payload => exact .ok payload
    | error f => exact .error (Json.ofJson_outOfBounds (Json.isSyntax_of_firstPayload? h))
  refine hpayload.bind fun payload => ?_
  split
  · exact .ok _
  · exact countOutput_outOfBounds stdout stderr

theorem counts_nested {n : Nat} (h : Json.mostNested ≤ n) (stderr : String) :
    ∃ e, counts (String.ofList (List.replicate (n + 1) '[')) stderr = .error e := by
  obtain ⟨f, hf, -⟩ := Json.payload?_nested h stderr.toList
  exact ⟨Failure.ofJson f, by simp [counts, hf, Except.mapError, bind, Except.bind]⟩

end Lint

end Output

end QualityGate
