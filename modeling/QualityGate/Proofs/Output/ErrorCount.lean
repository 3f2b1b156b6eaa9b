import Mathlib
import QualityGate.Proofs.Output.Reported
import QualityGate.Proofs.Text.Occurrences

/-! The quick count of errors against the issues that are reported. Where a code
stands one space after its severity, each error is at a place of its own where
the count finds a code. -/

namespace QualityGate.Output.TypeCheck

open Text Text.Pattern

/-! Codes. -/

/-- The text begins with a code, its severity before it. -/
def startsCode (t : List Char) : Bool := "error TS".toList.isPrefixOf t && (t.drop 8).head?.any isDecimal

variable {t : List Char}

theorem startsCode_iff : startsCode t = true ↔ ∃ d, isDecimal d = true ∧ "error TS".toList ++ [d] <+: t := by
  rw [startsCode, Bool.and_eq_true, List.isPrefixOf_iff_prefix]
  constructor
  · rintro ⟨⟨r, rfl⟩, hdigit⟩
    cases r with
    | nil => cases hdigit
    | cons d r => exact ⟨d, hdigit, r, by simp⟩
  · rintro ⟨d, hd, r, rfl⟩
    exact ⟨⟨d :: r, by simp⟩, hd⟩

theorem withinLine_startsCode : WithinLine startsCode where
  nil := rfl
  mono h hs := by
    obtain ⟨d, hd, hprefix⟩ := startsCode_iff.mp hs
    exact startsCode_iff.mpr ⟨d, hd, hprefix.trans h⟩
  unified h := by
    obtain ⟨d, hd, hprefix⟩ := startsCode_iff.mp h
    have hline : '\n' ∉ "error TS".toList ++ [d] := by
      rw [List.mem_append, List.mem_singleton, not_or]
      refine ⟨by decide, ?_⟩
      rintro rfl
      cases hd
    exact startsCode_iff.mpr ⟨d, hd, starts_of_unified hline hprefix⟩

variable {s : Cursor} {w r : List Char} {cs : List (String × List Char)}

theorem reads_errorCode :
    (ofList errorCode).Reads s w r cs ↔ ∃ ds, w = "error TS".toList ++ ds ∧ cs = [] ∧ AreDigits ds := by
  simp only [errorCode, reads_ofList_cons, reads_ofList_nil, reads_word, reads_digits, ↓existsAndEq, and_assoc,
    true_and, and_true, List.append_nil]

theorem finds_errorCode : (ofList errorCode).Finds startsCode where
  nil := rfl
  found h before pos := by
    obtain ⟨d, hd, r, rfl⟩ := startsCode_iff.mp h
    refine Option.isSome_iff_exists.mp (foundAt?_isSome_iff.mpr ⟨_, r, [], rfl, reads_errorCode.mpr ⟨[d], rfl, rfl, ?_⟩⟩)
    exact ⟨List.cons_ne_nil d [], List.forall_mem_singleton.mpr hd⟩
  apart {before pos t m} h {u v} ht hu hstop := by
    obtain ⟨w, r, cs, hrest, hreads, rfl⟩ := exists_reads_of_foundAt h
    obtain ⟨ds, rfl, rfl, hds⟩ := reads_errorCode.mp hreads
    by_contra hstarts
    obtain ⟨d, -, r', rfl⟩ := startsCode_iff.mp (by simpa using hstarts)
    dsimp only at hrest hstop
    have hword : "error TS".toList = 'e' :: "rror TS".toList := by decide
    -- The letter that both begin with stands in the first one after its beginning.
    rcases List.append_eq_append_iff.mp (ht.symm.trans hrest) with ⟨x, hw, hv⟩ | ⟨x, hw, -⟩
    · obtain ⟨c, u, rfl⟩ := List.exists_cons_of_ne_nil hu
      have hx : x ≠ [] := by
        rintro rfl
        rw [hw, List.append_nil] at hstop
        omega
      obtain ⟨y, x, rfl⟩ := List.exists_cons_of_ne_nil hx
      rw [hword] at hw hv
      obtain ⟨hy, -⟩ := List.cons.inj hv
      have htail : "rror TS".toList ++ ds = u ++ y :: x := (List.cons.inj hw).2
      have hmem : 'e' ∈ "rror TS".toList ++ ds := by
        rw [htail, hy]
        exact List.mem_append_right u List.mem_cons_self
      rcases List.mem_append.mp hmem with hletter | hdigit
      · exact absurd hletter (by decide)
      · exact absurd (hds.2 _ hdigit) (by decide)
    · rw [hw, List.length_append] at hstop
      omega

theorem le_errorCount {p : Pattern} (hp : p ∈ countPatterns) (stdout stderr : String) :
    (p.findAll (combined stdout stderr)).length ≤ errorCount stdout stderr := by
  have hmax : (p.findAll (combined stdout stderr)).length ≤
      (countPatterns.map fun p => (p.findAll (combined stdout stderr)).length).foldl max 0 := by
    rw [List.foldl_eq_foldr]
    exact List.le_max_of_le' 0 (List.mem_map.mpr ⟨p, hp, rfl⟩) le_rfl
  simp only [errorCount, beq_iff_eq]
  split <;> omega

/-! Errors. -/

/-- Whether the heading calls itself an error. -/
def Block.isError (b : Block) : Bool := b.found.text "severity" == "error"

/-- On a line that a pattern takes for an error, the code stands one space after the severity. -/
def SpacedOnce (l : List Char) : Prop :=
  ∀ p ∈ patterns, ∀ m ∈ p.matchPrefix? l, m.text "severity" = "error" →
    "error ".toList ++ (m.group? "code").getD [] <:+: l

instance (l : List Char) : Decidable (SpacedOnce l) :=
  inferInstanceAs (Decidable (∀ p ∈ patterns, ∀ m ∈ p.matchPrefix? l, m.text "severity" = "error" →
    "error ".toList ++ (m.group? "code").getD [] <:+: l))

/-- Each line with an error has a place where a code starts. -/
theorem any_startsCode {l : List Char} (hl : SpacedOnce l) {p : Pattern} (hp : p ∈ patterns) {m : Found}
    (hm : p.matchPrefix? l = some m) (herror : m.text "severity" = "error") : l.tails.any startsCode = true := by
  obtain ⟨ds, ⟨hne, hdigits⟩, hcode⟩ := (captured hp hm).code
  obtain ⟨d, ds, rfl⟩ := List.exists_cons_of_ne_nil hne
  obtain ⟨u, v, huv⟩ := hl p hp m hm herror
  rw [hcode, Option.getD_some] at huv
  refine List.any_eq_true.mpr ⟨_, (List.mem_tails _ _).mpr ⟨u, ?_⟩,
    startsCode_iff.mpr ⟨d, hdigits d List.mem_cons_self, ds ++ v, rfl⟩⟩
  rw [← huv]
  simp

/-- The count is never below the number of errors that are reported, if their codes are where they are looked for. -/
theorem errors_le_errorCount {table : SeverityTable} {stdout stderr : String} {found : List Issue}
    (hspaced : ∀ l ∈ combinedLines stdout stderr, SpacedOnce l) (h : issues table stdout stderr = .ok found) :
    ∃ f before blocks, bestMatches patterns (combinedLines stdout stderr) = (combinedLines stdout stderr).map f ∧
      Divided f (combinedLines stdout stderr) before blocks ∧ List.Forall₂ (Tells table) blocks found ∧
      blocks.countP Block.isError ≤ errorCount stdout stderr ∧
      (errorCount stdout stderr = 0 → ∀ b ∈ blocks, b.isError = false) := by
  obtain ⟨f, hbest, hf⟩ := bestMatches_eq_map patterns (combinedLines stdout stderr)
  obtain ⟨before, blocks, hdivided, hissues⟩ := exists_blocks table hbest
  have hcode : ∀ b ∈ blocks, b.isError = true → b.heading.tails.any startsCode = true := by
    intro b hb herror
    have hheading := hdivided.heading b hb
    have hmem : b.heading ∈ combinedLines stdout stderr :=
      hdivided.headings_sublist.subset (List.mem_map_of_mem hb)
    rcases hf with rfl | ⟨p, hp, rfl⟩
    · cases hheading
    · exact any_startsCode (hspaced b.heading hmem) hp hheading (beq_iff_eq.mp herror)
  have hcount : blocks.countP Block.isError ≤ errorCount stdout stderr :=
    calc
      blocks.countP Block.isError ≤ (combinedLines stdout stderr).countP fun l => l.tails.any startsCode :=
        hdivided.countP_le hcode
      _ ≤ (combined stdout stderr).tails.countP startsCode := withinLine_startsCode.countP_lines_le _
      _ ≤ ((ofList errorCode).findAll (combined stdout stderr)).length := finds_errorCode.countP_tails_le _
      _ ≤ errorCount stdout stderr := le_errorCount List.mem_cons_self stdout stderr
  refine ⟨f, before, blocks, hbest, hdivided, reported_eq_ok_iff.mp (hissues.symm.trans h), hcount, fun hzero => ?_⟩
  have hnone : blocks.countP Block.isError = 0 := by omega
  simpa using List.countP_eq_zero.mp hnone

/-- An error that goes on on the next line, and a warning. -/
def twoDiagnostics : String := "a.ts(1,2): error TS2322: x\n  y\nb.ts(3,4): warning TS6133: z\n"

theorem errors_le_errorCount_twoDiagnostics :
    (∀ l ∈ combinedLines twoDiagnostics "", SpacedOnce l) ∧ ∃ found, issues {} twoDiagnostics "" = .ok found ∧
      ∃ f before blocks, bestMatches patterns (combinedLines twoDiagnostics "") = (combinedLines twoDiagnostics "").map f ∧
        Divided f (combinedLines twoDiagnostics "") before blocks ∧ List.Forall₂ (Tells {}) blocks found ∧
        blocks.countP Block.isError ≤ errorCount twoDiagnostics "" ∧
        (errorCount twoDiagnostics "" = 0 → ∀ b ∈ blocks, b.isError = false) := by
  have hspaced : ∀ l ∈ combinedLines twoDiagnostics "", SpacedOnce l := by decide +kernel
  have hissues : (issues {} twoDiagnostics "").toOption = some
      [{ file := "a.ts", line := 1, column := 2, source := .typeCheck, severity := .critical, message := "x\ny",
         suggestedFix := "Fix type-check error", code := some "TS2322" },
       { file := "b.ts", line := 3, column := 4, source := .typeCheck, severity := .medium, message := "z",
         suggestedFix := "Fix type-check error", code := some "TS6133" }] := by
    decide +kernel
  have hok := Outcome.eq_ok_of_toOption hissues
  exact ⟨hspaced, _, hok, errors_le_errorCount hspaced hok⟩

end QualityGate.Output.TypeCheck
