import QualityGate.Output.Build
import QualityGate.Output.Lint
import QualityGate.Proofs.Output.Printed

/-! Terminal escape sequences leave no trace. What is left of a text without them is a text without escape
characters exactly where the one is the other with complete sequences between its characters, so that colors change
nothing of what is read from the output of a tool. -/

namespace QualityGate.Output

/-- An escape character, an opening bracket, parameters and a letter. -/
inductive Sequence : List Char → Prop where
  | mk {parameters : List Char} {letter : Char} (hparameters : ∀ c ∈ parameters, c.isDigit = true ∨ c = ';' ∨ c = '?')
    (hletter : letter.isAlpha = true) : Sequence ('\x1b' :: '[' :: (parameters ++ [letter]))

/-- A text, and the same text with sequences at any places before, between and after its characters. -/
inductive Colored : List Char → List Char → Prop where
  | nil : Colored [] []
  | char (c : Char) {plain text : List Char} (h : Colored plain text) : Colored (c :: plain) (c :: text)
  | sequence {s plain text : List Char} (hs : Sequence s) (h : Colored plain text) : Colored plain (s ++ text)

variable {s r plain text plain' text' : List Char}

theorem isParameter_iff {c : Char} : isParameter c = true ↔ c.isDigit = true ∨ c = ';' ∨ c = '?' := by
  simp [isParameter, Char.isDigit, Char.le_def, or_assoc]

theorem isParameter_of_isAlpha {c : Char} (h : c.isAlpha = true) : isParameter c = false := by
  by_contra hc
  obtain hc | rfl | rfl := isParameter_iff.mp (by simpa using hc)
  · simp only [Char.isAlpha, Char.isUpper, Char.isLower, Char.isDigit, Bool.or_eq_true, Bool.and_eq_true,
      decide_eq_true_eq, ge_iff_le, UInt32.le_iff_toNat_le] at h hc
    have := hc.2
    simp at *
    omega
  · cases h
  · cases h

/-! One sequence. -/

/-- The parameters end where the letter stands, whatever follows it. -/
theorem afterSequence?_eq_some_iff :
    afterSequence? s = some r ↔ ∃ parameters letter, (∀ c ∈ parameters, c.isDigit = true ∨ c = ';' ∨ c = '?') ∧
      letter.isAlpha = true ∧ s = parameters ++ letter :: r := by
  constructor
  · intro h
    have hsplit : s.takeWhile isParameter ++ s.dropWhile isParameter = s := List.takeWhile_append_dropWhile
    unfold afterSequence? at h
    split at h
    case h_2 => cases h
    case h_1 letter rest hrest =>
    split at h
    case isFalse => cases h
    case isTrue hletter =>
    cases h
    refine ⟨s.takeWhile isParameter, letter, fun c hc => ?_, hletter, by rw [← hrest, hsplit]⟩
    exact isParameter_iff.mp (List.mem_takeWhile_imp hc)
  · rintro ⟨parameters, letter, hparameters, hletter, rfl⟩
    have hdrop : (parameters ++ letter :: r).dropWhile isParameter = letter :: r := by
      rw [List.dropWhile_append_of_pos fun c hc => isParameter_iff.mpr (hparameters c hc)]
      exact List.dropWhile_cons_of_neg (by simp [isParameter_of_isAlpha hletter])
    rw [afterSequence?, hdrop]
    exact if_pos hletter

theorem Sequence.exists_afterSequence? (h : Sequence s) (r : List Char) :
    ∃ t, s ++ r = '\x1b' :: '[' :: t ∧ afterSequence? t = some r := by
  obtain ⟨hparameters, hletter⟩ := h
  exact ⟨_, by simp, afterSequence?_eq_some_iff.mpr ⟨_, _, hparameters, hletter, rfl⟩⟩

theorem exists_sequence_of_afterSequence? (h : afterSequence? s = some r) :
    ∃ t, Sequence t ∧ '\x1b' :: '[' :: s = t ++ r := by
  obtain ⟨parameters, letter, hparameters, hletter, rfl⟩ := afterSequence?_eq_some_iff.mp h
  exact ⟨_, ⟨hparameters, hletter⟩, by simp⟩

/-! Texts with sequences. -/

theorem colored_self (t : List Char) : Colored t t := by
  induction t with
  | nil => exact .nil
  | cons c t ih => exact .char c ih

theorem Colored.append (h : Colored plain text) (h' : Colored plain' text') :
    Colored (plain ++ plain') (text ++ text') := by
  induction h with
  | nil => exact h'
  | char c _ ih => exact .char c ih
  | sequence hs _ ih =>
    rw [List.append_assoc]
    exact .sequence hs ih

theorem colored_between (hs : Sequence s) (t : List Char) (h : Colored plain text) :
    Colored (t ++ plain) (t ++ (s ++ text)) :=
  (colored_self t).append (.sequence hs h)

/-- A sequence that is incomplete stays, and so does all that stands around it. -/
theorem colored_stripEscapes (text : List Char) : Colored (stripEscapes text) text := by
  suffices hgo : ∀ acc, ∃ plain, stripEscapes.go text acc = plain.reverse ++ acc ∧ Colored plain text by
    obtain ⟨plain, hplain, h⟩ := hgo []
    rw [stripEscapes, hplain, List.append_nil, List.reverse_reverse]
    exact h
  intro acc
  induction text, acc using stripEscapes.go.induct with
  | case1 acc => exact ⟨[], by rw [stripEscapes.go.eq_def, List.reverse_nil, List.nil_append], .nil⟩
  | case2 acc s r hsequence _ ih =>
    obtain ⟨plain, hplain, h⟩ := ih
    obtain ⟨t, ht, hs⟩ := exists_sequence_of_afterSequence? hsequence
    exact ⟨plain, by rw [stripEscapes_go_sequence hsequence, hplain], hs ▸ .sequence ht h⟩
  | case3 acc s hopen ih =>
    obtain ⟨plain, hplain, h⟩ := ih
    refine ⟨'\x1b' :: plain, ?_, .char '\x1b' h⟩
    rw [stripEscapes_go_open hopen, hplain, List.reverse_cons, List.append_assoc, List.singleton_append]
  | case4 acc c s hother ih =>
    obtain ⟨plain, hplain, h⟩ := ih
    refine ⟨c :: plain, ?_, .char c h⟩
    rw [stripEscapes.go, hplain, List.reverse_cons, List.append_assoc, List.singleton_append]
    exact hother

theorem stripEscapes_go_colored (hplain : '\x1b' ∉ plain) (h : Colored plain text) (acc : List Char) :
    stripEscapes.go text acc = plain.reverse ++ acc := by
  induction h generalizing acc with
  | nil => exact stripEscapes_go_of_plain List.not_mem_nil acc
  | char c _ ih =>
    obtain ⟨hc, hrest⟩ := not_or.mp (mt List.mem_cons.mpr hplain)
    rw [stripEscapes.go, ih hrest, List.reverse_cons, List.append_assoc, List.singleton_append]
    rintro r rfl
    exact absurd rfl hc
  | @sequence s _ text hs _ ih =>
    obtain ⟨t, ht, hsequence⟩ := hs.exists_afterSequence? text
    rw [ht, stripEscapes_go_sequence hsequence, ih hplain]

/-- Exactly the sequences are taken out: nothing of the text around them, and none of them is left. -/
theorem stripEscapes_eq_iff (hplain : '\x1b' ∉ plain) : stripEscapes text = plain ↔ Colored plain text := by
  constructor
  · rintro rfl
    exact colored_stripEscapes text
  · intro h
    rw [stripEscapes, stripEscapes_go_colored hplain h, List.append_nil, List.reverse_reverse]

theorem stripEscapes_colored (hplain : '\x1b' ∉ plain) (h : Colored plain text) :
    stripEscapes text = stripEscapes plain := by
  rw [(stripEscapes_eq_iff hplain).mpr h, stripEscapes_of_plain hplain]

/-! Outputs of tools. -/

variable {stdout stderr stdout' stderr' : String}

/-- No sequence is made by joining the two outputs, and none of them is cut in two. -/
theorem combined_colored (hout : '\x1b' ∉ stdout.toList) (herr : '\x1b' ∉ stderr.toList)
    (hout' : Colored stdout.toList stdout'.toList) (herr' : Colored stderr.toList stderr'.toList) :
    combined stdout' stderr' = combined stdout stderr := by
  have hplain : '\x1b' ∉ stdout.toList ++ '\n' :: stderr.toList := by simp [hout, herr]
  exact stripEscapes_colored hplain (hout'.append (.char '\n' herr'))

/-- Whatever reads the output of a type checker, a build or a linter as text reads the same, or fails in the same way,
with and without sequences. -/
theorem colors_leave_no_trace (hout : '\x1b' ∉ stdout.toList) (herr : '\x1b' ∉ stderr.toList)
    (hout' : Colored stdout.toList stdout'.toList) (herr' : Colored stderr.toList stderr'.toList)
    (table : SeverityTable) (exitCode : Int) :
    TypeCheck.issues table stdout' stderr' = TypeCheck.issues table stdout stderr ∧
      TypeCheck.errorCount stdout' stderr' = TypeCheck.errorCount stdout stderr ∧
      Build.issues table stdout' stderr' exitCode = Build.issues table stdout stderr exitCode ∧
      Lint.stylishIssues table stdout'.toList = Lint.stylishIssues table stdout.toList ∧
      Lint.heuristicIssues table stdout'.toList = Lint.heuristicIssues table stdout.toList ∧
      Lint.textIssues table stdout' stderr' = Lint.textIssues table stdout stderr := by
  have hcombined := combined_colored hout herr hout' herr'
  have hlines : combinedLines stdout' stderr' = combinedLines stdout stderr := congrArg Text.splitLines hcombined
  have htext := stripEscapes_colored hout hout'
  have hjoined : stripEscapes (stdout'.toList ++ '\n' :: stderr'.toList) =
      stripEscapes (stdout.toList ++ '\n' :: stderr.toList) := hcombined
  refine ⟨?_, ?_, ?_, ?_, ?_, ?_⟩
  · rw [TypeCheck.issues, TypeCheck.issues, hlines]
  · rw [TypeCheck.errorCount, TypeCheck.errorCount, hcombined]
  · rw [Build.issues, Build.issues, hlines]
  · rw [Lint.stylishIssues, Lint.stylishIssues, htext]
  · rw [Lint.heuristicIssues, Lint.heuristicIssues, htext]
  · simp only [Lint.textIssues, Lint.stylishIssues, Lint.heuristicIssues, hjoined]

/-- A number, a severity and a line end cut in two, with characters next to the sequences that look like parameters. -/
theorem colors_leave_no_trace_inWords :
    let plain := "a.ts(1".toList ++ ("2,3): er".toList ++ ("ror TS2322: x\r".toList ++ ['\n']))
    let text := "a.ts(1".toList ++ (['\x1b', '[', '0', ';', '1', 'm'] ++ ("2,3): er".toList ++ (['\x1b', '[', 'm'] ++
      ("ror TS2322: x\r".toList ++ (['\x1b', '[', '?', '2', '5', 'h'] ++ ['\n'])))))
    ('\x1b' ∉ plain ∧ Colored plain text) ∧
      TypeCheck.issues {} (String.ofList text) "" = TypeCheck.issues {} (String.ofList plain) "" ∧
      Lint.heuristicIssues {} text = Lint.heuristicIssues {} plain := by
  intro plain text
  have hstyle : Sequence ('\x1b' :: '[' :: (['0', ';', '1'] ++ ['m'])) := ⟨by simp, rfl⟩
  have hreset : Sequence ('\x1b' :: '[' :: ([] ++ ['m'])) := ⟨by simp, rfl⟩
  have hcursor : Sequence ('\x1b' :: '[' :: (['?', '2', '5'] ++ ['h'])) := ⟨by simp, rfl⟩
  have hcolored : Colored plain text :=
    colored_between hstyle _ (colored_between hreset _ (colored_between hcursor _ (colored_self _)))
  have hplain : '\x1b' ∉ plain := by decide
  obtain ⟨hissues, -, -, -, hheuristic, -⟩ := @colors_leave_no_trace (.ofList plain) "" (.ofList text) ""
    (by rwa [String.toList_ofList]) (by decide) (by rwa [String.toList_ofList, String.toList_ofList]) .nil {} 2
  rw [String.toList_ofList, String.toList_ofList] at hheuristic
  exact ⟨⟨hplain, hcolored⟩, hissues, hheuristic⟩

end QualityGate.Output
