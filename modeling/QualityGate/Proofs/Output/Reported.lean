import Mathlib
import QualityGate.Proofs.Output.Diagnostics

/-! What the reader of a type checker's output reports: one issue for each line that
the winning pattern matches, with the indented lines below it in its message. It
reports all of them, or nothing if one of their numbers has too many digits. -/

namespace QualityGate

open Text Text.Pattern

namespace Text.Pattern

variable {ps qs : List Pattern} {s : Cursor} {w r : List Char} {cs : List (String × List Char)}

theorem exists_reads_of_append (h : (ofList (ps ++ qs)).Reads s w r cs) (hrest : s.rest = w ++ r) :
    ∃ u v cu cv, w = u ++ v ∧ cs = cv ++ cu ∧ (ofList ps).Reads s u (v ++ r) cu ∧
      (ofList qs).Reads (s.after u (v ++ r) cu) v r cv := by
  induction ps generalizing s w cs with
  | nil =>
    refine ⟨[], w, [], cs, rfl, (List.append_nil cs).symm, ⟨rfl, rfl⟩, ?_⟩
    rwa [Cursor.after_nil hrest]
  | cons a ps ih =>
    obtain ⟨u, v, cu, cv, rfl, rfl, ha, htail⟩ := (reads_ofList_cons _).mp h
    obtain ⟨u', v', cu', cv', rfl, rfl, hps, hqs⟩ := ih htail rfl
    refine ⟨u ++ u', v', cu' ++ cu, cv', by simp, by simp, ?_, ?_⟩
    · refine (reads_ofList_cons _).mpr ⟨u, u', cu, cu', rfl, rfl, ?_, ?_⟩
      · rwa [← List.append_assoc]
      · rwa [← List.append_assoc]
    · rwa [Cursor.after_after] at hqs

end Text.Pattern

namespace Output

namespace TypeCheck

/-! What every pattern captures. -/

/-- What the patterns have in common. -/
structure Captured (m : Found) : Prop where
  severity : ∃ w ∈ ["error", "warning", "message"], m.group? "severity" = some w.toList
  code : ∃ ds, AreDigits ds ∧ m.group? "code" = some ('T' :: 'S' :: ds)
  placed : Placed m

variable {s : Cursor} {w r : List Char} {cs : List (String × List Char)}

theorem reads_diagnostic {severities : List String} (h : (ofList (diagnostic severities)).Reads s w r cs) :
    ∃ severity ∈ severities, ∃ ds message, AreDigits ds ∧
      cs = [("message", message), ("code", 'T' :: 'S' :: ds), ("severity", severity.toList)] := by
  have hcode : "TS".toList = ['T', 'S'] := rfl
  simp only [diagnostic, reads_ofList_cons, reads_ofList_nil, reads_char, reads_word, reads_words, reads_blanks,
    reads_digits, reads_capture, reads_many, reads_atEnd, hcode, ↓existsAndEq, and_assoc, true_and, and_true,
    List.append_nil, List.nil_append, List.cons_append] at h
  obtain ⟨-, -, message, ds, severity, -, rfl, hseverity, -, -, hds, -⟩ := h
  exact ⟨severity, hseverity, ds, message, hds, rfl⟩

theorem captures_diagnostic (severities : List String) : ∀ a ∈ diagnostic severities, a.CapturesAre IsPlace := by
  have hcode : (ofList [word "TS", digits]).CapturesAre IsPlace := ⟨capturesAre_word "TS", trivial⟩
  simp only [diagnostic, List.forall_mem_cons, List.not_mem_nil, false_implies, implies_true, and_true]
  exact ⟨captures_other (by decide) (capturesAre_words severities), trivial, captures_other (by decide) hcode, trivial,
    trivial, captures_other (by decide) trivial, trivial⟩

theorem captures_position (separator : Char) : ∀ a ∈ position separator, a.CapturesAre IsPlace := by
  simp only [position, List.forall_mem_cons, List.not_mem_nil, false_implies, implies_true, and_true]
  exact ⟨captures_digits, trivial, captures_digits⟩

/-- Every pattern ends in a diagnostic. -/
theorem exists_front {p : Pattern} (hp : p ∈ patterns) :
    ∃ front severities, p = ofList (front ++ diagnostic severities) ∧ severities ⊆ ["error", "warning", "message"] ∧
      ∀ a ∈ front, a.CapturesAre IsPlace := by
  have hpath (a : Pattern) (ha : a.CapturesAre IsPlace) : (capture "file" (ofList [one isNotBlank, a])).CapturesAre IsPlace :=
    captures_other (by decide) ⟨trivial, ha⟩
  simp only [patterns, List.mem_cons, List.not_mem_nil, or_false] at hp
  rcases hp with rfl | rfl | rfl
  · refine ⟨_, _, rfl, List.Subset.refl _, ?_⟩
    simp only [List.forall_mem_append, List.forall_mem_cons, List.not_mem_nil, false_implies, implies_true, and_true]
    exact ⟨⟨hpath _ trivial, trivial, captures_position ','⟩, capturesAre_word "):", trivial⟩
  · refine ⟨_, _, rfl, List.Subset.refl _, ?_⟩
    simp only [List.forall_mem_append, List.forall_mem_cons, List.not_mem_nil, false_implies, implies_true, and_true]
    exact ⟨⟨hpath _ trivial, trivial, captures_position ':'⟩, trivial, trivial, trivial⟩
  · exact ⟨[blanks 0], _, rfl, by simp, by simp [blanks, CapturesAre]⟩

theorem captured {p : Pattern} (hp : p ∈ patterns) {l : List Char} {m : Found} (hm : p.matchPrefix? l = some m) :
    Captured m := by
  obtain ⟨front, severities, rfl, hsubset, hfront⟩ := exists_front hp
  obtain ⟨w, r, cs, hrest, hreads, rfl⟩ := exists_reads_of_foundAt hm
  obtain ⟨u, v, cu, cv, -, rfl, -, hdiagnostic⟩ := exists_reads_of_append hreads hrest
  obtain ⟨severity, hseverity, ds, message, hds, rfl⟩ := reads_diagnostic hdiagnostic
  have hplaces : (ofList (front ++ diagnostic severities)).CapturesAre IsPlace :=
    capturesAre_ofList.mpr (List.forall_mem_append.mpr ⟨hfront, captures_diagnostic severities⟩)
  exact
    { severity := ⟨severity, hsubset hseverity, by simp [Found.group?, List.lookup]⟩
      code := ⟨ds, hds, by simp [Found.group?, List.lookup]⟩
      placed := placed_of_foundAt hplaces hm }

/-! Issues. -/

/-- The issue says what the heading does, and in its message what the details below it do. -/
structure Tells (table : SeverityTable) (b : Block) (i : Issue) : Prop where
  file : i.file = trimmed b.found "file"
  line : numberOf b.found "line" = .ok i.line
  column : numberOf b.found "col" = .ok i.column
  source : i.source = .typeCheck
  severity : i.severity = table.forTypeCheck (b.found.text "severity")
  message : i.message = "\n".intercalate (trimmed b.found "message" :: (details b.rest).map String.ofList)
  suggestedFix : i.suggestedFix = suggestFix (b.found.text "code")
  code : i.code = b.found.text? "code"

variable {table : SeverityTable} {b : Block} {i : Issue}

theorem toIssue_eq_ok_iff : toIssue table b.found (details b.rest) = .ok i ↔ Tells table b i := by
  constructor
  · intro h
    obtain ⟨line, hline, h⟩ := Outcome.bind_eq_ok h
    obtain ⟨column, hcolumn, h⟩ := Outcome.bind_eq_ok h
    obtain rfl := Except.ok.inj h
    exact ⟨rfl, hline, hcolumn, rfl, rfl, rfl, rfl, rfl⟩
  · rintro ⟨hfile, hline, hcolumn, hsource, hseverity, hmessage, hfix, hcode⟩
    rw [toIssue, Outcome.bind_of_ok hline, Outcome.bind_of_ok hcolumn, ← hfile, ← hsource, ← hseverity, ← hmessage, ← hfix,
      ← hcode]

/-- Both numbers of the heading can be read. -/
def Block.Short (b : Block) : Prop := Readable b.found "line" ∧ Readable b.found "col"

theorem not_short_iff : ¬ b.Short ↔ ∃ e, OutOfReach b.found e := by
  rw [Block.Short, ← not_outOfReach_iff, not_forall_not]

/-- What the blocks of an output are reported as. -/
def reported (table : SeverityTable) (blocks : List Block) : Outcome (List Issue) :=
  blocks.mapM fun b => toIssue table b.found (details b.rest)

variable {blocks : List Block} {found : List Issue}

theorem reported_eq_ok_iff : reported table blocks = .ok found ↔ List.Forall₂ (Tells table) blocks found := by
  simp only [reported, Outcome.mapM_eq_ok_iff, toIssue_eq_ok_iff]

theorem reported_eq_error_iff (hcaptured : ∀ b ∈ blocks, Captured b.found) {e : Failure} :
    reported table blocks = .error e ↔ Outcome.FirstFails (fun b => OutOfReach b.found) blocks e :=
  Outcome.mapM_firstFails fun b hb _ => place_eq_error_iff (hcaptured b hb).placed

/-- Either all blocks are reported, or one of them is not short. -/
theorem reported_cases (hcaptured : ∀ b ∈ blocks, Captured b.found) (table : SeverityTable) :
    ((∀ b ∈ blocks, b.Short) ∧ ∃ found, reported table blocks = .ok found) ∨
      (¬ ∀ b ∈ blocks, b.Short) ∧
        ∃ n, Numeral.mostDigits < n ∧ reported table blocks = .error (.badValue (Numeral.tooLongText n)) := by
  cases hreported : reported table blocks with
  | ok found =>
    refine .inl ⟨fun b hb => ?_, found, rfl⟩
    obtain ⟨i, hi⟩ := Outcome.exists_mapM_eq_ok_iff.mp ⟨found, hreported⟩ b hb
    by_contra hlong
    obtain ⟨e, he⟩ := not_short_iff.mp hlong
    cases hi.symm.trans ((place_eq_error_iff (hcaptured b hb).placed).mpr he)
  | error e =>
    obtain ⟨before, b, after, rfl, -, he⟩ := (reported_eq_error_iff hcaptured).mp hreported
    refine .inr ⟨fun hshort => not_short_iff.mpr ⟨e, he⟩ (hshort b (by simp)), ?_⟩
    obtain ⟨n, hn, rfl⟩ := he.tooLong
    exact ⟨n, hn, rfl⟩

/-- The lines of an output are divided by what is matched of them, and the blocks are reported. -/
theorem exists_blocks (table : SeverityTable) {stdout stderr : String} {f : List Char → Option Found}
    (h : bestMatches patterns (combinedLines stdout stderr) = (combinedLines stdout stderr).map f) :
    ∃ before blocks, Divided f (combinedLines stdout stderr) before blocks ∧
      issues table stdout stderr = reported table blocks := by
  obtain ⟨before, blocks, hdivided, hgather⟩ := exists_divided f (combinedLines stdout stderr)
  refine ⟨before, blocks, hdivided, ?_⟩
  rw [issues_eq table h, gather_eq, hgather, reported]
  exact List.mapM_map

/-- The issues are those of the blocks, one for each line that the winning pattern matches and in their order, unless
a number has too many digits. There are none only if no pattern matches a line. -/
theorem issues_in_blocks (table : SeverityTable) (stdout stderr : String) :
    ((∀ p ∈ patterns, matched (combinedLines stdout stderr) p = 0) ∧ issues table stdout stderr = .ok []) ∨
      ∃ p before blocks, Wins patterns (combinedLines stdout stderr) p ∧
        Divided p.matchPrefix? (combinedLines stdout stderr) before blocks ∧ blocks ≠ [] ∧
        ((∀ b ∈ blocks, b.Short) →
          ∃ found, issues table stdout stderr = .ok found ∧ List.Forall₂ (Tells table) blocks found) ∧
        ((¬ ∀ b ∈ blocks, b.Short) →
          ∃ n, Numeral.mostDigits < n ∧ issues table stdout stderr = .error (.badValue (Numeral.tooLongText n))) := by
  rcases bestMatches_cases patterns (combinedLines stdout stderr) with ⟨hzero, hbest⟩ | ⟨p, hp, hbest⟩
  · obtain ⟨before, blocks, hdivided, hissues⟩ := exists_blocks table hbest
    have hnone : blocks = [] := by
      refine List.eq_nil_iff_forall_not_mem.mpr fun b hb => ?_
      cases hdivided.heading b hb
    rw [hnone] at hissues
    exact .inl ⟨hzero, hissues⟩
  · obtain ⟨before, blocks, hdivided, hissues⟩ := exists_blocks table hbest
    have hcaptured : ∀ b ∈ blocks, Captured b.found := fun b hb => captured hp.mem (hdivided.heading b hb)
    have hlength : blocks.length = matched (combinedLines stdout stderr) p := by
      rw [← List.length_map Block.found, hdivided.founds_eq, List.length_filterMap_eq_countP, matched]
    have hne : blocks ≠ [] := List.ne_nil_of_length_pos (hlength ▸ hp.1)
    rcases reported_cases hcaptured table with ⟨hshort, found, hfound⟩ | ⟨hlong, n, hn, herror⟩
    · exact .inr ⟨p, before, blocks, hp, hdivided, hne,
        fun _ => ⟨found, hissues.trans hfound, reported_eq_ok_iff.mp hfound⟩, fun hlong => absurd hshort hlong⟩
    · exact .inr ⟨p, before, blocks, hp, hdivided, hne, fun hshort => absurd hshort hlong,
        fun _ => ⟨n, hn, hissues.trans herror⟩⟩

/-- A diagnostic whose line number is written so. -/
def atLine (line : List Char) : Parts where
  file := "a.ts".toList
  line := line
  column := ['2']
  beforeSeverity := [' ']
  severity := "error"
  beforeCode := [' ']
  digits := "2322".toList
  beforeMessage := [' ']
  message := ['x']

section

variable {line : List Char}

theorem atLine_fits (h : AreDigits line) : (atLine line).Fits where
  line := h
  column := by simp [atLine]; decide
  beforeSeverity := by simp [atLine]; decide
  severity := by simp [atLine]
  beforeCode_ne_nil := by simp [atLine]
  beforeCode := by simp [atLine]; decide
  digits := by simp [atLine]; decide
  beforeMessage := by simp [atLine]; decide
  message := by simp [atLine]; decide

theorem atLine_hasPath : (atLine line).HasPath := ⟨'a', ['.', 't', 's'], rfl, by decide, by simp⟩

theorem atLine_plain (h : AreDigits line) : Plain (atLine line).text := by
  have hfront : Plain "a.ts(".toList := by decide
  have hrest : Plain ",2): error TS2322: x".toList := by decide
  have htext : (atLine line).text = "a.ts(".toList ++ (line ++ ",2): error TS2322: x".toList) := by
    simp [atLine, Parts.text]
  rw [htext]
  exact hfront.append ((plain_of_isDecimal h.2).append hrest)

theorem exists_found_atLine (h : AreDigits line) :
    ∃ m, parenPosition.matchPrefix? (atLine line).text = some m ∧ m.group? "line" = some line := by
  have hsome : (parenPosition.matchPrefix? (atLine line).text).isSome = true := by
    rw [Pattern.matchPrefix?, foundAt?_isSome_iff]
    exact ⟨(atLine line).text, [], (atLine line).captures, (List.append_nil _).symm,
      reads_parenPosition.mpr ⟨atLine line, atLine_fits h, atLine_hasPath, rfl, rfl, .inl rfl⟩⟩
  obtain ⟨m, hm⟩ := Option.isSome_iff_exists.mp hsome
  refine ⟨m, hm, ?_⟩
  obtain ⟨w, r, cs, hrest, hreads, rfl⟩ := exists_reads_of_foundAt hm
  obtain ⟨p, hfits, hpath, rfl, rfl, hr⟩ := reads_parenPosition.mp hreads
  change (atLine line).text = p.text ++ r at hrest
  rw [eq_nil_of_atEnd (atLine_plain h).newline_notMem hrest hr, List.append_nil] at hrest
  obtain ⟨hline, -⟩ := (atLine_fits h).eq_of_text hfits (atLine_hasPath.file_eq hpath hrest) hrest
  change line = p.line at hline
  rw [hline]
  exact (Parts.groups (m := ⟨_, _, p.captures ++ []⟩) (List.append_nil _)).2.1

theorem issues_atLine (h : AreDigits line) (hlong : Numeral.mostDigits < line.length) (table : SeverityTable) :
    issues table (String.ofList (unlines [(atLine line).text])) "" =
      .error (.badValue (Numeral.tooLongText line.length)) := by
  obtain ⟨m, hm, hline⟩ := exists_found_atLine h
  have hplain : ∀ l ∈ [(atLine line).text], Plain l := List.forall_mem_singleton.mpr (atLine_plain h)
  have hlines : combinedLines (String.ofList (unlines [(atLine line).text])) "" = [(atLine line).text, []] :=
    combinedLines_unlines (by rw [String.toList_ofList, stripEscapes_unlines hplain]) fun l hl c hc => (hplain l hl c hc).1
  have hbest : bestMatches patterns [(atLine line).text, []] = [(atLine line).text, []].map parenPosition.matchPrefix? := by
    refine bestMatches_eq_first fun q hq l hl hsome => ?_
    rcases List.mem_pair.mp hl with rfl | rfl
    · rw [hm]
      rfl
    · rw [matchPrefix?_nil q (List.mem_cons_of_mem _ hq)] at hsome
      cases hsome
  rw [← hlines] at hbest
  obtain ⟨before, blocks, hdivided, hissues⟩ := exists_blocks table hbest
  have hfound : blocks.map Block.found = [m] := by
    rw [hdivided.founds_eq, hlines]
    simp [hm, matchPrefix?_nil parenPosition List.mem_cons_self]
  obtain ⟨b, rfl, rfl⟩ := List.map_eq_singleton_iff.mp hfound
  have hcaptured : ∀ c ∈ [b], Captured c.found := fun c hc => captured List.mem_cons_self (hdivided.heading c hc)
  rw [hissues, reported_eq_error_iff hcaptured]
  exact ⟨[], b, [], rfl, nofun, [], "line", ["col"], rfl, nofun, line, hline, hlong, rfl⟩

end

/-- Line one, written with as many zeros as a number may have digits: it is matched, and no issue comes of it. -/
theorem issues_paddedLine :
    (parenPosition.matchPrefix? (atLine (List.replicate Numeral.mostDigits '0' ++ ['1'])).text).isSome = true ∧
      issues {} (String.ofList (unlines [(atLine (List.replicate Numeral.mostDigits '0' ++ ['1'])).text])) "" =
        .error (.badValue (Numeral.tooLongText (Numeral.mostDigits + 1))) := by
  have hdigits : AreDigits (List.replicate Numeral.mostDigits '0' ++ ['1']) := by
    refine ⟨by simp, List.forall_mem_append.mpr ⟨fun c hc => ?_, List.forall_mem_singleton.mpr (by decide)⟩⟩
    rw [List.eq_of_mem_replicate hc]
    decide
  have hlength : (List.replicate Numeral.mostDigits '0' ++ ['1']).length = Numeral.mostDigits + 1 := by simp
  obtain ⟨m, hm, -⟩ := exists_found_atLine hdigits
  refine ⟨Option.isSome_iff_exists.mpr ⟨m, hm⟩, ?_⟩
  rw [issues_atLine hdigits (by omega), hlength]

end TypeCheck

end Output

end QualityGate
