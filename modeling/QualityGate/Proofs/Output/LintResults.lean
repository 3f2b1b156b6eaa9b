import Mathlib
import QualityGate.Output.Lint
import QualityGate.Proofs.Json.Embedded
import QualityGate.Proofs.Json.RoundTrip
import QualityGate.Proofs.Output.Printed

/-! The results of a linter in JSON, one message after the other. The quick count
and the issues come from the same messages; where these have the levels that a
linter gives them, there are as many errors and warnings in the one as in the
other. -/

namespace QualityGate

namespace Json

/-- What is written on its own is read. -/
theorem payload?_text {sp : Spacing} (hsp : sp.Blank) {v : Json} (hv : Formed mostNested v) (hshort : Short v)
    (hcontainer : isContainer v = true) : payload? (v.text sp).toList [] = .ok (some v) :=
  payload?_of_read (read_text hsp hv hshort) hcontainer

end Json

namespace Output.Lint

open Text

variable {table : SeverityTable} {payload m : Json} {results : List (Json × List Json)} {file : String} {i : Issue}

/-! Messages. -/

def fileOf (entry : Json) : String := ((entry.present? "filePath").map Plain.text).getD ""

/-- The messages of the results. What is no object is none. -/
def messagesIn (results : List (Json × List Json)) : List Json := (results.flatMap (·.2)).filter isObject

/-- Each message with the file it is about. -/
def located (results : List (Json × List Json)) : List (String × Json) :=
  results.flatMap fun r => (r.2.filter isObject).map fun m => (fileOf r.1, m)

theorem located_map_snd (results : List (Json × List Json)) : (located results).map Prod.snd = messagesIn results := by
  simp [located, messagesIn, List.map_flatMap, List.filter_flatMap, Function.comp_def]

theorem jsonIssues_eq (h : results? payload = some results) (table : SeverityTable) :
    jsonIssues table payload = (located results).mapM fun l => messageIssue table l.1 l.2 := by
  have heach (r : Json × List Json) : ((r.2.filter isObject).map fun m => (fileOf r.1, m)).mapM
      (fun l => messageIssue table l.1 l.2) = (r.2.filter isObject).mapM (messageIssue table (fileOf r.1)) :=
    List.mapM_map
  simp only [jsonIssues, h, located, Outcome.mapM_flatMap, heach]
  rfl

theorem messageIssue_eq_ok (h : messageIssue table file m = .ok i) :
    ∃ level, levelOf m = .ok level ∧ i.severity = table.forLint level := by
  obtain ⟨level, hlevel, h⟩ := Outcome.bind_eq_ok h
  obtain ⟨line, -, h⟩ := Outcome.bind_eq_ok h
  obtain ⟨column, -, h⟩ := Outcome.bind_eq_ok h
  obtain ⟨code, -, h⟩ := Outcome.bind_eq_ok h
  obtain rfl := Except.ok.inj h
  exact ⟨level, hlevel, rfl⟩

/-! Levels. -/

/-- The message is fatal, or its severity is one of the two levels. -/
def Leveled (m : Json) : Prop :=
  isFatal m = true ∨ m.field? "severity" = some (.int errorLevel) ∨ m.field? "severity" = some (.int warningLevel)

theorem Leveled.cases (h : Leveled m) :
    (isError m = true ∧ levelOf m = .ok errorLevel) ∨
      (isError m = false ∧ isWarning m = true ∧ levelOf m = .ok warningLevel) := by
  by_cases hfatal : isFatal m = true
  · exact .inl ⟨by simp [isError, hfatal], by simp [levelOf, hfatal]⟩
  · have hnumber {n : Int} (hn : n ≠ 0) (hfield : m.field? "severity" = some (.int n)) : levelOf m = .ok n := by
      have hpresent : m.present? "severity" = some (.int n) := by simp [Json.present?, hfield, Json.isPresent, hn]
      rw [levelOf, if_neg hfatal, Json.numberField, hpresent]
      rfl
    rcases h.resolve_left hfatal with hfield | hfield
    · exact .inl ⟨by simp [isError, hfield, Json.isNumber], hnumber (by decide) hfield⟩
    · have herror : isError m = false := by simp [isError, hfatal, hfield, Json.isNumber, errorLevel, warningLevel]
      exact .inr ⟨herror, by simp [isWarning, herror, hfield, Json.isNumber], hnumber (by decide) hfield⟩

/-- A message and its issue are of the same level. -/
theorem Leveled.isError_eq (h : Leveled m) (hi : messageIssue {} file m = .ok i) :
    isError m = i.isError ∧ isWarning m = !i.isError := by
  obtain ⟨level, hlevel, hseverity⟩ := messageIssue_eq_ok hi
  rcases h.cases with ⟨herror, hcase⟩ | ⟨herror, hwarning, hcase⟩
  · obtain rfl := Except.ok.inj (hlevel.symm.trans hcase)
    have hi : i.isError = true := by rw [Issue.isError, hseverity]; rfl
    exact ⟨herror.trans hi.symm, by simp [isWarning, herror, hi]⟩
  · obtain rfl := Except.ok.inj (hlevel.symm.trans hcase)
    have hi : i.isError = false := by rw [Issue.isError, hseverity]; rfl
    exact ⟨herror.trans hi.symm, by simp [hwarning, hi]⟩

/-! Counts. -/

theorem countP_eq_of_forall₂ {α β : Type} {R : α → β → Prop} {p : α → Bool} {q : β → Bool} {as : List α} {bs : List β}
    (h : List.Forall₂ R as bs) (hpq : ∀ a b, R a b → p a = q b) : as.countP p = bs.countP q := by
  induction h with
  | nil => rfl
  | cons hab _ ih => rw [List.countP_cons, List.countP_cons, ih, hpq _ _ hab]

theorem issues_of_payload {stdout stderr : String} (table : SeverityTable) (exitCode : Int)
    (hpayload : Json.payload? stdout.toList stderr.toList = .ok (some payload)) :
    issues table stdout stderr exitCode = match jsonIssues table payload with
      | .error (.unparsable ..) => issuesOfText table stdout stderr exitCode
      | .error e => .error e
      | .ok found => if !found.isEmpty || exitCode == 0 then .ok found else issuesOfText table stdout stderr exitCode := by
  rw [issues, hpayload]
  rfl

/-- Where there are messages, or none is needed, the issues are those of the results. -/
theorem issues_of_results {stdout stderr : String} {exitCode : Int} {found : List Issue}
    (hpayload : Json.payload? stdout.toList stderr.toList = .ok (some payload)) (hresults : results? payload = some results)
    (hfound : jsonIssues table payload = .ok found) (hsome : messagesIn results ≠ [] ∨ exitCode = 0) :
    issues table stdout stderr exitCode = .ok found := by
  have hlength : found.length = (messagesIn results).length := by
    rw [jsonIssues_eq hresults] at hfound
    rw [Outcome.length_of_mapM hfound, ← located_map_snd, List.length_map]
  have hreturned : (!found.isEmpty || exitCode == 0) = true := by
    rcases hsome with hne | hzero
    · have hpos : 0 < found.length := hlength ▸ List.length_pos_iff.mpr hne
      simp [List.ne_nil_of_length_pos hpos]
    · simp [hzero]
  rw [issues_of_payload table exitCode hpayload, hfound]
  exact if_pos hreturned

theorem counts_of_results {stdout stderr : String}
    (hpayload : Json.payload? stdout.toList stderr.toList = .ok (some payload)) (hresults : results? payload = some results) :
    counts stdout stderr = .ok (countJson results) := by
  rw [counts, hpayload]
  simp [Except.mapError, hresults, bind, Except.bind]

/-- Where all messages have a level, the errors and warnings that are counted are those that are reported. -/
theorem counts_eq_reported {stdout stderr : String} {exitCode : Int} {found : List Issue}
    (hpayload : Json.payload? stdout.toList stderr.toList = .ok (some payload))
    (hresults : results? payload = some results) (hleveled : ∀ m ∈ messagesIn results, Leveled m)
    (hfound : jsonIssues {} payload = .ok found) (hsome : messagesIn results ≠ [] ∨ exitCode = 0) :
    issues {} stdout stderr exitCode = .ok found ∧
      ∃ c, counts stdout stderr = .ok c ∧ c.errors = found.countP Issue.isError ∧
        c.warnings = found.countP fun i => !i.isError := by
  have hreported := (jsonIssues_eq hresults {}).symm.trans hfound
  rw [Outcome.mapM_eq_ok_iff] at hreported
  have hmessages : ∀ l ∈ located results, Leveled l.2 := by
    intro l hl
    refine hleveled l.2 ?_
    rw [← located_map_snd]
    exact List.mem_map_of_mem hl
  have hboth := (List.forall₂_and_left _ _).mpr ⟨hmessages, hreported⟩
  refine ⟨issues_of_results hpayload hresults hfound hsome, _, counts_of_results hpayload hresults, ?_, ?_⟩
  · change (messagesIn results).countP isError = _
    rw [← located_map_snd, List.countP_map]
    exact countP_eq_of_forall₂ hboth fun l i h => (h.1.isError_eq h.2).1
  · change (messagesIn results).countP isWarning = _
    rw [← located_map_snd, List.countP_map]
    exact countP_eq_of_forall₂ hboth fun l i h => (h.1.isError_eq h.2).2

/-- An error, a fatal error and a warning, and among them what is no message. -/
def threeMessages : List Json :=
  [.obj [("severity", .int 2)], .null, .obj [("fatal", .bool true)], .obj [("severity", .int 1), ("ruleId", .str "semi")]]

def threeResults : Json := .arr [.obj [("filePath", .str "a.js"), ("messages", .arr threeMessages)]]

theorem counts_eq_reported_three :
    ∃ results found, Json.payload? (threeResults.text Json.compact).toList "".toList = .ok (some threeResults) ∧
      results? threeResults = some results ∧ (∀ m ∈ messagesIn results, Leveled m) ∧
      jsonIssues {} threeResults = .ok found ∧ (messagesIn results ≠ [] ∨ (1 : Int) = 0) ∧
      issues {} (threeResults.text Json.compact) "" 1 = .ok found ∧
      ∃ c, counts (threeResults.text Json.compact) "" = .ok c ∧ c.errors = found.countP Issue.isError ∧
        c.warnings = found.countP fun i => !i.isError := by
  have hformed : Json.Formed Json.mostNested threeResults := by
    simp [threeResults, threeMessages, Json.Formed, Json.FormedItems, Json.FormedFields, Json.mostNested]
  have hshort : threeResults.Short := by
    simp [threeResults, threeMessages, Json.spellable_of_lt]
  have hpayload : Json.payload? (threeResults.text Json.compact).toList "".toList = .ok (some threeResults) :=
    Json.payload?_text Json.compact_blank hformed hshort rfl
  have hresults : results? threeResults =
    some [(.obj [("filePath", .str "a.js"), ("messages", .arr threeMessages)], threeMessages)] := rfl
  have hfound : jsonIssues {} threeResults = .ok _ := rfl
  have hleveled : ∀ m ∈ messagesIn [(.obj [("filePath", .str "a.js"), ("messages", .arr threeMessages)], threeMessages)],
      Leveled m := by
    simp [messagesIn, threeMessages, isObject, Leveled, isFatal, Json.present?, Json.field?, Json.isPresent, errorLevel,
      warningLevel]
  have hsome : messagesIn [(.obj [("filePath", .str "a.js"), ("messages", .arr threeMessages)], threeMessages)] ≠ [] ∨
      (1 : Int) = 0 := .inl (by simp [messagesIn, threeMessages, isObject])
  exact ⟨_, _, hpayload, hresults, hleveled, hfound, hsome, counts_eq_reported hpayload hresults hleveled hfound hsome⟩

end Output.Lint

end QualityGate
