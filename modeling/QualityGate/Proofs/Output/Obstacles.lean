import Mathlib
import QualityGate.Output.Vulnerability
import QualityGate.Proofs.Output.LintResults

/-! What keeps a report from being read at all. Of a linter's messages the first one
with a number that is none, or with a rule that is no text, ends the reading, and
no other parser has its turn; of a package audit's entries the first one whose
origins cannot be gone through does. -/

namespace QualityGate

open Text Text.Pattern Outcome

namespace Json

/-! Numbers of JSON. -/

/-- A value that is there but is no whole number, and the failure to read it as one. -/
inductive NotWhole : Json → Failure → Prop
  | text {s : String} {e : Failure} (h : Failure.wholeNumber 10 s.toList = .error e) : NotWhole (.str s) e
  | nan {x : Float} (h : Decimal.exactValue? x = none) (hx : x.isNaN = true) :
      NotWhole (.float x) (.badValue "cannot convert float NaN to integer")
  | infinite {x : Float} (h : Decimal.exactValue? x = none) (hx : x.isNaN = false) :
      NotWhole (.float x) (.overflow "cannot convert float infinity to integer")
  | container {v : Json} (h : isContainer v = true) :
      NotWhole v (.badType
        ("int() argument must be a string, a bytes-like object or a real number, not '" ++ kindName v ++ "'"))

/-- A field holds such a value. -/
def BadNumber (v : Json) (name : String) (e : Failure) : Prop := ∃ n, v.present? name = some n ∧ NotWhole n e

variable {v n : Json} {name : String} {e : Failure}

theorem wholeNumber_eq_error_iff (hn : n.isPresent = true) : n.wholeNumber = .error e ↔ NotWhole n e := by
  constructor
  · intro h
    cases n with
    | null => cases hn
    | bool b => cases h
    | int k => cases h
    | float x =>
      rw [wholeNumber] at h
      split at h
      case h_1 => cases h
      case h_2 hvalue =>
        cases hx : x.isNaN with
        | true =>
          obtain rfl := Except.error.inj ((if_pos hx).symm.trans h)
          exact .nan hvalue hx
        | false =>
          obtain rfl := Except.error.inj ((if_neg (Bool.eq_false_iff.mp hx)).symm.trans h)
          exact .infinite hvalue hx
    | str s => exact .text h
    | arr items =>
      obtain rfl := Except.error.inj h
      exact .container rfl
    | obj fields =>
      obtain rfl := Except.error.inj h
      exact .container rfl
  · intro h
    cases h with
    | text h => exact h
    | nan hvalue hx =>
      rw [wholeNumber, hvalue]
      exact if_pos hx
    | infinite hvalue hx =>
      rw [wholeNumber, hvalue]
      exact if_neg (Bool.eq_false_iff.mp hx)
    | container h => cases n <;> first | rfl | cases h

theorem numberField_eq_error_iff : v.numberField name = .error e ↔ BadNumber v name e := by
  rw [numberField, BadNumber]
  cases hv : v.present? name with
  | none =>
    constructor
    · intro h
      cases h
    · rintro ⟨n, hn, -⟩
      cases hn
  | some n =>
    have hpresent : n.isPresent = true := (Option.filter_eq_some_iff.mp hv).2
    simp [wholeNumber_eq_error_iff hpresent]

theorem NotWhole.not_isGateFailure (h : NotWhole n e) : e.isGateFailure = false := by
  cases h with
  | text h =>
    rw [Failure.wholeNumber] at h
    cases hwhole : Numeral.whole 10 _ with
    | ok k => rw [hwhole] at h; cases h
    | error f =>
      rw [hwhole] at h
      obtain rfl := Except.error.inj h
      cases f <;> rfl
  | nan | infinite | container => rfl

end Json

namespace Output

namespace Lint

/-! Messages. -/

/-- The severity is no number, which is seen unless the message is fatal. -/
def BadLevel (m : Json) (e : Failure) : Prop := isFatal m = false ∧ m.BadNumber "severity" e

/-- The rule is neither a text nor null. -/
def BadRule (m : Json) (e : Failure) : Prop :=
  (∃ v, m.field? "ruleId" = some v ∧ v.isNull = false ∧ ∀ s, v ≠ .str s) ∧
    e = .invalid [⟨[.name "code"], .stringType⟩]

/-- The first part of the message that cannot be read. -/
def Unreadable (m : Json) (e : Failure) : Prop :=
  FirstFails (fun check e => check e) [BadLevel m, m.BadNumber "line", m.BadNumber "column", BadRule m] e

variable {table : SeverityTable} {m : Json} {file : String} {e : Failure}

theorem levelOf_eq_error_iff : levelOf m = .error e ↔ BadLevel m e := by
  rw [levelOf, BadLevel]
  cases hfatal : isFatal m with
  | true => simp
  | false => simp [Json.numberField_eq_error_iff]

theorem ruleCode_eq_error_iff : ruleCode ((m.field? "ruleId").getD .null) = .error e ↔ BadRule m e := by
  rw [BadRule, @eq_comm _ e]
  cases hrule : m.field? "ruleId" with
  | none => exact iff_of_false nofun (by simp)
  | some v =>
    cases v with
    | null => exact iff_of_false nofun (by simp [Json.isNull])
    | str s => exact iff_of_false nofun (by simp)
    | bool _ | int _ | float _ | arr _ | obj _ =>
      simp only [Option.getD_some, Option.some.injEq, exists_eq_left', Json.isNull, true_and, reduceCtorEq, ne_eq,
        not_false_eq_true, implies_true]
      exact ⟨Except.error.inj, congrArg _⟩

theorem messageIssue_eq_error_iff : messageIssue table file m = .error e ↔ Unreadable m e :=
  bind_firstFails (fun _ => levelOf_eq_error_iff) fun _ =>
    bind_firstFails (fun _ => Json.numberField_eq_error_iff) fun _ =>
      bind_firstFails (fun _ => Json.numberField_eq_error_iff) fun _ =>
        bind_firstFails (fun _ => ruleCode_eq_error_iff) fun _ => ok_firstFails

theorem Unreadable.not_isGateFailure (h : Unreadable m e) : e.isGateFailure = false := by
  obtain ⟨check, hcheck, he⟩ := h.exists_mem
  simp only [List.mem_cons, List.not_mem_nil, or_false] at hcheck
  rcases hcheck with rfl | rfl | rfl | rfl
  · obtain ⟨-, n, -, hn⟩ := he
    exact hn.not_isGateFailure
  · obtain ⟨n, -, hn⟩ := he
    exact hn.not_isGateFailure
  · obtain ⟨n, -, hn⟩ := he
    exact hn.not_isGateFailure
  · rw [he.2]
    rfl

theorem jsonIssues_eq_error_iff {payload : Json} {results : List (Json × List Json)} (h : results? payload = some results) :
    jsonIssues table payload = .error e ↔ FirstFails Unreadable (messagesIn results) e := by
  rw [jsonIssues_eq h, mapM_firstFails fun _ _ _ => messageIssue_eq_error_iff, ← located_map_snd, firstFails_map]

/-! Rows. -/

def rowOf? (line : List Char) : Option Found := if isBlankLine line then none else row.matchPrefix? line

/-- The rows that stand in the output. -/
def rowsIn (stdout stderr : String) : List Found := (combinedLines stdout stderr).filterMap rowOf?

theorem foldl_stylishStep_snd (ls : List (List Char)) (state : String × List (String × Found)) :
    ((ls.foldl stylishStep state).2.reverse.map Prod.snd) = state.2.reverse.map Prod.snd ++ ls.filterMap rowOf? := by
  induction ls generalizing state with
  | nil => simp
  | cons l ls ih =>
    rw [List.foldl_cons, ih, List.filterMap_cons, rowOf?, stylishStep]
    split
    case isTrue => rfl
    case isFalse =>
      cases row.matchPrefix? l with
      | some m => simp
      | none =>
        dsimp only
        split <;> rfl

theorem placed_of_row {m : Found} {l : List Char} (hm : row.matchPrefix? l = some m) : Placed m := by
  refine placed_of_foundAt ?_ hm
  have hrule : (Pattern.optional (ofList [blanks 2, capture "rule" (many (fun c => isWordChar c ||
      ['@', '.', '/', '-'].contains c) 1)])).CapturesAre IsPlace :=
    ⟨⟨trivial, captures_other (by decide) trivial⟩, trivial⟩
  rw [row, capturesAre_ofList]
  simp only [List.forall_mem_cons]
  exact ⟨trivial, captures_digits, trivial, captures_digits, trivial, captures_other (by decide) (capturesAre_words _),
    trivial, captures_other (by decide) trivial, hrule, trivial, trivial, List.forall_mem_nil _⟩

theorem placed_of_mem_rowsIn {stdout stderr : String} {m : Found} (hm : m ∈ rowsIn stdout stderr) : Placed m := by
  obtain ⟨l, -, hl⟩ := List.mem_filterMap.mp hm
  exact placed_of_row (Option.ite_none_left_eq_some.mp hl).2

theorem stylishIssues_eq_error_iff {stdout stderr : String} :
    stylishIssues table (stdout.toList ++ '\n' :: stderr.toList) = .error e ↔
      FirstFails OutOfReach (rowsIn stdout stderr) e := by
  have hrows := foldl_stylishStep_snd (combinedLines stdout stderr) ("", [])
  rw [List.reverse_nil, List.map_nil, List.nil_append, ← rowsIn] at hrows
  have hplaced : ∀ x ∈ ((combinedLines stdout stderr).foldl stylishStep ("", [])).2.reverse, Placed x.2 := by
    intro x hx
    have hmem : x.2 ∈ rowsIn stdout stderr := hrows ▸ List.mem_map_of_mem hx
    exact placed_of_mem_rowsIn hmem
  rw [← hrows, firstFails_map]
  exact mapM_firstFails fun x hx e => place_eq_error_iff (hplaced x hx)

/-! The whole output. -/

section whole

variable {stdout stderr : String} {exitCode : Int}

/-- The text is read: there are no results, or none of a failing run holds a message. -/
inductive ReadsText (stdout stderr : String) (exitCode : Int) : Prop
  | noPayload (h : Json.payload? stdout.toList stderr.toList = .ok none)
  | noResults {payload : Json} (h : Json.payload? stdout.toList stderr.toList = .ok (some payload))
      (hresults : results? payload = none)
  | noMessages {payload : Json} {results : List (Json × List Json)}
      (h : Json.payload? stdout.toList stderr.toList = .ok (some payload)) (hresults : results? payload = some results)
      (hnone : messagesIn results = []) (hexit : exitCode ≠ 0)

/-- What keeps the output from being read: JSON out of bounds, a message that cannot be read, or a row that cannot,
in this order. -/
inductive Obstacle (stdout stderr : String) (exitCode : Int) : Failure → Prop
  | payload {f : Json.LocatedFault} (h : Json.payload? stdout.toList stderr.toList = .error f) :
      Obstacle stdout stderr exitCode (.ofJson f)
  | message {payload : Json} {results : List (Json × List Json)} {e : Failure}
      (h : Json.payload? stdout.toList stderr.toList = .ok (some payload)) (hresults : results? payload = some results)
      (he : FirstFails Unreadable (messagesIn results) e) : Obstacle stdout stderr exitCode e
  | row {e : Failure} (h : ReadsText stdout stderr exitCode) (he : FirstFails OutOfReach (rowsIn stdout stderr) e) :
      Obstacle stdout stderr exitCode e

abbrev IsParseFailure (e : Failure) : Prop := ∃ d, e = .unparsable "lint" d

theorem not_isParseFailure (h : e.isGateFailure = false) : ¬ IsParseFailure e := by
  rintro ⟨d, rfl⟩
  cases h

theorem isGateFailure_ofJson (f : Json.LocatedFault) : (Failure.ofJson f).isGateFailure = false := by
  unfold Failure.ofJson
  split <;> rfl

theorem issuesOfText_foreseen (table : SeverityTable) (stdout stderr : String) (exitCode : Int) :
    Foreseen IsParseFailure (FirstFails OutOfReach (rowsIn stdout stderr)) (issuesOfText table stdout stderr exitCode) := by
  have hsome (found : List Issue) : (requireSome "lint" "diagnostics" exitCode found).FailsOnly IsParseFailure := by
    rw [requireSome]
    split
    · exact .error ⟨_, rfl⟩
    · exact .ok found
  rw [issuesOfText, textIssues, bind_assoc]
  refine Foreseen.bind (fun e => stylishIssues_eq_error_iff) (fun e he => ?_) fun found => hsome _
  obtain ⟨m, -, hm⟩ := he.exists_mem
  obtain ⟨n, -, rfl⟩ := hm.tooLong
  exact not_isParseFailure rfl

theorem issues_of_readsText (h : ReadsText stdout stderr exitCode) (table : SeverityTable) :
    issues table stdout stderr exitCode = issuesOfText table stdout stderr exitCode := by
  cases h with
  | noPayload h =>
    rw [issues, h]
    rfl
  | noResults h hresults =>
    rw [issues_of_payload table exitCode h, jsonIssues, hresults]
  | noMessages h hresults hnone hexit =>
    have hlocated : located _ = [] := List.map_eq_nil_iff.mp ((located_map_snd _).trans hnone)
    rw [issues_of_payload table exitCode h, jsonIssues_eq hresults, hlocated]
    exact if_neg (by simpa using hexit)

theorem obstacle_iff_of_readsText (h : ReadsText stdout stderr exitCode) :
    Obstacle stdout stderr exitCode e ↔ FirstFails OutOfReach (rowsIn stdout stderr) e := by
  constructor
  · rintro (hpayload | ⟨hpayload, hresults, he⟩ | ⟨-, he⟩)
    · cases h with
      | noPayload h | noResults h | noMessages h => cases hpayload.symm.trans h
    · cases h with
      | noPayload h => cases hpayload.symm.trans h
      | noResults h hnone =>
        cases hpayload.symm.trans h
        cases hresults.symm.trans hnone
      | noMessages h hresults' hnone =>
        cases hpayload.symm.trans h
        cases hresults.symm.trans hresults'
        rw [hnone] at he
        exact absurd he firstFails_nil
    · exact he
  · exact .row h

theorem issues_eq_error_iff_of_results {payload : Json} {results : List (Json × List Json)}
    (h : Json.payload? stdout.toList stderr.toList = .ok (some payload)) (hresults : results? payload = some results)
    (hsome : messagesIn results ≠ [] ∨ exitCode = 0) :
    issues table stdout stderr exitCode = .error e ↔ FirstFails Unreadable (messagesIn results) e := by
  have hfails : jsonIssues table payload = .error e ↔ FirstFails Unreadable (messagesIn results) e :=
    jsonIssues_eq_error_iff hresults
  rw [← hfails]
  cases hjson : jsonIssues table payload with
  | ok found => rw [issues_of_results h hresults hjson hsome]
  | error e' =>
    obtain ⟨m, -, hm⟩ := ((jsonIssues_eq_error_iff hresults).mp hjson).exists_mem
    have hgate := hm.not_isGateFailure
    rw [issues_of_payload table exitCode h, hjson]
    -- No other parser has its turn after any failure but one.
    cases e' with
    | unparsable => cases hgate
    | _ => simp

theorem obstacle_iff_of_results {payload : Json} {results : List (Json × List Json)}
    (h : Json.payload? stdout.toList stderr.toList = .ok (some payload)) (hresults : results? payload = some results)
    (hsome : messagesIn results ≠ [] ∨ exitCode = 0) :
    Obstacle stdout stderr exitCode e ↔ FirstFails Unreadable (messagesIn results) e := by
  constructor
  · rintro (h' | ⟨h', hresults', he⟩ | ⟨h' | ⟨h', hnone⟩ | ⟨h', hresults', hnone, hexit⟩, -⟩)
    · cases h.symm.trans h'
    · cases h.symm.trans h'
      cases hresults.symm.trans hresults'
      exact he
    · cases h.symm.trans h'
    · cases h.symm.trans h'
      cases hresults.symm.trans hnone
    · cases h.symm.trans h'
      cases hresults.symm.trans hresults'
      exact absurd hsome (not_or.mpr ⟨not_not.mpr hnone, hexit⟩)
  · exact .message h hresults

theorem issues_foreseen (table : SeverityTable) (stdout stderr : String) (exitCode : Int) :
    Foreseen IsParseFailure (Obstacle stdout stderr exitCode) (issues table stdout stderr exitCode) := by
  have htext (h : ReadsText stdout stderr exitCode) :
      Foreseen IsParseFailure (Obstacle stdout stderr exitCode) (issues table stdout stderr exitCode) := by
    rw [issues_of_readsText h]
    exact (issuesOfText_foreseen table stdout stderr exitCode).congr fun e => obstacle_iff_of_readsText h
  cases hpayload : Json.payload? stdout.toList stderr.toList with
  | error f =>
    have hobstacle (e : Failure) : Obstacle stdout stderr exitCode e ↔ e = .ofJson f := by
      constructor
      · rintro (h | ⟨h, -⟩ | ⟨h | ⟨h, -⟩ | ⟨h, -⟩, -⟩)
        · cases hpayload.symm.trans h
          rfl
        · cases hpayload.symm.trans h
        · cases hpayload.symm.trans h
        · cases hpayload.symm.trans h
        · cases hpayload.symm.trans h
      · rintro rfl
        exact .payload hpayload
    have hissues : issues table stdout stderr exitCode = .error (.ofJson f) := by
      rw [issues, hpayload]
      rfl
    refine .of_iff (fun e => ?_) fun e he => ?_
    · rw [hissues, hobstacle, eq_comm (a := e)]
      exact ⟨Except.error.inj, congrArg _⟩
    · rw [(hobstacle e).mp he]
      exact not_isParseFailure (isGateFailure_ofJson f)
  | ok payload =>
    cases payload with
    | none => exact htext (.noPayload hpayload)
    | some payload =>
      cases hresults : results? payload with
      | none => exact htext (.noResults hpayload hresults)
      | some results =>
        by_cases hsome : messagesIn results ≠ [] ∨ exitCode = 0
        · refine .of_iff (fun e => ?_) fun e he => ?_
          · rw [issues_eq_error_iff_of_results hpayload hresults hsome, obstacle_iff_of_results hpayload hresults hsome]
          · obtain ⟨m, -, hm⟩ := ((obstacle_iff_of_results hpayload hresults hsome).mp he).exists_mem
            exact not_isParseFailure hm.not_isGateFailure
        · obtain ⟨hnone, hexit⟩ := not_or.mp hsome
          exact htext (.noMessages hpayload hresults (not_not.mp hnone) hexit)

end whole

end Lint

namespace Vulnerability

def isScalar : Json → Bool
  | .null | .bool _ | .int _ | .float _ => true
  | _ => false

/-- What an entry comes from is a single value that is no text. -/
def Uniterable (entry : Json) (e : Failure) : Prop :=
  ∃ v, entry.field? "via" = some v ∧ isScalar v = true ∧
    e = .badType ("'" ++ Json.kindName v ++ "' object is not iterable")

/-- The first entry in the order of their names that is so. -/
inductive Obstacle (payload : Json) : Failure → Prop
  | via {fields : List (String × Json)} {e : Failure} (herror : payload.field? "error" = none)
      (hfields : payload.field? "vulnerabilities" = some (.obj fields))
      (he : FirstFails (fun f => Uniterable f.2) ((byName fields).filter isEntry) e) : Obstacle payload e

variable {table : SeverityTable} {manifest name : String} {entry payload v : Json} {e : Failure}

theorem itemsOf_eq_error_iff :
    itemsOf v = .error e ↔ isScalar v = true ∧ e = .badType ("'" ++ Json.kindName v ++ "' object is not iterable") := by
  cases v with
  | null | bool _ | int _ | float _ =>
    rw [itemsOf, isScalar, @eq_comm _ e, eq_self, true_and]
    · exact ⟨Except.error.inj, congrArg _⟩
    all_goals nofun
  | str _ | arr _ | obj _ => exact iff_of_false nofun nofun

theorem packageIssue_eq_error_iff : packageIssue table manifest name entry = .error e ↔ Uniterable entry e := by
  have hitems : packageIssue table manifest name entry = .error e ↔
      itemsOf ((entry.field? "via").getD (.arr [])) = .error e := by
    rw [packageIssue, title]
    cases itemsOf ((entry.field? "via").getD (.arr [])) with
    | ok via =>
      refine iff_of_false ?_ nofun
      cases h : via.findSome? titleOf? <;> simp [bind, Except.bind, h]
    | error e' => exact ⟨fun h => congrArg _ (Except.error.inj h), fun h => congrArg _ (Except.error.inj h)⟩
  rw [hitems, Uniterable]
  cases entry.field? "via" with
  | none => exact iff_of_false nofun (by simp)
  | some v => simp [itemsOf_eq_error_iff]

theorem issues_of_vulnerabilities {fields : List (String × Json)} (herror : payload.field? "error" = none)
    (hfields : payload.field? "vulnerabilities" = some (.obj fields)) :
    issues table manifest payload =
      ((byName fields).filter isEntry).mapM fun f => packageIssue table manifest f.1 f.2 := by
  cases payload with
  | obj _ =>
    rw [issues, herror, hfields]
  | _ => cases hfields

theorem issues_without_vulnerabilities (table : SeverityTable) (manifest : String)
    (h : payload.field? "error" = none → ∀ fields, payload.field? "vulnerabilities" ≠ some (.obj fields)) :
    (issues table manifest payload).FailsOnly fun e => ∃ d, e = .unparsable "dependency-audit" d := by
  rw [issues.eq_def]
  split
  case h_1 =>
    split
    case h_1 => exact .error ⟨_, rfl⟩
    case h_2 herror hfields => exact absurd hfields (h herror _)
    case h_3 => exact .ok _
    case h_4 =>
      split
      · exact .ok _
      · exact .error ⟨_, rfl⟩
  case h_2 => exact .error ⟨_, rfl⟩

theorem issues_foreseen (table : SeverityTable) (manifest : String) (payload : Json) :
    Foreseen (fun e => ∃ d, e = .unparsable "dependency-audit" d) (Obstacle payload) (issues table manifest payload) := by
  by_cases h : payload.field? "error" = none ∧ ∃ fields, payload.field? "vulnerabilities" = some (.obj fields)
  · obtain ⟨herror, fields, hfields⟩ := h
    have hobstacle (e : Failure) :
        Obstacle payload e ↔ FirstFails (fun f => Uniterable f.2) ((byName fields).filter isEntry) e := by
      constructor
      · rintro ⟨-, hfields', he⟩
        cases hfields.symm.trans hfields'
        exact he
      · exact .via herror hfields
    rw [issues_of_vulnerabilities herror hfields]
    refine .of_iff (fun e => ?_) fun e he => ?_
    · rw [hobstacle, mapM_firstFails fun _ _ _ => packageIssue_eq_error_iff]
    · obtain ⟨f, -, v, -, -, rfl⟩ := ((hobstacle e).mp he).exists_mem
      nofun
  · constructor
    · intro hfree
      exact issues_without_vulnerabilities table manifest fun herror fields hfields => h ⟨herror, fields, hfields⟩
    · rintro e ⟨herror, hfields, -⟩
      exact absurd ⟨herror, _, hfields⟩ h

end Vulnerability

/-- A report of a linter is read, or cannot be parsed, exactly unless JSON is out of bounds, a message of the results
cannot be read, or a row has too many digits where the text has its turn; one of package vulnerabilities is,
exactly unless an entry's origins cannot be gone through. -/
theorem reports_foreseen (table : SeverityTable) (stdout stderr : String) (exitCode : Int) (manifest : String)
    (payload : Json) :
    Foreseen (fun e => ∃ d, e = .unparsable "lint" d) (Lint.Obstacle stdout stderr exitCode)
        (Lint.issues table stdout stderr exitCode) ∧
      Foreseen (fun e => ∃ d, e = .unparsable "dependency-audit" d) (Vulnerability.Obstacle payload)
        (Vulnerability.issues table manifest payload) :=
  ⟨Lint.issues_foreseen table stdout stderr exitCode, Vulnerability.issues_foreseen table manifest payload⟩

/-- Results with a word for a level. -/
def wordedLevel : Json :=
  .arr [.obj [("filePath", .str "a.js"),
    ("messages", .arr [.obj [("severity", .str "error"), ("message", .str "boom")]])]]

/-- The word is taken for a number, though the text would have been read; and null for a list of origins. -/
theorem reports_unforeseen :
    Lint.issues {} (wordedLevel.text Json.compact) "" 1 =
        .error (.badValue "invalid literal for int() with base 10: 'error'") ∧
      (Lint.issuesOfText {} (wordedLevel.text Json.compact) "" 1).toOption =
        some [{ source := .lint, severity := .high, message := wordedLevel.text Json.compact,
                suggestedFix := "Review lint output and fix issues" }] ∧
      Vulnerability.issues {} "package.json" (.obj [("vulnerabilities", .obj [("a", .obj [("via", .null)])])]) =
        .error (.badType "'NoneType' object is not iterable") := by
  have hformed : Json.Formed Json.mostNested wordedLevel := by
    simp [wordedLevel, Json.Formed, Json.FormedItems, Json.FormedFields, Json.mostNested]
  have hshort : wordedLevel.Short := by simp [wordedLevel]
  have hpayload : Json.payload? (wordedLevel.text Json.compact).toList "".toList = .ok (some wordedLevel) :=
    Json.payload?_text Json.compact_blank hformed hshort rfl
  refine ⟨?_, ?_, ?_⟩
  · rw [Lint.issues_of_payload {} 1 hpayload]
    have hjson : Lint.jsonIssues {} wordedLevel = .error (.badValue "invalid literal for int() with base 10: 'error'") := rfl
    rw [hjson]
  · decide +kernel
  · have hentries : (Vulnerability.byName [("a", .obj [("via", .null)])]).filter Vulnerability.isEntry =
        [("a", .obj [("via", .null)])] := by
      simp [Vulnerability.byName, Vulnerability.isEntry]
    rw [Vulnerability.issues_of_vulnerabilities rfl rfl, hentries]
    rfl

end Output

end QualityGate
