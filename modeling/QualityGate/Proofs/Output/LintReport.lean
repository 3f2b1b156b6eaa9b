import Mathlib
import QualityGate.Proofs.Output.LintRow

/-! A linter's report: files, each with its rows, and a summary of all. Its rows and
its totals are read back unless the output is taken for something else first: a
part of it for results in another format, or an earlier line for the summary. -/

namespace QualityGate.Output.Lint

open Text Text.Pattern

/-! Reports. -/

/-- What a linter has to say about one file. -/
structure FileReport where
  path : List Char
  rows : List Row
  path_start : ∃ c ∈ path.head?, isBlank c = false ∧ c ≠ '✖' ∧ c ≠ '⚠'
  path_line : ∀ c ∈ path, isLineBreak c = false

namespace FileReport

def lines (f : FileReport) : List (List Char) := f.path :: f.rows.map Row.text ++ [[]]

end FileReport

section report

def allRows (fs : List FileReport) : List (List Char × Row) := fs.flatMap fun f => f.rows.map fun r => (f.path, r)

def errorRows (fs : List FileReport) : Nat := (allRows fs).countP fun x => x.2.isError

def warningRows (fs : List FileReport) : Nat := (allRows fs).countP fun x => !x.2.isError

/-- A number of things, each named by a word. -/
def counted (n : Nat) (word : String) : List Char :=
  Nat.toDigits 10 n ++ ' ' :: word.toList ++ if n = 1 then [] else ['s']

def totals (fs : List FileReport) : List Char :=
  counted (errorRows fs + warningRows fs) "problem" ++ " (".toList ++ counted (errorRows fs) "error" ++ ", ".toList ++
    counted (warningRows fs) "warning" ++ ")".toList

def listing (fs : List FileReport) : List (List Char) := [] :: fs.flatMap FileReport.lines

def rendered (fs : List FileReport) : List Char := unlines (listing fs ++ ["✖ ".toList ++ totals fs])

end report

/-! Rows of a report. -/

section rows

variable {f : FileReport} {fs : List FileReport} {state : String × List (String × Found)} {found : Row → Found}

theorem matchPrefix?_of_visible {c : Char} {t : List Char} (hc : isBlank c = false) : row.matchPrefix? (c :: t) = none := by
  by_contra hsome
  obtain ⟨m, hm⟩ := Option.ne_none_iff_exists'.mp hsome
  obtain ⟨w, r, cs, hrest, hreads, -⟩ := exists_reads_of_foundAt hm
  rw [row, reads_ofList_cons] at hreads
  obtain ⟨b, v, _, _, rfl, -, ⟨⟨hne, hb⟩, -⟩, -⟩ := hreads
  obtain ⟨x, b', rfl⟩ := List.exists_cons_of_ne_nil (List.ne_nil_of_length_pos hne)
  obtain ⟨rfl, -⟩ := List.cons.inj hrest
  rw [hb c List.mem_cons_self] at hc
  cases hc

theorem stylishStep_nil : stylishStep state [] = state := rfl

theorem stylishStep_path (f : FileReport) : stylishStep state f.path = (String.ofList (trim f.path), state.2) := by
  obtain ⟨c, hc, hblank, hcross, hwarn⟩ := f.path_start
  obtain ⟨t, ht⟩ := List.head?_eq_some_iff.mp hc
  have hheader : isFileHeader (c :: t) = true := by simp [isFileHeader, hblank, hcross, hwarn]
  have hvisible : isBlankLine (c :: t) = false := List.all_eq_false.mpr ⟨c, List.mem_cons_self, by simp [hblank]⟩
  rw [ht, stylishStep, hvisible, matchPrefix?_of_visible hblank]
  simp [hheader]

theorem stylishStep_summary {t : List Char} : stylishStep state ('✖' :: t) = state := by
  have hcross : isBlank '✖' = false := by decide
  have hheader : isFileHeader ('✖' :: t) = false := by simp [isFileHeader]
  have hvisible : isBlankLine ('✖' :: t) = false := List.all_eq_false.mpr ⟨'✖', List.mem_cons_self, by simp [hcross]⟩
  rw [stylishStep, hvisible, matchPrefix?_of_visible hcross]
  simp [hheader]

theorem stylishStep_row {r : Row} {m : Found} (hm : row.matchPrefix? r.text = some m) :
    stylishStep state r.text = (state.1, (state.1, m) :: state.2) := by
  have hmem : ':' ∈ r.text := by
    rw [r.text_eq]
    simp
  have hvisible : isBlankLine r.text = false := List.all_eq_false.mpr ⟨':', hmem, by decide⟩
  rw [stylishStep, hvisible, hm]
  rfl

theorem foldl_rows (hfound : ∀ r : Row, row.matchPrefix? r.text = some (found r)) (rows : List Row) :
    (rows.map Row.text).foldl stylishStep state =
      (state.1, (rows.map fun r => (state.1, found r)).reverse ++ state.2) := by
  induction rows generalizing state with
  | nil => rfl
  | cons r rows ih =>
    rw [List.map_cons, List.foldl_cons, stylishStep_row (hfound r), ih]
    simp

theorem foldl_files (hfound : ∀ r : Row, row.matchPrefix? r.text = some (found r)) (fs : List FileReport) :
    ((fs.flatMap FileReport.lines).foldl stylishStep state).2 =
      ((allRows fs).map fun x => (String.ofList (trim x.1), found x.2)).reverse ++ state.2 := by
  induction fs generalizing state with
  | nil => rfl
  | cons f fs ih =>
    rw [List.flatMap_cons, List.foldl_append, ih, FileReport.lines, List.cons_append, List.foldl_cons, stylishStep_path,
      List.foldl_append, foldl_rows hfound]
    simp [allRows, stylishStep_nil, Function.comp_def]

end rows

/-! Totals. -/

structure SummaryParts where
  problems : List Char
  afterProblems : List Char
  problemsEnd : List Char
  beforeOpen : List Char
  errors : List Char
  afterErrors : List Char
  errorsEnd : List Char
  afterComma : List Char
  warnings : List Char
  afterWarnings : List Char
  warningsEnd : List Char

namespace SummaryParts

def text (p : SummaryParts) : List Char :=
  p.problems ++ (p.afterProblems ++ ("problem".toList ++ (p.problemsEnd ++ (p.beforeOpen ++ '(' :: (p.errors ++
    (p.afterErrors ++ ("error".toList ++ (p.errorsEnd ++ ',' :: (p.afterComma ++ (p.warnings ++ (p.afterWarnings ++
      ("warning".toList ++ (p.warningsEnd ++ [')'])))))))))))))

def captures (p : SummaryParts) : List (String × List Char) :=
  [("warnings", p.warnings), ("errors", p.errors), ("problems", p.problems)]

def IsGap (t : List Char) : Prop := 1 ≤ t.length ∧ ∀ c ∈ t, isBlank c = true

def IsPlural (t : List Char) : Prop := t = ['s'] ∨ t = []

structure Fits (p : SummaryParts) : Prop where
  problems : AreDigits p.problems
  afterProblems : IsGap p.afterProblems
  problemsEnd : IsPlural p.problemsEnd
  beforeOpen : IsGap p.beforeOpen
  errors : AreDigits p.errors
  afterErrors : IsGap p.afterErrors
  errorsEnd : IsPlural p.errorsEnd
  afterComma : IsGap p.afterComma
  warnings : AreDigits p.warnings
  afterWarnings : IsGap p.afterWarnings
  warningsEnd : IsPlural p.warningsEnd

variable {p q : SummaryParts}

theorem IsGap.head {t r : List Char} (h : IsGap t) : ∀ c ∈ (t ++ r).head?, isBlank c = true :=
  head?_append_of_forall (List.ne_nil_of_length_pos h.1) h.2

theorem IsPlural.all {t : List Char} (h : IsPlural t) : ∀ c ∈ t, (c == 's') = true := by
  rcases h with rfl | rfl <;> simp

theorem head_digits {t r : List Char} (h : AreDigits t) : ∀ c ∈ (t ++ r).head?, isBlank c = false :=
  head?_append_of_forall h.1 fun c hc => Numeral.isBlank_of_isDecimal (h.2 c hc)

theorem head_word {t : String} {r : List Char} (h : t.toList ≠ [] ∧ t.toList.all (fun c => !isBlank c) = true) :
    ∀ c ∈ (t.toList ++ r).head?, isBlank c = false :=
  head?_append_of_forall h.1 (by simpa using h.2)

/-- A text has no two readings as a summary. -/
theorem Fits.eq_of_text {r r' : List Char} (hp : p.Fits) (hq : q.Fits) (h : p.text ++ r = q.text ++ r') :
    p.errors = q.errors ∧ p.warnings = q.warnings := by
  have hs {c : Char} (h : isBlank c = true) : (c == 's') = false := by
    by_contra hno
    rw [show c = 's' by simpa using hno] at h
    exact absurd h (by decide)
  have hdigit {c : Char} (h : isBlank c = true) : isDecimal c = false := isDecimal_of_isBlank h
  simp only [text, List.append_assoc, List.cons_append] at h
  obtain ⟨-, h⟩ := run_append_inj hp.problems.2 hq.problems.2 (fun c hc => hdigit (hp.afterProblems.head c hc))
    (fun c hc => hdigit (hq.afterProblems.head c hc)) h
  obtain ⟨-, h⟩ := run_append_inj hp.afterProblems.2 hq.afterProblems.2 (head_word (by decide)) (head_word (by decide)) h
  obtain ⟨-, h⟩ := run_append_inj hp.problemsEnd.all hq.problemsEnd.all (fun c hc => hs (hp.beforeOpen.head c hc))
    (fun c hc => hs (hq.beforeOpen.head c hc)) (List.append_cancel_left h)
  obtain ⟨-, -, h⟩ := run_inj hp.beforeOpen.2 hq.beforeOpen.2 (by decide) (by decide) h
  obtain ⟨herrors, h⟩ := run_append_inj hp.errors.2 hq.errors.2 (fun c hc => hdigit (hp.afterErrors.head c hc))
    (fun c hc => hdigit (hq.afterErrors.head c hc)) h
  obtain ⟨-, h⟩ := run_append_inj hp.afterErrors.2 hq.afterErrors.2 (head_word (by decide)) (head_word (by decide)) h
  obtain ⟨-, -, h⟩ := run_inj hp.errorsEnd.all hq.errorsEnd.all (by decide) (by decide) (List.append_cancel_left h)
  obtain ⟨-, h⟩ := run_append_inj hp.afterComma.2 hq.afterComma.2 (head_digits hp.warnings) (head_digits hq.warnings) h
  obtain ⟨hwarnings, -⟩ := run_append_inj hp.warnings.2 hq.warnings.2 (fun c hc => hdigit (hp.afterWarnings.head c hc))
    (fun c hc => hdigit (hq.afterWarnings.head c hc)) h
  exact ⟨herrors, hwarnings⟩

/-- No summary goes over the mark before another one. -/
theorem Fits.mark_notMem (hp : p.Fits) : '✖' ∉ p.text := by
  have hdigits {t : List Char} (h : AreDigits t) : '✖' ∉ t := fun hc => absurd (h.2 _ hc) (by decide)
  have hgap {t : List Char} (h : IsGap t) : '✖' ∉ t := fun hc => absurd (h.2 _ hc) (by decide)
  have hplural {t : List Char} (h : IsPlural t) : '✖' ∉ t := fun hc => absurd (h.all _ hc) (by decide)
  have hword : ∀ t ∈ ["problem", "error", "warning"], '✖' ∉ t.toList := by decide
  simp only [text, List.mem_append, List.mem_cons, List.not_mem_nil, or_false, not_or]
  exact ⟨hdigits hp.problems, hgap hp.afterProblems, hword _ (by simp), hplural hp.problemsEnd, hgap hp.beforeOpen,
    by decide, hdigits hp.errors, hgap hp.afterErrors, hword _ (by simp), hplural hp.errorsEnd, by decide,
    hgap hp.afterComma, hdigits hp.warnings, hgap hp.afterWarnings, hword _ (by simp), hplural hp.warningsEnd, by decide⟩

theorem Fits.text_eq_cons (hp : p.Fits) : ∃ d t, p.text = d :: t ∧ isDecimal d = true := by
  obtain ⟨d, t, hdt⟩ := List.exists_cons_of_ne_nil hp.problems.1
  exact ⟨d, _, by rw [text, hdt, List.cons_append], hp.problems.2 d (by rw [hdt]; exact List.mem_cons_self)⟩

theorem Fits.prefix_of_mark {u r t : List Char} (hp : p.Fits) (h : u ++ '✖' :: t = p.text ++ r) :
    ∃ r', u = p.text ++ r' := by
  rcases List.append_eq_append_iff.mp h with ⟨v, hv, hmark⟩ | ⟨r', hu, -⟩
  · cases v with
    | nil => exact ⟨[], by simp [hv]⟩
    | cons c v =>
      obtain ⟨rfl, -⟩ := List.cons.inj hmark
      exact absurd (by rw [hv]; simp) hp.mark_notMem
  · exact ⟨r', hu⟩

end SummaryParts

section totals

variable {s : Cursor} {w r : List Char} {cs : List (String × List Char)}

theorem reads_summary :
    summary.Reads s w r cs ↔ ∃ p : SummaryParts, p.Fits ∧ w = p.text ∧ cs = p.captures := by
  simp only [summary, plural, reads_ofList_cons, reads_ofList_nil, reads_char, reads_word, reads_blanks, reads_digits,
    reads_optional, reads_capture, ↓existsAndEq, and_assoc, true_and, and_true, List.append_nil, List.nil_append,
    List.cons_append, ← or_and_right]
  constructor
  · rintro ⟨problems, g, e, g', errors, g₁, e₁, g₂, warnings, g₃, e₃, rfl, rfl, hproblems, hg, hblank, he, hg', hblank',
      herrors, hg₁, hblank₁, he₁, hg₂, hblank₂, hwarnings, hg₃, hblank₃, he₃⟩
    exact ⟨⟨problems, g, e, g', errors, g₁, e₁, g₂, warnings, g₃, e₃⟩, ⟨hproblems, ⟨hg, hblank⟩, he, ⟨hg', hblank'⟩,
      herrors, ⟨hg₁, hblank₁⟩, he₁, ⟨hg₂, hblank₂⟩, hwarnings, ⟨hg₃, hblank₃⟩, he₃⟩, rfl, rfl⟩
  · rintro ⟨p, h, rfl, rfl⟩
    exact ⟨_, _, _, _, _, _, _, _, _, _, _, rfl, rfl, h.problems, h.afterProblems.1, h.afterProblems.2, h.problemsEnd,
      h.beforeOpen.1, h.beforeOpen.2, h.errors, h.afterErrors.1, h.afterErrors.2, h.errorsEnd, h.afterComma.1,
      h.afterComma.2, h.warnings, h.afterWarnings.1, h.afterWarnings.2, h.warningsEnd⟩

variable {fs : List FileReport}

def pluralEnd (n : Nat) : List Char := if n = 1 then [] else ['s']

theorem isPlural_pluralEnd (n : Nat) : SummaryParts.IsPlural (pluralEnd n) := by
  rw [pluralEnd]
  split
  · exact .inr rfl
  · exact .inl rfl

def summaryParts (fs : List FileReport) : SummaryParts :=
  ⟨Nat.toDigits 10 (errorRows fs + warningRows fs), [' '], pluralEnd (errorRows fs + warningRows fs), [' '],
    Nat.toDigits 10 (errorRows fs), [' '], pluralEnd (errorRows fs), [' '],
    Nat.toDigits 10 (warningRows fs), [' '], pluralEnd (warningRows fs)⟩

theorem summaryParts_fits (fs : List FileReport) : (summaryParts fs).Fits := by
  have hspace : SummaryParts.IsGap [' '] := ⟨Nat.le_refl 1, by simp; decide⟩
  exact ⟨areDigits_toDigits _, hspace, isPlural_pluralEnd _, hspace, areDigits_toDigits _, hspace, isPlural_pluralEnd _,
    hspace, areDigits_toDigits _, hspace, isPlural_pluralEnd _⟩

theorem totals_eq (fs : List FileReport) : totals fs = (summaryParts fs).text := by
  simp [totals, counted, summaryParts, SummaryParts.text, pluralEnd]

theorem rendered_eq (fs : List FileReport) :
    rendered fs = (unlines (listing fs) ++ ['✖', ' ']) ++ ((summaryParts fs).text ++ ['\n']) := by
  simp [rendered, unlines, totals_eq]

theorem foundAt?_summary_isSome {p : SummaryParts} (hp : p.Fits) (r : List Char) (before : Option Char) (pos : Nat) :
    (summary.foundAt? ⟨before, pos, p.text ++ r, []⟩).isSome = true :=
  foundAt?_isSome_iff.mpr ⟨p.text, r, p.captures, rfl, reads_summary.mpr ⟨p, hp, rfl, rfl⟩⟩

/-- The totals are found unless something before them looks like them. -/
theorem find?_summary (hquiet : summary.occursIn (unlines (listing fs)) = false) :
    ∃ m, summary.find? (rendered fs) = some m ∧ m.group? "errors" = some (Nat.toDigits 10 (errorRows fs)) ∧
      m.group? "warnings" = some (Nat.toDigits 10 (warningRows fs)) := by
  have hfits := summaryParts_fits fs
  have hbefore : ∀ u v, unlines (listing fs) ++ ['✖', ' '] = u ++ v → v ≠ [] → ∀ before pos,
      summary.foundAt? ⟨before, pos, v ++ ((summaryParts fs).text ++ ['\n']), []⟩ = none := by
    intro u v huv hv before pos
    by_contra hsome
    obtain ⟨m, hm⟩ := Option.ne_none_iff_exists'.mp hsome
    obtain ⟨w, r, cs, hrest, hreads, -⟩ := exists_reads_of_foundAt hm
    obtain ⟨p, hp, rfl, -⟩ := reads_summary.mp hreads
    obtain ⟨d, t, ht, hd⟩ := hp.text_eq_cons
    dsimp only at hrest
    rcases List.append_eq_append_iff.mp huv with ⟨u', -, hv'⟩ | ⟨v', hlisting, rfl⟩
    · -- Nothing begins at the mark or at the blank after it.
      obtain ⟨c, v, rfl⟩ := List.exists_cons_of_ne_nil hv
      have hc : c ∈ ['✖', ' '] := by
        rw [hv']
        simp
      rw [ht] at hrest
      obtain ⟨rfl, -⟩ := List.cons.inj hrest
      simp only [List.mem_cons, List.not_mem_nil, or_false] at hc
      rcases hc with rfl | rfl <;> exact absurd hd (by decide)
    · obtain ⟨r', rfl⟩ : ∃ r', v' = p.text ++ r' := by
        refine hp.prefix_of_mark (t := ' ' :: ((summaryParts fs).text ++ ['\n'])) (r := r) ?_
        rw [← hrest]
        simp
      have hoccurs : summary.occursIn (u ++ (p.text ++ r')) = true := occursIn_append u (foundAt?_summary_isSome hp r')
      rw [← hlisting, hquiet] at hoccurs
      cases hoccurs
  obtain ⟨before, pos, hfind⟩ := find?_append_of_none hbefore
  obtain ⟨m, hm⟩ := Option.isSome_iff_exists.mp (foundAt?_summary_isSome hfits ['\n'] before pos)
  rw [rendered_eq, hfind, find?_go_of_foundAt hm]
  obtain ⟨w, r, cs, hrest, hreads, rfl⟩ := exists_reads_of_foundAt hm
  obtain ⟨p, hp, rfl, rfl⟩ := reads_summary.mp hreads
  obtain ⟨herrors, hwarnings⟩ := hp.eq_of_text hfits hrest.symm
  refine ⟨_, rfl, ?_, ?_⟩
  · simp [Found.group?, SummaryParts.captures, List.lookup, herrors, summaryParts]
  · simp [Found.group?, SummaryParts.captures, hwarnings, summaryParts]

end totals

/-! The whole report. -/

section whole

variable {fs : List FileReport} {stdout : String} {payload : Option Json}

theorem counts_of_other (hpayload : Json.payload? stdout.toList [] = .ok payload)
    (hother : payload.bind results? = none) : counts stdout "" = countOutput stdout "" := by
  have hempty : "".toList = [] := rfl
  rw [counts, hempty, hpayload]
  simp [Except.mapError, hother, bind, Except.bind]

theorem issues_of_other {table : SeverityTable} {exitCode : Int} (hpayload : Json.payload? stdout.toList [] = .ok payload)
    (hother : payload.bind results? = none) : issues table stdout "" exitCode = issuesOfText table stdout "" exitCode := by
  have hempty : "".toList = [] := rfl
  rw [issues, hempty, hpayload]
  cases payload with
  | none => rfl
  | some p =>
    have hnone : results? p = none := hother
    have hjson : jsonIssues table p = .error (.unparsable "lint" (.text "JSON does not look like per-file lint results")) := by
      rw [jsonIssues, hnone]
    simp [Except.mapError, hjson, bind, Except.bind]

theorem listing_line : ∀ l ∈ listing fs, ∀ c ∈ l, isLineBreak c = false := by
  intro l hl
  rcases List.mem_cons.mp hl with rfl | hl
  · nofun
  obtain ⟨f, -, hl⟩ := List.mem_flatMap.mp hl
  rw [FileReport.lines, List.cons_append] at hl
  rcases List.mem_cons.mp hl with rfl | hl
  · exact f.path_line
  rcases List.mem_append.mp hl with hl | hl
  · obtain ⟨r, -, rfl⟩ := List.mem_map.mp hl
    exact r.text_line
  · obtain rfl := List.mem_singleton.mp hl
    nofun

theorem line_of_all {t : List Char} (h : t.all (fun c => !isLineBreak c) = true) : ∀ c ∈ t, isLineBreak c = false := by
  simpa using h

theorem visible_of_all {t : List Char} (h : t.all (fun c => !isBlank c) = true) : ∀ c ∈ t, isBlank c = false := by
  simpa using h

theorem counted_line (n : Nat) {word : String} (h : word.toList.all (fun c => !isLineBreak c) = true) :
    ∀ c ∈ counted n word, isLineBreak c = false := by
  have hdigits : ∀ c ∈ Nat.toDigits 10 n, isLineBreak c = false := fun c hc =>
    (plain_of_isDecimal (areDigits_toDigits n).2 c hc).1
  rw [counted, List.forall_mem_append, List.forall_mem_append, List.forall_mem_cons]
  refine ⟨⟨hdigits, by decide, line_of_all h⟩, ?_⟩
  split <;> exact line_of_all (by decide)

theorem totals_line (fs : List FileReport) : ∀ c ∈ totals fs, isLineBreak c = false := by
  simp only [totals, List.forall_mem_append]
  exact ⟨⟨⟨⟨⟨counted_line _ (by decide), line_of_all (by decide)⟩, counted_line _ (by decide)⟩,
    line_of_all (by decide)⟩, counted_line _ (by decide)⟩, line_of_all (by decide)⟩

theorem stylishIssues_rendered {found : Row → Found} (table : SeverityTable)
    (hfound : ∀ r : Row, row.matchPrefix? r.text = some (found r)) (htext : stripEscapes stdout.toList = rendered fs) :
    stylishIssues table (stdout.toList ++ '\n' :: "".toList) =
      ((allRows fs).map fun x => (String.ofList (trim x.1), found x.2)).mapM fun x => rowIssue table x.1 x.2 := by
  have hline : ∀ l ∈ listing fs ++ ["✖ ".toList ++ totals fs], ∀ c ∈ l, isLineBreak c = false := by
    refine List.forall_mem_append.mpr ⟨listing_line, fun l hl => ?_⟩
    obtain rfl := List.mem_singleton.mp hl
    exact List.forall_mem_append.mpr ⟨line_of_all (by decide), totals_line fs⟩
  have hlines : splitLines (stripEscapes (stdout.toList ++ '\n' :: "".toList)) =
      listing fs ++ ["✖ ".toList ++ totals fs] ++ [[]] := combinedLines_unlines htext hline
  have hsummary : "✖ ".toList ++ totals fs = '✖' :: (' ' :: totals fs) := rfl
  rw [stylishIssues, hlines, List.foldl_append, List.foldl_append, listing, List.foldl_cons, hsummary, List.foldl_cons,
    stylishStep_summary]
  simp only [List.foldl_cons, List.foldl_nil, stylishStep_nil]
  rw [foldl_files hfound]
  simp

theorem issuesOfText_of_stylish {table : SeverityTable} {exitCode : Int} {o : Outcome (List Issue)}
    (h : stylishIssues table (stdout.toList ++ '\n' :: "".toList) = o) (hne : o ≠ .ok []) :
    issuesOfText table stdout "" exitCode = o := by
  cases o with
  | error e => exact Outcome.bind_of_error (Outcome.bind_of_error h)
  | ok found =>
    cases found with
    | nil => exact absurd rfl hne
    | cons i is =>
      have hfound : textIssues table stdout "" = .ok (i :: is) := Outcome.bind_of_ok h
      rw [issuesOfText, Outcome.bind_of_ok hfound]
      simp [requireSome]

/-- The report of a linter, in colour or without, that is not taken for results in another format: its rows are
read back in order, whatever the exit code, exactly where the paths have no blanks after them, the rules are
made of the characters of rules and the numbers can be read. Its totals are read back unless something before
them looks like totals. -/
theorem issues_rendered_iff (table : SeverityTable) (exitCode : Int) (hrows : allRows fs ≠ [])
    (htext : stripEscapes stdout.toList = rendered fs) (hpayload : Json.payload? stdout.toList [] = .ok payload)
    (hother : payload.bind results? = none) :
    (issues table stdout "" exitCode = .ok ((allRows fs).map fun x => x.2.issue table x.1) ↔
      ∀ x ∈ allRows fs, trim x.1 = x.1 ∧ (∀ c ∈ x.2.rule, isRuleChar c = true) ∧
        x.2.line < 10 ^ Numeral.mostDigits ∧ x.2.column < 10 ^ Numeral.mostDigits) ∧
      (summary.occursIn (unlines (listing fs)) = false →
        (counts stdout "" = .ok ⟨errorRows fs, warningRows fs, .summary⟩ ↔
          errorRows fs < 10 ^ Numeral.mostDigits ∧ warningRows fs < 10 ^ Numeral.mostDigits)) := by
  constructor
  · choose found hfound using Row.exists_found
    have hstylish := stylishIssues_rendered table hfound htext
    have hne : ((allRows fs).map fun x => (String.ofList (trim x.1), found x.2)).mapM (fun x => rowIssue table x.1 x.2) ≠
        .ok [] := by
      intro hnil
      have hlength := Outcome.length_of_mapM hnil
      rw [List.length_map, List.length_nil, eq_comm, List.length_eq_zero_iff] at hlength
      exact hrows hlength
    rw [issues_of_other hpayload hother, issuesOfText_of_stylish hstylish hne, Outcome.mapM_map_eq_ok_iff]
    exact forall₂_congr fun x _ => x.2.rowIssue_eq_iff table x.1 (hfound x.2)
  · intro hquiet
    obtain ⟨m, hm, herrors, hwarnings⟩ := find?_summary hquiet
    have hstdout : (stdout == "") = false := by
      rw [beq_eq_false_iff_ne]
      rintro rfl
      rw [stripEscapes_of_plain (by decide : '\x1b' ∉ "".toList), rendered_eq] at htext
      simp at htext
    have hcount : counts stdout "" = (do .ok ⟨← numberOf m "errors", ← numberOf m "warnings", .summary⟩) := by
      rw [counts_of_other hpayload hother, countOutput, hstdout]
      simp only [Bool.false_eq_true, if_false, htext, hm]
    rw [hcount, ← numberOf_toDigits_iff herrors, ← numberOf_toDigits_iff hwarnings]
    constructor
    · intro h
      obtain ⟨e, he, h⟩ := Outcome.bind_eq_ok h
      obtain ⟨w, hw, h⟩ := Outcome.bind_eq_ok h
      obtain ⟨rfl, rfl, -⟩ := Counts.mk.inj (Except.ok.inj h)
      exact ⟨he, hw⟩
    · rintro ⟨he, hw⟩
      rw [Outcome.bind_of_ok he, Outcome.bind_of_ok hw]

end whole

/-! Messages with brackets in them. -/

/-- A report of one error with a message. -/
def reportOf (message : List Char) (hne : message ≠ []) (htrim : trim message = message)
    (hline : message.all (fun c => !isLineBreak c) = true) : List FileReport :=
  [{ path := "/a.js".toList
     rows := [{ indentation := 2, line := 1, column := 2, beforeLevel := 2, isError := true, beforeMessage := 2, message,
                beforeRule := 2, rule := "no-restricted-syntax".toList, indented := by decide
                level_apart := by decide, message_apart := by decide, rule_apart := by decide, message_ne_nil := hne
                message_trim := htrim, message_line := line_of_all hline, rule_ne_nil := by decide
                rule_visible := visible_of_all (by decide) }]
     path_start := ⟨'/', rfl, by decide⟩
     path_line := line_of_all (by decide) }]

/-- The braces hold a value that is no list of results. -/
def emptyObject : List FileReport :=
  reportOf "Unexpected empty object \x7b\x7d".toList (by decide) (by decide) (by decide)

theorem issues_emptyObject :
    issues {} (String.ofList (rendered emptyObject)) "" 1 = .ok ((allRows emptyObject).map fun x => x.2.issue {} x.1) ∧
      counts (String.ofList (rendered emptyObject)) "" = .ok ⟨1, 0, .summary⟩ := by
  have htext : stripEscapes (String.ofList (rendered emptyObject)).toList = rendered emptyObject := by
    rw [String.toList_ofList]
    exact stripEscapes_of_plain (by decide)
  have hpayload : Json.payload? (String.ofList (rendered emptyObject)).toList [] = .ok (some (.obj [])) := by
    rw [String.toList_ofList]
    cbv
  obtain ⟨hissues, hcounts⟩ := issues_rendered_iff {} 1 (by decide) htext hpayload rfl
  have hsmall {n : Nat} (hn : n < 10 ^ 1) : n < 10 ^ Numeral.mostDigits :=
    lt_of_lt_of_le hn (Nat.pow_le_pow_right (by decide) (by decide))
  refine ⟨hissues.mpr fun x hx => ?_, (hcounts (by decide)).mpr ⟨hsmall (by decide), hsmall (by decide)⟩⟩
  obtain rfl := List.mem_singleton.mp hx
  have hrule : "no-restricted-syntax".toList.all isRuleChar = true := by decide
  exact ⟨by decide, List.all_eq_true.mp hrule, hsmall (by decide), hsmall (by decide)⟩

/-- The brackets hold no results, which are taken for those of the whole report. -/
def emptyArray : List FileReport := reportOf "Unexpected empty array []".toList (by decide) (by decide) (by decide)

theorem issues_emptyArray :
    errorRows emptyArray = 1 ∧ issues {} (String.ofList (rendered emptyArray)) "" 0 = .ok [] ∧
      counts (String.ofList (rendered emptyArray)) "" = .ok ⟨0, 0, .json⟩ := by
  have hpayload : Json.payload? (String.ofList (rendered emptyArray)).toList "".toList = .ok (some (.arr [])) := by
    rw [String.toList_ofList]
    cbv
  refine ⟨by decide, ?_, ?_⟩
  · rw [issues, hpayload]
    rfl
  · rw [counts, hpayload]
    rfl

end QualityGate.Output.Lint
