import Mathlib
import QualityGate.Proofs.Output.Blocks
import QualityGate.Proofs.Output.Printed

/-! Diagnostics of a type checker, as they are printed and as they are read. What
the reader makes of a line is one of its patterns' readings, and a line that was
printed has no reading but the one it was printed from, up to blanks. A path
with an opening parenthesis in it is where this fails. -/

namespace QualityGate.Output.TypeCheck

open Text Text.Pattern

/-! What the patterns read. -/

/-- The parts of a line that says where something is wrong and what. -/
structure Parts where
  file : List Char
  line : List Char
  column : List Char
  beforeSeverity : List Char
  severity : String
  beforeCode : List Char
  digits : List Char
  beforeMessage : List Char
  message : List Char

namespace Parts

def text (p : Parts) : List Char :=
  p.file ++ '(' :: (p.line ++ ',' :: (p.column ++ ')' :: ':' :: (p.beforeSeverity ++ (p.severity.toList ++
    (p.beforeCode ++ 'T' :: 'S' :: (p.digits ++ ':' :: (p.beforeMessage ++ p.message)))))))

def captures (p : Parts) : List (String × List Char) :=
  [("message", p.message), ("code", 'T' :: 'S' :: p.digits), ("severity", p.severity.toList), ("col", p.column),
    ("line", p.line), ("file", p.file)]

/-- What follows the path is as the pattern wants it. -/
structure Fits (p : Parts) : Prop where
  line : AreDigits p.line
  column : AreDigits p.column
  beforeSeverity : ∀ c ∈ p.beforeSeverity, isBlank c = true
  severity : p.severity ∈ ["error", "warning", "message"]
  beforeCode_ne_nil : p.beforeCode ≠ []
  beforeCode : ∀ c ∈ p.beforeCode, isBlank c = true
  digits : AreDigits p.digits
  beforeMessage : ∀ c ∈ p.beforeMessage, isBlank c = true
  message : ∀ c ∈ p.message, anyChar c = true

def HasPath (p : Parts) : Prop :=
  ∃ c f, p.file = c :: f ∧ isNotBlank c = true ∧ ∀ c ∈ f, (c != '(' && c != '\n') = true

variable {p q : Parts}

theorem Fits.severity_eq_cons (h : p.Fits) :
    ∃ c u, p.severity.toList = c :: u ∧ isBlank c = false ∧ ∀ c ∈ u, isNotBlank c = true := by
  have hword : ∀ t ∈ ["error", "warning", "message"],
      t.toList ≠ [] ∧ t.toList.all isNotBlank = true := by decide
  obtain ⟨hne, hall⟩ := hword _ h.severity
  obtain ⟨c, u, hcu⟩ := List.exists_cons_of_ne_nil hne
  rw [hcu, List.all_eq_true, List.forall_mem_cons] at hall
  exact ⟨c, u, hcu, by simpa [isNotBlank] using hall.1, hall.2⟩

theorem Fits.beforeCode_eq_cons (h : p.Fits) :
    ∃ b t, p.beforeCode = b :: t ∧ isNotBlank b = false ∧ ∀ c ∈ t, isBlank c = true := by
  obtain ⟨b, t, hbt⟩ := List.exists_cons_of_ne_nil h.beforeCode_ne_nil
  have hall := h.beforeCode
  rw [hbt, List.forall_mem_cons] at hall
  exact ⟨b, t, hbt, by simp [isNotBlank, hall.1], hall.2⟩

/-- With the path, all parts are settled but for the blanks before the message. -/
theorem Fits.eq_of_text (hp : p.Fits) (hq : q.Fits) (hfile : p.file = q.file) (h : p.text = q.text) :
    p.line = q.line ∧ p.column = q.column ∧ p.severity = q.severity ∧ p.digits = q.digits ∧
      p.beforeMessage ++ p.message = q.beforeMessage ++ q.message := by
  obtain ⟨c, u, hsev, hc, hu⟩ := hp.severity_eq_cons
  obtain ⟨c', u', hsev', hc', hu'⟩ := hq.severity_eq_cons
  obtain ⟨b, t, hcode, hb, ht⟩ := hp.beforeCode_eq_cons
  obtain ⟨b', t', hcode', hb', ht'⟩ := hq.beforeCode_eq_cons
  rw [text, text, hfile, hsev, hsev', hcode, hcode'] at h
  obtain ⟨hline, -, hafterLine⟩ := run_inj hp.line.2 hq.line.2 (by decide) (by decide)
    (List.cons.inj (List.append_cancel_left h)).2
  obtain ⟨hcolumn, -, hafterColumn⟩ := run_inj hp.column.2 hq.column.2 (by decide) (by decide) hafterLine
  obtain ⟨-, hfirst, hword⟩ := run_inj hp.beforeSeverity hq.beforeSeverity hc hc' (List.cons.inj hafterColumn).2
  obtain ⟨hrest, -, hafterWord⟩ := run_inj hu hu' hb hb' hword
  obtain ⟨-, -, hletters⟩ := run_inj (x := 'T') (y := 'T') ht ht' (by decide) (by decide) hafterWord
  obtain ⟨hdigits, -, hmessage⟩ := run_inj hp.digits.2 hq.digits.2 (by decide) (by decide) (List.cons.inj hletters).2
  have hseverity : p.severity.toList = q.severity.toList := by rw [hsev, hsev', hfirst, hrest]
  exact ⟨hline, hcolumn, String.toList_injective hseverity, hdigits, hmessage⟩

/-- A path ends at the first parenthesis. -/
theorem HasPath.file_eq (hp : p.HasPath) (hq : q.HasPath) (h : p.text = q.text) : p.file = q.file := by
  obtain ⟨c, f, hpfile, -, hf⟩ := hp
  obtain ⟨c', f', hqfile, -, hf'⟩ := hq
  rw [text, text, hpfile, hqfile] at h
  obtain ⟨hfirst, hrest⟩ := List.cons.inj h
  obtain ⟨hsecond, -, -⟩ := run_inj hf hf' (by decide) (by decide) hrest
  rw [hpfile, hqfile, hfirst, hsecond]

theorem groups {m : Found} (h : m.captures = p.captures) :
    m.group? "file" = some p.file ∧ m.group? "line" = some p.line ∧ m.group? "col" = some p.column ∧
      m.group? "severity" = some p.severity.toList ∧ m.group? "code" = some ('T' :: 'S' :: p.digits) ∧
      m.group? "message" = some p.message := by
  simp [Found.group?, h, captures, List.lookup]

end Parts

variable {s : Cursor} {w r : List Char} {cs : List (String × List Char)}

theorem reads_parenPosition :
    parenPosition.Reads s w r cs ↔
      ∃ p : Parts, p.Fits ∧ p.HasPath ∧ w = p.text ∧ cs = p.captures ∧ (r = [] ∨ r = ['\n']) := by
  have hsign : "):".toList = [')', ':'] := rfl
  have hcode : "TS".toList = ['T', 'S'] := rfl
  simp only [parenPosition, position, diagnostic, List.cons_append, List.nil_append, List.append_nil, reads_ofList_cons,
    reads_ofList_nil, reads_char, reads_word, reads_words, reads_blanks, reads_digits, reads_capture, reads_one,
    reads_many, reads_fewest, reads_atEnd, hsign, hcode, ↓existsAndEq, and_assoc, true_and, and_true]
  constructor
  · rintro ⟨line, column, gap, gap', gap'', message, digits, severity, f, c, rfl, rfl, hc, -, hf, hline, hcolumn, -, hgap,
      hseverity, hne, hgap', hdigits, -, hgap'', -, hmessage, hr⟩
    refine ⟨⟨c :: f, line, column, gap, severity, gap', digits, gap'', message⟩, ?_, ⟨c, f, rfl, hc, hf⟩, rfl, rfl, hr⟩
    exact ⟨hline, hcolumn, hgap, hseverity, List.ne_nil_of_length_pos hne, hgap', hdigits, hgap'', hmessage⟩
  · rintro ⟨⟨_, line, column, gap, severity, gap', digits, gap'', message⟩, h, ⟨c, f, rfl, hc, hf⟩, rfl, rfl, hr⟩
    exact ⟨line, column, gap, gap', gap'', message, digits, severity, f, c, rfl, rfl, hc, Nat.zero_le _, hf, h.line,
      h.column, Nat.zero_le _, h.beforeSeverity, h.severity, List.length_pos_iff.mpr h.beforeCode_ne_nil, h.beforeCode,
      h.digits, Nat.zero_le _, h.beforeMessage, Nat.zero_le _, h.message, hr⟩

/-- The other pattern with a path ends it at a colon. -/
theorem reads_colonPosition (h : colonPosition.Reads s w r cs) :
    ∃ c f rest, w = c :: f ++ ':' :: rest ∧ cs.lookup "file" = some (c :: f) ∧ isNotBlank c = true := by
  simp only [colonPosition, position, diagnostic, List.cons_append, List.nil_append, List.append_nil, reads_ofList_cons,
    reads_ofList_nil, reads_char, reads_word, reads_words, reads_blanks, reads_digits, reads_capture, reads_one,
    reads_many, reads_fewest, reads_atEnd, ↓existsAndEq, and_assoc, true_and, and_true] at h
  obtain ⟨line, column, -, -, -, -, -, -, -, f, c, rfl, rfl, hc, -⟩ := h
  exact ⟨c, f, _, rfl, by simp [List.lookup], hc⟩

theorem reads_noPosition (h : noPosition.Reads s w r cs) : cs.lookup "file" = none := by
  simp only [noPosition, diagnostic, List.append_nil, List.nil_append, reads_ofList_cons, reads_ofList_nil, reads_char,
    reads_word, reads_words, reads_blanks, reads_digits, reads_capture, reads_many, reads_atEnd, ↓existsAndEq, and_assoc,
    true_and, and_true] at h
  obtain ⟨-, -, -, -, -, -, -, rfl, -⟩ := h
  simp [List.lookup]

/-! Diagnostics. -/

/-- A line that goes on with a message: indented, not blank, and nothing that is taken for a diagnostic. -/
structure IsDetail (l : List Char) : Prop where
  plain : Plain l
  indented : ∃ c ∈ l.head?, c = ' ' ∨ c = '\t'
  visible : ∃ c ∈ l, isBlank c = false
  unmatched : ∀ p ∈ patterns, p.matchPrefix? l = none

theorem IsDetail.isContinuation {l : List Char} (h : IsDetail l) : isContinuation l = true :=
  isContinuation_iff.mpr ⟨h.indented, h.visible⟩

/-- What a type checker has to say at one place. -/
structure Diagnostic where
  file : List Char
  line : Nat
  column : Nat
  severity : String
  digits : List Char
  message : List Char
  continuation : List (List Char)
  file_ne_nil : file ≠ []
  file_trim : trim file = file
  file_plain : Plain file
  severity_mem : severity ∈ ["error", "warning"]
  areDigits : AreDigits digits
  message_trim : trim message = message
  message_plain : Plain message
  details : ∀ l ∈ continuation, IsDetail l

namespace Diagnostic

def heading (d : Diagnostic) : List Char :=
  d.file ++ "(".toList ++ Nat.toDigits 10 d.line ++ ",".toList ++ Nat.toDigits 10 d.column ++ "): ".toList ++
    d.severity.toList ++ " TS".toList ++ d.digits ++ ": ".toList ++ d.message

def lines (d : Diagnostic) : List (List Char) := d.heading :: d.continuation

/-- Diagnostics as they are printed, one after the other. -/
def printed (ds : List Diagnostic) : String := String.ofList (unlines (ds.flatMap lines))

def code (d : Diagnostic) : String := String.ofList ('T' :: 'S' :: d.digits)

def issue (table : SeverityTable) (d : Diagnostic) : Issue where
  file := String.ofList d.file
  line := d.line
  column := d.column
  source := .typeCheck
  severity := table.forTypeCheck d.severity
  message := "\n".intercalate (String.ofList d.message :: d.continuation.map fun l => String.ofList (trim l))
  suggestedFix := suggestFix d.code
  code := some d.code

def parts (d : Diagnostic) : Parts :=
  ⟨d.file, Nat.toDigits 10 d.line, Nat.toDigits 10 d.column, [' '], d.severity, [' '], d.digits, [' '], d.message⟩

variable {d : Diagnostic} {m : Found}

theorem heading_eq (d : Diagnostic) : d.heading = d.parts.text := by
  simp [heading, parts, Parts.text]

theorem parts_fits (d : Diagnostic) : d.parts.Fits where
  line := areDigits_toDigits d.line
  column := areDigits_toDigits d.column
  beforeSeverity := by simp [parts]; decide
  severity := List.mem_append_left ["message"] d.severity_mem
  beforeCode_ne_nil := by simp [parts]
  beforeCode := by simp [parts]; decide
  digits := d.areDigits
  beforeMessage := by simp [parts]; decide
  message := anyChar_of_newline_notMem d.message_plain.newline_notMem

theorem heading_plain (d : Diagnostic) : Plain d.heading := by
  have hword : ∀ t ∈ ["(", ",", "): ", " TS", ": ", "error", "warning"], Plain t.toList := by decide
  have hseverity : Plain d.severity.toList :=
    hword _ (List.mem_append_right ["(", ",", "): ", " TS", ": "] d.severity_mem)
  have hnumber (n : Nat) : Plain (Nat.toDigits 10 n) := plain_of_isDecimal (areDigits_toDigits n).2
  exact (((((((((d.file_plain.append (hword _ (by simp))).append (hnumber _)).append (hword _ (by simp))).append
    (hnumber _)).append (hword _ (by simp))).append hseverity).append (hword _ (by simp))).append
    (plain_of_isDecimal d.areDigits.2)).append (hword _ (by simp))).append d.message_plain

theorem lines_plain {ds : List Diagnostic} : ∀ l ∈ ds.flatMap lines, Plain l := by
  intro l hl
  obtain ⟨d, -, hl⟩ := List.mem_flatMap.mp hl
  rcases List.mem_cons.mp hl with rfl | hl
  · exact d.heading_plain
  · exact (d.details l hl).plain

theorem file_eq_cons (d : Diagnostic) : ∃ c f, d.file = c :: f ∧ isNotBlank c = true := by
  obtain ⟨c, f, hcf, hc⟩ := exists_cons_of_trim d.file_ne_nil d.file_trim
  exact ⟨c, f, hcf, by simp [isNotBlank, hc]⟩

theorem hasPath (d : Diagnostic) (hd : '(' ∉ d.file.tail) : d.parts.HasPath := by
  obtain ⟨c, f, hf, hc⟩ := d.file_eq_cons
  refine ⟨c, f, hf, hc, fun x hx => ?_⟩
  rw [hf, List.tail_cons] at hd
  have hplain : '\n' ∉ f := fun h => d.file_plain.newline_notMem (by rw [hf]; exact List.mem_cons_of_mem c h)
  rw [Bool.and_eq_true_iff, bne_iff_ne, bne_iff_ne]
  exact ⟨fun h => hd (h ▸ hx), fun h => hplain (h ▸ hx)⟩

structure Recovered (d : Diagnostic) (m : Found) : Prop where
  file : trim ((m.group? "file").getD []) = d.file
  line : m.group? "line" = some (Nat.toDigits 10 d.line)
  column : m.group? "col" = some (Nat.toDigits 10 d.column)
  severity : m.text "severity" = d.severity
  code : m.text? "code" = some d.code
  message : trim ((m.group? "message").getD []) = d.message

/-- All of the heading is read, as it is one line. -/
theorem exists_reads_of_heading {p : Pattern} (hm : p.matchPrefix? d.heading = some m) :
    ∃ w r, d.heading = w ++ r ∧ p.Reads (.start d.heading) w r m.captures := by
  obtain ⟨w, r, cs, hrest, hreads, rfl⟩ := exists_reads_of_foundAt hm
  rw [Cursor.start, List.append_nil]
  exact ⟨w, r, hrest, hreads⟩

/-- A path that is right but for blanks is right. -/
theorem file_of_trim {c y : Char} {f r : List Char} (hc : isNotBlank c = true) (hy : isBlank y = false)
    (htrim : trim (c :: f) = d.file) (h : d.heading = c :: f ++ y :: r) : c :: f = d.file ∧ y = '(' := by
  have hdrop : dropBlanks (c :: f) = c :: f := by
    refine dropBlanks_eq_self_iff.mpr fun x hx => ?_
    obtain rfl := Option.some.inj hx
    simpa [isNotBlank] using hc
  rw [trim, hdrop] at htrim
  obtain ⟨blank, hsplit, hblank⟩ := exists_trimRight_append (c :: f)
  rw [htrim] at hsplit
  rw [heading_eq, Parts.text, hsplit, List.append_assoc] at h
  obtain ⟨hnil, hparen, -⟩ := run_inj (u := []) (v := blank) (List.forall_mem_nil _) hblank (by decide) hy
    (List.append_cancel_left h)
  rw [← hnil, List.append_nil] at hsplit
  exact ⟨hsplit, hparen.symm⟩

theorem recovered_of_paren (hm : parenPosition.matchPrefix? d.heading = some m)
    (hfile : '(' ∉ d.file.tail ∨ trim ((m.group? "file").getD []) = d.file) :
    '(' ∉ d.file.tail ∧ d.Recovered m := by
  obtain ⟨w, r, hheading, hreads⟩ := exists_reads_of_heading hm
  obtain ⟨p, hfits, hpath, rfl, hcaptures, hr⟩ := reads_parenPosition.mp hreads
  have ⟨c, f, hp, hc, hf⟩ := hpath
  have hnil : r = [] := eq_nil_of_atEnd d.heading_plain.newline_notMem hheading hr
  rw [hnil, List.append_nil] at hheading
  obtain ⟨hgfile, hgline, hgcolumn, hgseverity, hgcode, hgmessage⟩ := Parts.groups hcaptures
  have hopen : ∀ c ∈ f, (c != '(') = true := fun c hc => (Bool.and_eq_true_iff.mp (hf c hc)).1
  have hsame : p.file = d.file := by
    rcases hfile with hno | htrim
    · exact hpath.file_eq (d.hasPath hno) (hheading.symm.trans d.heading_eq)
    · rw [hgfile, Option.getD_some, hp] at htrim
      rw [Parts.text, hp] at hheading
      exact hp.trans (file_of_trim hc (by decide) htrim hheading).1
  obtain ⟨hline, hcolumn, hseverity, hdigits, hmessage⟩ :=
    hfits.eq_of_text d.parts_fits hsame (hheading.symm.trans d.heading_eq)
  have htrimmed : trim p.message = d.message := by
    rw [← trim_append_left hfits.beforeMessage, hmessage, trim_append_left d.parts_fits.beforeMessage]
    exact d.message_trim
  refine ⟨?_, ?_⟩
  · rw [← hsame, hp]
    exact fun h => absurd (hopen _ h) (by decide)
  · exact
      { file := by rw [hgfile, Option.getD_some, hsame, d.file_trim]
        line := hgline.trans (congrArg some hline)
        column := hgcolumn.trans (congrArg some hcolumn)
        severity := by simp [Found.text, Found.text?, hgseverity, hseverity, parts]
        code := by simp [Found.text?, hgcode, hdigits, parts, Diagnostic.code]
        message := by rw [hgmessage, Option.getD_some, htrimmed] }

/-- No other pattern finds the path. -/
theorem paren_of_file {p : Pattern} (hp : p ∈ patterns) (hm : p.matchPrefix? d.heading = some m)
    (hfile : trim ((m.group? "file").getD []) = d.file) : p = parenPosition := by
  obtain ⟨w, r, hheading, hreads⟩ := exists_reads_of_heading hm
  simp only [patterns, List.mem_cons, List.not_mem_nil, or_false] at hp
  rcases hp with rfl | rfl | rfl
  · rfl
  · obtain ⟨c, f, rest, rfl, hgroup, hc⟩ := reads_colonPosition hreads
    rw [Found.group?, hgroup, Option.getD_some] at hfile
    rw [List.append_assoc] at hheading
    exact absurd (file_of_trim hc (by decide) hfile hheading).2 (by decide)
  · rw [Found.group?, reads_noPosition hreads] at hfile
    exact absurd hfile.symm d.file_ne_nil

theorem exists_found (hd : '(' ∉ d.file.tail) : ∃ m, parenPosition.matchPrefix? d.heading = some m := by
  rw [← Option.isSome_iff_exists, Pattern.matchPrefix?, foundAt?_isSome_iff]
  exact ⟨d.heading, [], d.parts.captures, (List.append_nil _).symm,
    reads_parenPosition.mpr ⟨d.parts, d.parts_fits, d.hasPath hd, d.heading_eq, rfl, .inl rfl⟩⟩

/-! Issues. -/

variable {table : SeverityTable}

theorem toIssue_eq_ok {continuation : List (List Char)} {i : Issue} (h : toIssue table m continuation = .ok i) :
    ∃ line column, numberOf m "line" = .ok line ∧ numberOf m "col" = .ok column ∧
      i.file = trimmed m "file" ∧ i.line = line ∧ i.column = column := by
  obtain ⟨line, hline, h⟩ := Outcome.bind_eq_ok h
  obtain ⟨column, hcolumn, h⟩ := Outcome.bind_eq_ok h
  obtain rfl := Except.ok.inj h
  exact ⟨line, column, hline, hcolumn, rfl, rfl, rfl⟩

theorem Recovered.toIssue_eq_iff (h : d.Recovered m) (table : SeverityTable) :
    toIssue table m (d.continuation.map trim) = .ok (d.issue table) ↔
      d.line < 10 ^ Numeral.mostDigits ∧ d.column < 10 ^ Numeral.mostDigits := by
  rw [← numberOf_toDigits_iff h.line, ← numberOf_toDigits_iff h.column]
  constructor
  · intro hissue
    obtain ⟨line, column, hline, hcolumn, -, hl, hc⟩ := toIssue_eq_ok hissue
    exact ⟨hline.trans (congrArg _ hl.symm), hcolumn.trans (congrArg _ hc.symm)⟩
  · rintro ⟨hline, hcolumn⟩
    rw [toIssue, Outcome.bind_of_ok hline, Outcome.bind_of_ok hcolumn]
    have hcode : m.text "code" = d.code := by rw [Found.text, h.code, Option.getD_some]
    simp [issue, trimmed, h.file, h.message, h.severity, h.code, hcode, Function.comp_def]

/-! All diagnostics. -/

/-- The lines that are read of printed diagnostics. -/
def readLines (ds : List Diagnostic) : List (List Char) := ds.flatMap lines ++ [[]]

theorem readLines_cons (d : Diagnostic) (ds : List Diagnostic) :
    readLines (d :: ds) = d.heading :: (d.continuation ++ readLines ds) := by
  rw [readLines, List.flatMap_cons, List.append_assoc]
  rfl

theorem mem_readLines {ds : List Diagnostic} {l : List Char} (h : l ∈ readLines ds) :
    (∃ d ∈ ds, l = d.heading ∨ l ∈ d.continuation) ∨ l = [] := by
  rcases List.mem_append.mp h with h | h
  · obtain ⟨d, hd, hl⟩ := List.mem_flatMap.mp h
    exact .inl ⟨d, hd, List.mem_cons.mp hl⟩
  · exact .inr (List.mem_singleton.mp h)

variable {ds : List Diagnostic} {f : List Char → Option Found}

theorem gather_readLines {found : Diagnostic → Found} (hnil : f [] = none)
    (hds : ∀ d ∈ ds, f d.heading = some (found d) ∧ ∀ l ∈ d.continuation, f l = none) :
    gather ((readLines ds).map fun l => (l, f l)) = ds.map fun d => (found d, d.continuation.map trim) := by
  suffices hall : ((readLines ds).map fun l => (l, f l)).foldr collect ([], []) =
      ([], ds.map fun d => (found d, d.continuation.map trim)) from congrArg Prod.snd hall
  induction ds with
  | nil => simp [readLines, collect, hnil, isContinuation]
  | cons d ds ih =>
    obtain ⟨⟨hfound, hnone⟩, hds⟩ := List.forall_mem_cons.mp hds
    have hcontinue : ∀ l ∈ d.continuation, isContinuation l = true ∧ f l = none := by
      intro l hl
      exact ⟨(d.details l hl).isContinuation, hnone l hl⟩
    rw [readLines_cons, List.map_cons, List.foldr_cons, List.map_append, List.foldr_append, ih hds,
      foldr_collect_continuation hcontinue]
    simp [collect, hfound]

theorem filterMap_readLines (hnil : f [] = none) (hds : ∀ d ∈ ds, ∀ l ∈ d.continuation, f l = none) :
    (readLines ds).filterMap f = ds.filterMap fun d => f d.heading := by
  induction ds with
  | nil => simp [readLines, hnil]
  | cons d ds ih =>
    obtain ⟨hd, hds⟩ := List.forall_mem_cons.mp hds
    have hnone : d.continuation.filterMap f = [] := List.filterMap_eq_nil_iff.mpr hd
    rw [readLines_cons]
    cases h : f d.heading <;> simp [h, hnone, ih hds]

end Diagnostic

open Diagnostic

theorem combinedLines_printed (ds : List Diagnostic) : combinedLines (printed ds) "" = readLines ds := by
  refine combinedLines_unlines ?_ fun l hl c hc => (lines_plain l hl c hc).1
  rw [printed, String.toList_ofList, stripEscapes_unlines lines_plain]

theorem matchPrefix?_nil : ∀ p ∈ patterns, p.matchPrefix? [] = none := by
  simp only [patterns, List.forall_mem_cons]
  exact ⟨rfl, rfl, rfl, nofun⟩

theorem issues_printed_eq {f : List Char → Option Found} {ds : List Diagnostic} (table : SeverityTable)
    (h : bestMatches patterns (readLines ds) = (readLines ds).map f) :
    issues table (printed ds) "" =
      (gather ((readLines ds).map fun l => (l, f l))).mapM fun g => toIssue table g.1 g.2 := by
  rw [← combinedLines_printed] at h ⊢
  exact issues_eq table h

variable {ds : List Diagnostic}

theorem not_matched_of_isDetail {f : List Char → Option Found} (hf : (f = fun _ => none) ∨ ∃ p ∈ patterns, f = p.matchPrefix?)
    {d : Diagnostic} : ∀ l ∈ d.continuation, f l = none := by
  intro l hl
  rcases hf with rfl | ⟨p, hp, rfl⟩
  · rfl
  · exact (d.details l hl).unmatched p hp

theorem exists_found_of_mapM {f : List Char → Option Found} {table : SeverityTable} {is : List Issue} (hnil : f [] = none)
    (hnone : ∀ d ∈ ds, ∀ l ∈ d.continuation, f l = none)
    (h : (gather ((readLines ds).map fun l => (l, f l))).mapM (fun g => toIssue table g.1 g.2) = .ok is)
    (hlength : is.length = ds.length) : ∀ d ∈ ds, ∃ m, f d.heading = some m := by
  have hgathered := Outcome.length_of_mapM h
  rw [hlength, ← List.length_map Prod.fst, gather_map_fst, List.filterMap_map] at hgathered
  have hsome : ∀ d ∈ ds, (f d.heading).isSome = true := by
    rw [← List.filterMap_length_eq_length, ← filterMap_readLines hnil hnone]
    exact hgathered.symm
  exact fun d hd => Option.isSome_iff_exists.mp (hsome d hd)

theorem bestMatches_readLines (hfound : ∀ d ∈ ds, ∃ m, parenPosition.matchPrefix? d.heading = some m) :
    bestMatches patterns (readLines ds) = (readLines ds).map parenPosition.matchPrefix? := by
  refine bestMatches_eq_first fun q hq l hl hsome => ?_
  have hq : q ∈ patterns := List.mem_cons_of_mem parenPosition hq
  obtain ⟨d, hd, rfl | hl⟩ | rfl := mem_readLines hl
  · exact Option.isSome_iff_exists.mpr (hfound d hd)
  · rw [(d.details l hl).unmatched q hq] at hsome
    cases hsome
  · rw [matchPrefix?_nil q hq] at hsome
    cases hsome

/-- Printed diagnostics are read back, each as one issue and in order, exactly where no path has an opening
parenthesis after its first character and no number has more digits than can be read. -/
theorem issues_printed_iff (table : SeverityTable) (ds : List Diagnostic) :
    issues table (printed ds) "" = .ok (ds.map (issue table)) ↔
      ∀ d ∈ ds, '(' ∉ d.file.tail ∧ d.line < 10 ^ Numeral.mostDigits ∧ d.column < 10 ^ Numeral.mostDigits := by
  constructor
  · intro h
    obtain ⟨f, hbest, hf⟩ := bestMatches_eq_map patterns (readLines ds)
    rw [issues_printed_eq table hbest] at h
    have hnil : f [] = none := by
      rcases hf with rfl | ⟨p, hp, rfl⟩
      · rfl
      · exact matchPrefix?_nil p hp
    have hnone : ∀ d ∈ ds, ∀ l ∈ d.continuation, f l = none := fun d _ => not_matched_of_isDetail hf
    -- There are as many issues as diagnostics, so that every heading was matched.
    have hfound := exists_found_of_mapM hnil hnone h (List.length_map _)
    have : Nonempty Found := ⟨⟨0, 0, []⟩⟩
    choose! found hfound using hfound
    rw [gather_readLines hnil fun d hd => ⟨hfound d hd, hnone d hd⟩, Outcome.mapM_map_eq_ok_iff] at h
    intro d hd
    have hissue := h d hd
    obtain ⟨line, column, -, -, hfile, -, -⟩ := toIssue_eq_ok hissue
    have htrim : trim (((found d).group? "file").getD []) = d.file := (String.ofList_injective hfile).symm
    have hmatched := hfound d hd
    rcases hf with rfl | ⟨p, hp, rfl⟩
    · cases hmatched
    · -- The path of the issue tells which pattern won.
      obtain rfl := paren_of_file hp hmatched htrim
      obtain ⟨hopen, hrecovered⟩ := recovered_of_paren hmatched (.inr htrim)
      exact ⟨hopen, (hrecovered.toIssue_eq_iff table).mp hissue⟩
  · intro hds
    have hfound : ∀ d ∈ ds, ∃ m, parenPosition.matchPrefix? d.heading = some m := fun d hd => exists_found (hds d hd).1
    rw [issues_printed_eq table (bestMatches_readLines hfound)]
    have : Nonempty Found := ⟨⟨0, 0, []⟩⟩
    choose! found hfound using hfound
    have hparen : parenPosition ∈ patterns := List.mem_cons_self
    have hnone (d : Diagnostic) : ∀ l ∈ d.continuation, parenPosition.matchPrefix? l = none := fun l hl =>
      (d.details l hl).unmatched _ hparen
    rw [gather_readLines (matchPrefix?_nil _ hparen) fun d hd => ⟨hfound d hd, hnone d⟩, Outcome.mapM_map_eq_ok_iff]
    intro d hd
    obtain ⟨hopen, hbounds⟩ := hds d hd
    exact ((recovered_of_paren (hfound d hd) (.inl hopen)).2.toIssue_eq_iff table).mpr hbounds

/-- A diagnostic of a page that is grouped by a directory in parentheses. -/
def groupedPage : Diagnostic where
  file := "app/(auth)/page.tsx".toList
  line := 3
  column := 5
  severity := "error"
  digits := "2322".toList
  message := "Type 'A' is not assignable to type 'B'.".toList
  continuation := ["  Property 'x' is missing in type 'A'.".toList]
  file_ne_nil := by decide
  file_trim := by decide
  file_plain := by decide
  severity_mem := by decide
  areDigits := by decide
  message_trim := by decide
  message_plain := by decide
  details := by
    intro l hl
    obtain rfl := List.mem_singleton.mp hl
    refine ⟨by decide, ⟨' ', rfl, .inl rfl⟩, ⟨'P', by decide, by decide⟩, ?_⟩
    simp only [patterns, List.forall_mem_cons]
    exact ⟨rfl, rfl, rfl, nofun⟩

/-- Nothing is read of it. -/
theorem issues_groupedPage :
    printed [groupedPage] =
        "app/(auth)/page.tsx(3,5): error TS2322: Type 'A' is not assignable to type 'B'.\n" ++
          "  Property 'x' is missing in type 'A'.\n" ∧
      issues {} (printed [groupedPage]) "" = .ok [] := by
  have hgather : gather ((readLines [groupedPage]).zip (bestMatches patterns (readLines [groupedPage]))) = [] := by
    rw [← List.isEmpty_iff]
    decide +kernel
  refine ⟨by decide +kernel, ?_⟩
  simp only [issues, combinedLines_printed, hgather]
  rfl

end QualityGate.Output.TypeCheck
