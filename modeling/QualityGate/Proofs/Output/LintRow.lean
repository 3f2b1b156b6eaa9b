import Mathlib
import QualityGate.Output.Lint
import QualityGate.Proofs.Output.Printed

/-! One row of a linter's report, as it is printed and as it is read. The message is
the shortest that leaves a rule behind it: it does not end within the message
that was printed, and does not go on into the rule. -/

namespace QualityGate.Output.Lint

open Text Text.Pattern

/-! The pattern in three parts. -/

def isRuleChar (c : Char) : Bool := isWordChar c || ['@', '.', '/', '-'].contains c

/-- All before the message. -/
def front : List Pattern :=
  [blanks 1, capture "line" digits, char ':', capture "col" digits, blanks 1,
    capture "level" (words ["error", "warning"]), blanks 1]

/-- All after the message. -/
def ending : List Pattern :=
  [Pattern.optional (ofList [blanks 2, capture "rule" (many isRuleChar 1)]), blanks 0, atEnd]

theorem row_eq : row = ofList (front ++ capture "message" (fewest anyChar 1) :: ending) := rfl

theorem isBlank_of_isRuleChar {c : Char} (h : isRuleChar c = true) : isBlank c = false := by
  rw [isRuleChar, Bool.or_eq_true] at h
  rcases h with hword | hsign
  · exact isBlank_of_isWordChar hword
  · simp only [List.contains_iff_mem, List.mem_cons, List.not_mem_nil, or_false] at hsign
    rcases hsign with rfl | rfl | rfl | rfl <;> rfl

variable {s : Cursor} {w r' : List Char} {cs : List (String × List Char)}

theorem reads_front (h : (ofList front).Reads s w r' cs) :
    ∃ b line col g level g', w = b ++ (line ++ ':' :: (col ++ (g ++ (level.toList ++ g')))) ∧
      cs = [("level", level.toList), ("col", col), ("line", line)] ∧ (∀ c ∈ b, isBlank c = true) ∧ AreDigits line ∧
      AreDigits col ∧ (g ≠ [] ∧ ∀ c ∈ g, isBlank c = true) ∧ level ∈ ["error", "warning"] ∧
      g' ≠ [] ∧ ∀ c ∈ g', isBlank c = true := by
  simp only [front, reads_ofList_cons, reads_ofList_nil, reads_char, reads_words, reads_blanks, reads_digits,
    reads_capture, ↓existsAndEq, and_assoc, true_and, and_true, List.append_nil, List.nil_append, List.cons_append] at h
  obtain ⟨b, line, col, g, g', level, rfl, rfl, -, hb, hline, hcol, hne, hg, hlevel, hne', hg'⟩ := h
  exact ⟨b, line, col, g, level, g', rfl, rfl, hb, hline, hcol, ⟨List.ne_nil_of_length_pos hne, hg⟩, hlevel,
    List.ne_nil_of_length_pos hne', hg'⟩

/-- After the message there is one word, the rule, or none. -/
theorem reads_ending (h : (ofList ending).Reads s w r' cs) :
    (r' = [] ∨ r' = ['\n']) ∧ (∀ c ∈ trim w, isBlank c = false) ∧ cs = if trim w = [] then [] else [("rule", trim w)] := by
  simp only [ending, reads_ofList_cons, reads_ofList_nil, reads_optional, reads_many, reads_atEnd, reads_blanks,
    reads_capture, ↓existsAndEq, and_assoc, true_and, and_true, List.append_nil, List.nil_append, List.cons_append] at h
  obtain ⟨u, v, rfl, ⟨b, rule, rfl, rfl, -, hb, hne, hrule⟩ | ⟨rfl, rfl⟩, -, hv, hr⟩ := h
  · have hvisible : ∀ c ∈ rule, isBlank c = false := fun c hc => isBlank_of_isRuleChar (hrule c hc)
    rw [trim_append_right hv, trim_append_left hb, trim_of_visible hvisible, if_neg (List.ne_nil_of_length_pos hne)]
    exact ⟨hr, hvisible, rfl⟩
  · have hnil : trim v = [] := by
      rw [← List.append_nil v, trim_append_left hv]
      rfl
    rw [List.nil_append, hnil, if_pos rfl]
    exact ⟨hr, List.forall_mem_nil _, rfl⟩

/-! Rows. -/

def spaces (n : Nat) : List Char := List.replicate n ' '

theorem isBlank_of_mem_spaces {n : Nat} : ∀ c ∈ spaces n, isBlank c = true := by
  intro c hc
  rw [List.eq_of_mem_replicate hc]
  rfl

/-- What a linter has to say at one place of a file, in columns. -/
structure Row where
  indentation : Nat
  line : Nat
  column : Nat
  beforeLevel : Nat
  isError : Bool
  beforeMessage : Nat
  message : List Char
  beforeRule : Nat
  rule : List Char
  indented : 1 ≤ indentation
  level_apart : 2 ≤ beforeLevel
  message_apart : 2 ≤ beforeMessage
  rule_apart : 2 ≤ beforeRule
  message_ne_nil : message ≠ []
  message_trim : trim message = message
  message_line : ∀ c ∈ message, isLineBreak c = false
  rule_ne_nil : rule ≠ []
  rule_visible : ∀ c ∈ rule, isBlank c = false

namespace Row

def level (r : Row) : String := if r.isError then "error" else "warning"

def text (r : Row) : List Char :=
  spaces r.indentation ++ Nat.toDigits 10 r.line ++ ":".toList ++ Nat.toDigits 10 r.column ++ spaces r.beforeLevel ++
    r.level.toList ++ spaces r.beforeMessage ++ r.message ++ spaces r.beforeRule ++ r.rule

def issue (table : SeverityTable) (path : List Char) (r : Row) : Issue where
  file := String.ofList path
  line := r.line
  column := r.column
  source := .lint
  severity := table.forLint (if r.isError then errorLevel else warningLevel)
  message := String.ofList r.message
  suggestedFix := "Fix lint rule: " ++ String.ofList r.rule
  code := some (String.ofList r.rule)

variable (r : Row)

theorem text_eq : r.text = spaces r.indentation ++ (Nat.toDigits 10 r.line ++ ':' :: (Nat.toDigits 10 r.column ++
    (spaces r.beforeLevel ++ (r.level.toList ++ (spaces r.beforeMessage ++ (r.message ++
      (spaces r.beforeRule ++ r.rule))))))) := by
  simp [text]

theorem rule_eq_cons : ∃ c t, r.rule = c :: t ∧ isBlank c = false := by
  obtain ⟨c, t, hct⟩ := List.exists_cons_of_ne_nil r.rule_ne_nil
  exact ⟨c, t, hct, r.rule_visible c (by rw [hct]; exact List.mem_cons_self)⟩

theorem level_mem : r.level ∈ ["error", "warning"] := by
  rw [level]
  split <;> simp

theorem level_visible {t : String} (ht : t ∈ ["error", "warning"]) :
    t.toList ≠ [] ∧ ∀ c ∈ t.toList, isBlank c = false := by
  have hall : ∀ t ∈ ["error", "warning"], t.toList ≠ [] ∧ t.toList.all (fun c => !isBlank c) = true := by decide
  simpa using hall t ht

/-- All before the message is settled but for the blanks next to it. -/
theorem exists_of_front (h : (ofList front).Reads s w r' cs) (htext : r.text = w ++ r') :
    ∃ b, r' = b ++ (r.message ++ (spaces r.beforeRule ++ r.rule)) ∧ (∀ c ∈ b, isBlank c = true) ∧
      cs = [("level", r.level.toList), ("col", Nat.toDigits 10 r.column), ("line", Nat.toDigits 10 r.line)] := by
  obtain ⟨b, line, col, g, level, g', rfl, rfl, hb, hline, hcol, ⟨hg, hblank⟩, hlevel, hg', hblank'⟩ := reads_front h
  have hline' := areDigits_toDigits r.line
  have hcol' := areDigits_toDigits r.column
  have hspaces {n : Nat} (hn : 2 ≤ n) : spaces n ≠ [] := by simp [spaces]; omega
  rw [text_eq] at htext
  simp only [List.append_assoc, List.cons_append] at htext
  obtain ⟨-, hafterIndent⟩ := run_append_inj isBlank_of_mem_spaces hb
    (head?_append_of_forall hline'.1 fun c hc => Numeral.isBlank_of_isDecimal (hline'.2 c hc))
    (head?_append_of_forall hline.1 fun c hc => Numeral.isBlank_of_isDecimal (hline.2 c hc)) htext
  obtain ⟨rfl, -, hafterLine⟩ := run_inj hline'.2 hline.2 (by decide) (by decide) hafterIndent
  obtain ⟨rfl, hafterColumn⟩ := run_append_inj hcol'.2 hcol.2
    (head?_append_of_forall (hspaces r.level_apart) fun c hc => isDecimal_of_isBlank (isBlank_of_mem_spaces c hc))
    (head?_append_of_forall hg fun c hc => isDecimal_of_isBlank (hblank c hc)) hafterLine
  obtain ⟨hne, hvisible⟩ := level_visible hlevel
  obtain ⟨hne', hvisible'⟩ := level_visible r.level_mem
  obtain ⟨-, hword⟩ := run_append_inj isBlank_of_mem_spaces hblank (head?_append_of_forall hne' hvisible')
    (head?_append_of_forall hne hvisible) hafterColumn
  obtain ⟨hsame, hafterLevel⟩ := run_append_inj (p := fun c => !isBlank c) (by simpa using hvisible') (by simpa using hvisible)
    (head?_append_of_forall (hspaces r.message_apart) (by simpa using isBlank_of_mem_spaces))
    (head?_append_of_forall hg' (by simpa using hblank')) hword
  rw [hsame]
  -- The blanks before the message that are left are the end of those that were printed.
  obtain ⟨c, t, hmessage, hc⟩ := exists_cons_of_trim r.message_ne_nil r.message_trim
  rcases List.append_eq_append_iff.mp hafterLevel with ⟨b', hb', hrest⟩ | ⟨b', hb', hrest⟩
  · have hnil : b' = [] := by
      cases b' with
      | nil => rfl
      | cons x b' =>
        rw [hmessage] at hrest
        obtain ⟨rfl, -⟩ := List.cons.inj hrest
        rw [hblank' c (by rw [hb']; simp)] at hc
        cases hc
    rw [hnil, List.nil_append] at hrest
    exact ⟨[], hrest.symm, nofun, rfl⟩
  · refine ⟨b', hrest, fun x hx => isBlank_of_mem_spaces (n := r.beforeMessage) x ?_, rfl⟩
    rw [hb']
    exact List.mem_append_right g' hx

/-- Within the message there is no end of it: the blanks before the rule would be in the rule. -/
theorem ending_run_of_shorter {β : Type} {k : Cursor → Option β} {b u v : List Char}
    (huv : b ++ r.message = u ++ v) (hv : v ≠ []) (hs : s.rest = v ++ (spaces r.beforeRule ++ r.rule))
    (hline : '\n' ∉ s.rest) :
    (ofList ending).run k s = none := by
  by_contra hsome
  obtain ⟨x, hx⟩ := Option.ne_none_iff_exists'.mp hsome
  obtain ⟨w, r', cs, hrest, hreads, -⟩ := exists_reads_of_run hx
  obtain ⟨hr, hvisible, -⟩ := reads_ending hreads
  obtain ⟨t, c, ht, hc⟩ := exists_concat_of_trim r.message_ne_nil r.message_trim
  obtain ⟨y, q, hq, hy⟩ := r.rule_eq_cons
  have hlast : v.getLast? = some c := by
    have hboth := congrArg List.getLast? huv
    rwa [ht, ← List.append_assoc, List.getLast?_concat, List.getLast?_append_of_ne_nil _ hv, eq_comm] at hboth
  obtain ⟨v', rfl⟩ := List.getLast?_eq_some_iff.mp hlast
  have hnil : r' = [] := eq_nil_of_atEnd hline hrest hr
  rw [hs, hnil, List.append_nil] at hrest
  have hmem : ' ' ∈ trim w := by
    rw [← hrest, hq, List.append_assoc, List.singleton_append]
    refine mem_trim_between hc hy (List.mem_replicate.mpr ⟨?_, rfl⟩)
    have := r.rule_apart
    omega
  exact absurd (hvisible _ hmem) (by decide)

structure Recovered (m : Found) : Prop where
  line : m.group? "line" = some (Nat.toDigits 10 r.line)
  column : m.group? "col" = some (Nat.toDigits 10 r.column)
  level : m.text "level" = r.level
  message : trim ((m.group? "message").getD []) = r.message
  rule : m.text? "rule" = some (String.ofList r.rule)

variable {m : Found}

theorem rest_line : ∀ c ∈ r.message ++ (spaces r.beforeRule ++ r.rule), isLineBreak c = false := by
  simp only [List.forall_mem_append]
  refine ⟨r.message_line, fun c hc => ?_, fun c hc => isLineBreak_of_isBlank (r.rule_visible c hc)⟩
  rw [List.eq_of_mem_replicate hc]
  rfl

theorem text_line : ∀ c ∈ r.text, isLineBreak c = false := by
  have hspaces {n : Nat} : ∀ c ∈ spaces n, isLineBreak c = false := fun c hc => by
    rw [List.eq_of_mem_replicate hc]
    rfl
  have hdigits (n : Nat) : ∀ c ∈ Nat.toDigits 10 n, isLineBreak c = false := fun c hc =>
    isLineBreak_of_isBlank (Numeral.isBlank_of_isDecimal ((areDigits_toDigits n).2 c hc))
  have hlevel : ∀ c ∈ r.level.toList, isLineBreak c = false := fun c hc =>
    isLineBreak_of_isBlank ((level_visible r.level_mem).2 c hc)
  rw [text_eq]
  simp only [List.forall_mem_append, List.forall_mem_cons]
  exact ⟨hspaces, hdigits _, rfl, hdigits _, hspaces, hlevel, hspaces, r.message_line, hspaces, fun c hc => isLineBreak_of_isBlank (r.rule_visible c hc)⟩

theorem exists_found : ∃ m, row.matchPrefix? r.text = some m := by
  rw [← Option.isSome_iff_exists, matchPrefix?, foundAt?_isSome_iff]
  refine ⟨r.text, [], [("message", r.message ++ (spaces r.beforeRule ++ r.rule)), ("level", r.level.toList),
    ("col", Nat.toDigits 10 r.column), ("line", Nat.toDigits 10 r.line)], (List.append_nil _).symm, ?_⟩
  have hapart {n k : Nat} (h : k ≤ n) : k ≤ (spaces n).length := by simpa [spaces] using h
  have hone {n : Nat} (h : 2 ≤ n) : 1 ≤ (spaces n).length := hapart (by omega)
  simp only [row, reads_ofList_cons, reads_ofList_nil, reads_char, reads_words, reads_blanks, reads_digits,
    reads_fewest, reads_optional, reads_many, reads_atEnd, reads_capture, ↓existsAndEq, and_assoc, true_and, and_true,
    List.append_nil, List.nil_append, List.cons_append]
  refine ⟨spaces r.indentation, Nat.toDigits 10 r.line, Nat.toDigits 10 r.column, spaces r.beforeLevel,
    spaces r.beforeMessage, r.message ++ (spaces r.beforeRule ++ r.rule), [], [], [], r.level, ?_, rfl,
    hapart r.indented, isBlank_of_mem_spaces, areDigits_toDigits _, areDigits_toDigits _, hone r.level_apart,
    isBlank_of_mem_spaces, r.level_mem, hone r.message_apart, isBlank_of_mem_spaces, ?_, 
    anyChar_of_newline_notMem (newline_notMem_of_line r.rest_line), .inr ⟨rfl, rfl⟩, Nat.zero_le _, List.forall_mem_nil _, .inl trivial⟩
  · rw [text_eq]
    simp
  · rw [List.length_append]
    have := List.length_pos_iff.mpr r.message_ne_nil
    omega

theorem reads_rule (hrule : ∀ c ∈ r.rule, isRuleChar c = true) :
    (ofList ending).Reads s (spaces r.beforeRule ++ r.rule) [] [("rule", r.rule)] := by
  have hapart : 2 ≤ (spaces r.beforeRule).length := by simpa [spaces] using r.rule_apart
  simp only [ending, reads_ofList_cons, reads_ofList_nil, reads_optional, reads_many, reads_atEnd, reads_blanks,
    reads_capture, ↓existsAndEq, and_assoc, true_and, and_true, List.append_nil, List.nil_append, List.cons_append]
  exact ⟨spaces r.beforeRule ++ r.rule, [], (List.append_nil _).symm,
    .inl ⟨_, _, rfl, rfl, hapart, isBlank_of_mem_spaces, List.length_pos_iff.mpr r.rule_ne_nil, hrule⟩, Nat.zero_le _,
    List.forall_mem_nil _, .inl trivial⟩

theorem ending_captures {β : Type} {f : Cursor → β} {x : β} (hs : s.rest = spaces r.beforeRule ++ r.rule)
    (h : (ofList ending).run (fun e => some (f e)) s = some x) :
    x = f (s.after (spaces r.beforeRule ++ r.rule) [] [("rule", r.rule)]) := by
  obtain ⟨w, r', cs, hrest, hreads, hx⟩ := exists_reads_of_run h
  obtain ⟨hr, -, hcs⟩ := reads_ending hreads
  have hline : '\n' ∉ s.rest := by
    rw [hs]
    exact newline_notMem_of_line (List.forall_mem_append.mp r.rest_line).2
  have hnil : r' = [] := eq_nil_of_atEnd hline hrest hr
  rw [hs, hnil, List.append_nil] at hrest
  have htrim : trim w = r.rule := by rw [← hrest, trim_append_left isBlank_of_mem_spaces, trim_of_visible r.rule_visible]
  rw [htrim, if_neg r.rule_ne_nil] at hcs
  rw [← hrest, hnil, hcs] at hx
  exact (Option.some.inj hx).symm

/-- The message that is read is the one that was printed, but for blanks before it. -/
theorem message_captures {β : Type} {f : Cursor → β} {x : β} {b : List Char}
    (hrule : ∀ c ∈ r.rule, isRuleChar c = true)
    (hs : s.rest = (b ++ r.message) ++ (spaces r.beforeRule ++ r.rule)) (hline : '\n' ∉ s.rest)
    (h : (ofList (capture "message" (fewest anyChar 1) :: ending)).run (fun e => some (f e)) s = some x) :
    x = f (s.after (b ++ r.message ++ (spaces r.beforeRule ++ r.rule)) []
      [("rule", r.rule), ("message", b ++ r.message)]) := by
  let ends (e : Cursor) : Option β := (ofList ending).run (fun e => some (f e)) (s.record "message" e)
  have hends (u v : List Char) (huv : s.rest = u ++ v) :
      ends (s.after u v []) = (ofList ending).run (fun e => some (f e)) (s.after u v [("message", u)]) :=
    congrArg ((ofList ending).run fun e => some (f e)) (Cursor.record_after "message" [] huv)
  obtain ⟨y, hy⟩ : ∃ y, ends (s.after (b ++ r.message) (spaces r.beforeRule ++ r.rule) []) = some y := by
    rw [hends _ _ hs, ← Option.isSome_iff_exists]
    exact run_isSome_of_reads (r.reads_rule hrule) (List.append_nil _).symm rfl
  have hchars : ∀ c ∈ b ++ r.message, anyChar c = true := by
    refine anyChar_of_newline_notMem fun hc => hline ?_
    rw [hs]
    exact List.mem_append_left _ hc
  have hlength : 1 ≤ (b ++ r.message).length := by
    have := List.length_pos_iff.mpr r.message_ne_nil
    rw [List.length_append]
    omega
  -- No shorter message leaves an ending behind it, so that the first one that is tried with success is all of it.
  have hshortest : (fewest anyChar 1).run ends s = some y := by
    refine run_fewest_of_shortest hs hlength hchars hy fun u v huv hv _ => ?_
    have hrest : s.rest = u ++ (v ++ (spaces r.beforeRule ++ r.rule)) := by rw [hs, huv, List.append_assoc]
    rw [hends _ _ hrest]
    refine r.ending_run_of_shorter huv hv rfl fun hmem => hline ?_
    rw [hrest]
    exact List.mem_append_right u hmem
  rw [run_ofList_cons] at h
  obtain rfl := Option.some.inj (hshortest.symm.trans h)
  rw [hends _ _ hs] at hy
  rw [r.ending_captures rfl hy, Cursor.after_after]
  rfl

theorem recovered (hrule : ∀ c ∈ r.rule, isRuleChar c = true) (hm : row.matchPrefix? r.text = some m) :
    r.Recovered m := by
  rw [matchPrefix?, foundAt?, row_eq, run_ofList_append] at hm
  obtain ⟨w, r', cs, htext, hfront, hm⟩ := exists_reads_of_run hm
  obtain ⟨b, rfl, hb, rfl⟩ := r.exists_of_front hfront htext
  rw [← List.append_assoc] at hm
  have hline : '\n' ∉ b ++ r.message ++ (spaces r.beforeRule ++ r.rule) := by
    intro hmem
    refine newline_notMem_of_line r.text_line ?_
    rw [show r.text = _ from htext, ← List.append_assoc b]
    exact List.mem_append_right w hmem
  obtain rfl := r.message_captures hrule rfl hline hm
  have htrim : trim (b ++ r.message) = r.message := by rw [trim_append_left hb, r.message_trim]
  exact
    { line := by simp [Found.group?, Cursor.after, Cursor.start, List.lookup]
      column := by simp [Found.group?, Cursor.after, Cursor.start, List.lookup]
      level := by simp [Found.text, Found.text?, Found.group?, Cursor.after, Cursor.start, List.lookup]
      message := by simp [Found.group?, Cursor.after, Cursor.start, List.lookup, htrim]
      rule := by simp [Found.text?, Found.group?, Cursor.after, Cursor.start] }

theorem isRuleChar_of_found {t rule : List Char} (hm : row.matchPrefix? t = some m) (h : m.group? "rule" = some rule) :
    ∀ c ∈ rule, isRuleChar c = true := by
  let q (name : String) (w : List Char) : Prop := name = "rule" → ∀ c ∈ w, isRuleChar c = true
  have hother {name : String} {a : Pattern} (hname : name ≠ "rule") (ha : a.CapturesAre q) :
      (capture name a).CapturesAre q :=
    ⟨fun _ _ _ _ _ h => absurd h hname, ha⟩
  have hrule : (Pattern.optional (ofList [blanks 2, capture "rule" (many isRuleChar 1)])).CapturesAre q :=
    ⟨⟨trivial, fun _ _ _ _ hreads _ => hreads.1.2, trivial⟩, trivial⟩
  have hcaptures : row.CapturesAre q := by
    rw [row_eq, front, ending, capturesAre_ofList]
    simp only [List.cons_append, List.nil_append, List.forall_mem_cons]
    exact ⟨trivial, hother (by decide) trivial, trivial, hother (by decide) trivial, trivial,
      hother (by decide) (capturesAre_words _), trivial, hother (by decide) trivial, hrule, trivial, trivial,
      List.forall_mem_nil _⟩
  exact group_of_foundAt hcaptures hm h rfl

/-! Issues. -/

theorem rowIssue_eq_ok {table : SeverityTable} {file : String} {i : Issue} (h : rowIssue table file m = .ok i) :
    ∃ line column, numberOf m "line" = .ok line ∧ numberOf m "col" = .ok column ∧
      i.file = file ∧ i.line = line ∧ i.column = column ∧ i.code = m.text? "rule" := by
  obtain ⟨line, hline, h⟩ := Outcome.bind_eq_ok h
  obtain ⟨column, hcolumn, h⟩ := Outcome.bind_eq_ok h
  obtain rfl := Except.ok.inj h
  exact ⟨line, column, hline, hcolumn, rfl, rfl, rfl, rfl⟩

/-- A row is read back exactly where its rule is made of the characters of rules, its numbers can be read, and
the path has no blanks around it. -/
theorem rowIssue_eq_iff (table : SeverityTable) (path : List Char) (hm : row.matchPrefix? r.text = some m) :
    rowIssue table (String.ofList (trim path)) m = .ok (r.issue table path) ↔
      trim path = path ∧ (∀ c ∈ r.rule, isRuleChar c = true) ∧ r.line < 10 ^ Numeral.mostDigits ∧
        r.column < 10 ^ Numeral.mostDigits := by
  constructor
  · intro h
    obtain ⟨line, column, hline, hcolumn, hfile, hl, hc, hcode⟩ := rowIssue_eq_ok h
    have hrule : ∀ c ∈ r.rule, isRuleChar c = true := by
      refine isRuleChar_of_found hm (Option.map_injective (fun _ _ => String.ofList_injective) ?_)
      exact hcode.symm
    have hrecovered := r.recovered hrule hm
    rw [← numberOf_toDigits_iff hrecovered.line, ← numberOf_toDigits_iff hrecovered.column]
    exact ⟨(String.ofList_injective hfile).symm, hrule, hline.trans (congrArg _ hl.symm), hcolumn.trans (congrArg _ hc.symm)⟩
  · rintro ⟨hpath, hrule, hline, hcolumn⟩
    have hrecovered := r.recovered hrule hm
    rw [← numberOf_toDigits_iff hrecovered.line] at hline
    rw [← numberOf_toDigits_iff hrecovered.column] at hcolumn
    rw [rowIssue, Outcome.bind_of_ok hline, Outcome.bind_of_ok hcolumn]
    have hlevel : (r.level == "error") = r.isError := by
      rw [level]
      cases r.isError <;> rfl
    simp [issue, trimmed, hpath, hrecovered.message, hrecovered.rule, hrecovered.level, hlevel]

end Row

end QualityGate.Output.Lint
