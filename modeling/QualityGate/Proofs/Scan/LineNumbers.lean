import Mathlib
import QualityGate.Check.WellFormed
import QualityGate.Scan.Directives
import QualityGate.Proofs.Text.Matching
import QualityGate.Proofs.Text.Position

/-! The line numbers of what is found in a source text. Directives, markers and loops are looked for in lines, and numbered
with them; brackets, empty catch blocks and timers are numbered by the line feeds before them. Both ways agree on a place
as long as line feeds, alone or after carriage returns, end all lines before it. -/

namespace QualityGate.Scan

open Text Text.Pattern

/-- What is looked for, and what is reported of it in a line. -/
structure Search (α : Type) where
  pattern : Pattern
  report : Found → Nat → α

/-- Something found in a text: where it begins, its text, and what is reported of it once its line is known. -/
structure Sighting (α : Type) where
  index : Nat
  text : List Char
  report : Nat → α

namespace Sighting

variable {α : Type}

def numbered (line : Nat → Nat) (s : Sighting α) : α := s.report (line s.index)

/-- A match in a piece of a text that begins at an index. -/
def ofMatch (a : Search α) (piece : Nat × List Char) (m : Found) : Sighting α :=
  ⟨piece.1 + m.start, (piece.2.drop m.start).take (m.stop - m.start), a.report m⟩

/-- The first match in a piece of a text. -/
def first (a : Search α) (piece : Nat × List Char) : List (Sighting α) :=
  ((a.pattern.find? piece.2).map (ofMatch a piece)).toList

/-- The first matches of two searches in each line. -/
def inLines (a b : Search α) (text : List Char) : List (Sighting α) :=
  (linesFrom 0 text).flatMap fun piece => first a piece ++ first b piece

end Sighting

def compilerSearch (file : String) : Search Suppression :=
  ⟨compilerDirective, fun m line => compilerSuppression file line (m.text "kind")⟩

def linterSearch (file : String) : Search Suppression := ⟨linterDirective, fun m line => linterSuppression file line m⟩

def markerSearch (file : String) : Search String := ⟨marker, fun m line => at_ file line (markerNote m)⟩

/-- What is reported with the same note wherever it is found. -/
def noted (p : Pattern) (note file : String) : Search String := ⟨p, fun _ line => at_ file line note⟩

def loopSearch : String → Search String := noted infiniteLoop "Infinite loop, make sure it has an exit condition"

def catchSearch : String → Search String := noted emptyCatch "Empty catch block swallows errors"

def timerSearch : String → Search String :=
  noted (call "setInterval") "setInterval without clearInterval may leak timers"

def directiveSightings (file : String) (text : List Char) : List (Sighting Suppression) :=
  Sighting.inLines (compilerSearch file) (linterSearch file) text

/-- Markers and infinite loops. -/
def lineSightings (file : String) (text : List Char) : List (Sighting String) :=
  Sighting.inLines (markerSearch file) (loopSearch file) text

/-- Empty catch blocks, and a timer that is never cleared. -/
def textSightings (file : String) (text : List Char) : List (Sighting String) :=
  (emptyCatch.findAll text).map (.ofMatch (catchSearch file) (0, text)) ++
    if (call "clearInterval").occursIn text then [] else Sighting.first (timerSearch file) (0, text)

/-- The findings are those of the sightings, each in the line that its index has. -/
def NumberedBy (line : Nat → Nat) (file : String) (text : List Char) : Prop :=
  suppressions file text = (directiveSightings file text).map (·.numbered line) ∧
    concerns file text = (lineSightings file text ++ textSightings file text).map (·.numbered line)

/-- A match begins in the text that it is found in. -/
theorem find?_start_le {p : Pattern} {l : List Char} {m : Found} (h : p.find? l = some m) : m.start ≤ l.length := by
  suffices hgo : ∀ before pos, find?.go p before pos l = some m → m.start ≤ pos + l.length by
    simpa using hgo none 0 h
  clear h
  induction l with
  | nil =>
    intro before pos h
    obtain ⟨-, -, -, -, -, rfl⟩ := exists_reads_of_foundAt h
    exact Nat.le_add_right pos _
  | cons c l ih =>
    intro before pos h
    cases hfirst : p.foundAt? ⟨before, pos, c :: l, []⟩ with
    | some m' =>
      obtain rfl := Option.some.inj ((find?_go_of_foundAt hfirst).symm.trans h)
      obtain ⟨-, -, -, -, -, rfl⟩ := exists_reads_of_foundAt hfirst
      exact Nat.le_add_right pos _
    | none =>
      rw [find?_go_of_none hfirst] at h
      have hle := ih _ _ h
      rw [List.length_cons]
      omega

/-- A line has the number of the line ends before it. -/
theorem numbered_eq (text : List Char) :
    numbered text = (linesFrom 0 text).map fun piece => (splitLineOf text piece.1, piece.2) := by
  rw [numbered, ← map_snd_linesFrom 0 text]
  refine List.ext_getElem (by simp) fun n _ hn => ?_
  rw [List.length_map] at hn
  simp only [List.getElem_zip, List.getElem_range', List.getElem_map, splitLineOf_line (List.getElem?_eq_getElem hn),
    Prod.mk.injEq, and_true]
  omega

namespace Sighting

variable {α : Type} {a b : Search α} {s : Sighting α} {text : List Char} {piece : Nat × List Char} {line line' : Nat → Nat}

theorem mem_first_iff : s ∈ first a piece ↔ ∃ m, a.pattern.find? piece.2 = some m ∧ s = ofMatch a piece m := by
  simp [first, eq_comm]

theorem exists_of_mem_inLines (h : s ∈ inLines a b text) :
    ∃ piece ∈ linesFrom 0 text, ∃ m, s = ofMatch a piece m ∨ s = ofMatch b piece m := by
  simp only [inLines, List.mem_flatMap, List.mem_append, mem_first_iff] at h
  obtain ⟨piece, hpiece, ⟨m, -, rfl⟩ | ⟨m, -, rfl⟩⟩ := h
  · exact ⟨piece, hpiece, m, .inl rfl⟩
  · exact ⟨piece, hpiece, m, .inr rfl⟩

/-! What is found stands where its sighting says. -/

theorem ofMatch_stands (h : piece.2 <+: text.drop piece.1) (m : Found) :
    (ofMatch a piece m).text <+: text.drop (ofMatch a piece m).index := by
  rw [ofMatch, ← List.drop_drop]
  refine List.IsPrefix.trans ?_ (h.drop m.start)
  exact List.take_prefix _ _

theorem stands_of_mem_inLines (h : s ∈ inLines a b text) : s.text <+: text.drop s.index := by
  obtain ⟨piece, hpiece, m, rfl | rfl⟩ := exists_of_mem_inLines h
  · exact ofMatch_stands (prefix_drop_of_mem hpiece) m
  · exact ofMatch_stands (prefix_drop_of_mem hpiece) m

theorem stands_of_mem_textSightings {s : Sighting String} {file : String} (h : s ∈ textSightings file text) :
    s.text <+: text.drop s.index := by
  have hwhole : text <+: text.drop 0 := List.prefix_rfl
  simp only [textSightings, List.mem_append, List.mem_map, List.mem_ite_nil_left, mem_first_iff] at h
  obtain ⟨m, -, rfl⟩ | ⟨-, m, -, rfl⟩ := h
  · exact ofMatch_stands hwhole m
  · exact ofMatch_stands hwhole m

/-! Reports that tell their lines. -/

theorem injective_of_mem_inLines (ha : ∀ m, Function.Injective (a.report m)) (hb : ∀ m, Function.Injective (b.report m))
    (h : s ∈ inLines a b text) : Function.Injective s.report := by
  obtain ⟨piece, -, m, rfl | rfl⟩ := exists_of_mem_inLines h
  · exact ha m
  · exact hb m

theorem map_numbered_eq_iff {ss : List (Sighting α)} (h : ∀ s ∈ ss, Function.Injective s.report) :
    ss.map (·.numbered line) = ss.map (·.numbered line') ↔ ∀ s ∈ ss, line s.index = line' s.index := by
  rw [List.map_inj_left]
  exact forall₂_congr fun s hs => (h s hs).eq_iff

/-! What is found in a line has the number of the line. -/

theorem map_numbered_first (h : piece ∈ linesFrom 0 text) :
    (first a piece).map (·.numbered (splitLineOf text)) =
      ((a.pattern.find? piece.2).map fun m => a.report m (splitLineOf text piece.1)).toList := by
  rw [first]
  cases hfind : a.pattern.find? piece.2 with
  | none => rfl
  | some m =>
    simp only [Option.map_some, Option.toList_some, List.map_cons, List.map_nil, numbered, ofMatch,
      splitLineOf_of_mem h (find?_start_le hfind)]

theorem map_numbered_inLines (a b : Search α) (text : List Char) :
    (inLines a b text).map (·.numbered (splitLineOf text)) = (Scan.numbered text).flatMap fun line =>
      ((a.pattern.find? line.2).map fun m => a.report m line.1).toList ++
        ((b.pattern.find? line.2).map fun m => b.report m line.1).toList := by
  rw [numbered_eq, List.flatMap_map, inLines, List.map_flatMap]
  refine List.flatMap_congr fun piece hpiece => ?_
  rw [List.map_append, map_numbered_first hpiece, map_numbered_first hpiece]

end Sighting

/-! Every report tells its line. -/

theorem at_injective (file note : String) : Function.Injective fun line => at_ file line note := by
  intro n m h
  simp only [at_, String.append_left_inj, String.append_right_inj] at h
  exact Nat.repr_inj.mp h

theorem compilerSuppression_line (file kind : String) (line : Nat) : (compilerSuppression file line kind).line = line := by
  unfold compilerSuppression
  split <;> rfl

theorem compilerSearch_injective (file : String) (m : Found) : Function.Injective ((compilerSearch file).report m) := by
  intro n n' h
  simpa only [compilerSearch, compilerSuppression_line] using congrArg Suppression.line h

theorem linterSearch_injective (file : String) (m : Found) : Function.Injective ((linterSearch file).report m) :=
  fun _ _ h => congrArg Suppression.line h

/-! The findings of a text. -/

theorem suppressions_eq (file : String) (text : List Char) :
    suppressions file text = (directiveSightings file text).map (·.numbered (splitLineOf text)) := by
  rw [directiveSightings, Sighting.map_numbered_inLines]
  rfl

theorem lineConcerns_eq (file : String) (text : List Char) :
    (numbered text).flatMap (fun line => lineConcerns file line.1 line.2) =
      (lineSightings file text).map (·.numbered (splitLineOf text)) := by
  rw [lineSightings, Sighting.map_numbered_inLines]
  refine List.flatMap_congr fun line _ => ?_
  rw [lineConcerns, occursIn, loopSearch, noted]
  cases infiniteLoop.find? line.2 <;> rfl

theorem textConcerns_eq (file : String) (text : List Char) :
    catchConcerns file text ++ timerConcerns file text =
      (textSightings file text).map (·.numbered (lineOf text)) := by
  rw [textSightings, List.map_append, catchConcerns, List.map_map, timerConcerns]
  congr 1
  · refine List.map_congr_left fun m _ => ?_
    simp only [Function.comp_apply, Sighting.numbered, Sighting.ofMatch, Nat.zero_add, catchSearch, noted]
  · cases hfind : (call "setInterval").find? text with
    | none => simp [Sighting.first, timerSearch, noted, hfind]
    | some m =>
      cases (call "clearInterval").occursIn text with
      | true => rfl
      | false => simp [Sighting.first, Sighting.numbered, Sighting.ofMatch, timerSearch, noted, hfind]

theorem concerns_eq (file : String) (text : List Char) :
    concerns file text = (lineSightings file text).map (·.numbered (splitLineOf text)) ++
      (textSightings file text).map (·.numbered (lineOf text)) := by
  rw [concerns, List.append_assoc, textConcerns_eq]
  exact congrArg (· ++ _) (lineConcerns_eq file text)

theorem numberedBy_lineOf_iff (file : String) (text : List Char) :
    NumberedBy (lineOf text) file text ↔
      (∀ s ∈ directiveSightings file text, FeedsOnly (text.take s.index)) ∧
        ∀ s ∈ lineSightings file text, FeedsOnly (text.take s.index) := by
  have hdirectives (s : Sighting Suppression) (hs : s ∈ directiveSightings file text) : Function.Injective s.report :=
    Sighting.injective_of_mem_inLines (compilerSearch_injective file) (linterSearch_injective file) hs
  have hlines (s : Sighting String) (hs : s ∈ lineSightings file text) : Function.Injective s.report :=
    Sighting.injective_of_mem_inLines (fun m => at_injective file _) (fun m => at_injective file _) hs
  rw [NumberedBy, suppressions_eq, concerns_eq, List.map_append, List.append_left_inj,
    Sighting.map_numbered_eq_iff hdirectives, Sighting.map_numbered_eq_iff hlines]
  simp only [splitLineOf_eq_lineOf_iff]

/-- What is found in a line has the number of the line, whatever ended the lines before it; what is found in the whole text,
brackets among it, is numbered by line feeds. All have one numbering exactly where line feeds alone, or after carriage
returns, end the lines before each directive, marker and loop. -/
theorem findings_numbered (file : String) (text : List Char) :
    (∀ s ∈ directiveSightings file text, s.text <+: text.drop s.index) ∧
      (∀ s ∈ lineSightings file text ++ textSightings file text, s.text <+: text.drop s.index) ∧
      suppressions file text = (directiveSightings file text).map (·.numbered (splitLineOf text)) ∧
      concerns file text = (lineSightings file text).map (·.numbered (splitLineOf text)) ++
        (textSightings file text).map (·.numbered (lineOf text)) ∧
      (∀ ctx f, (Check.WellFormed.unbalanced ctx file text f).line = lineOf text f.index) ∧
      (NumberedBy (lineOf text) file text ↔
        (∀ s ∈ directiveSightings file text, FeedsOnly (text.take s.index)) ∧
          ∀ s ∈ lineSightings file text, FeedsOnly (text.take s.index)) := by
  refine ⟨fun s => Sighting.stands_of_mem_inLines, fun s hs => ?_, suppressions_eq file text, concerns_eq file text,
    fun _ _ => rfl, numberedBy_lineOf_iff file text⟩
  rcases List.mem_append.mp hs with hline | htext
  · exact Sighting.stands_of_mem_inLines hline
  · exact Sighting.stands_of_mem_textSightings htext

/-- A form feed ends a line, and no line feed stands before the directive. -/
theorem findings_formFeed :
    suppressions "a.ts" "\x0c// @ts-ignore\n".toList =
        [⟨"a.ts", 2, .ignoreLine, "@ts-ignore", none, true, "@ts-ignore hides any error on the next line"⟩] ∧
      (directiveSightings "a.ts" "\x0c// @ts-ignore\n".toList).map (·.numbered (lineOf "\x0c// @ts-ignore\n".toList)) =
        [⟨"a.ts", 1, .ignoreLine, "@ts-ignore", none, true, "@ts-ignore hides any error on the next line"⟩] ∧
      ¬ NumberedBy (lineOf "\x0c// @ts-ignore\n".toList) "a.ts" "\x0c// @ts-ignore\n".toList := by
  have hfound : suppressions "a.ts" "\x0c// @ts-ignore\n".toList =
      [⟨"a.ts", 2, .ignoreLine, "@ts-ignore", none, true, "@ts-ignore hides any error on the next line"⟩] := by cbv
  have hnumbered : (directiveSightings "a.ts" "\x0c// @ts-ignore\n".toList).map
      (·.numbered (lineOf "\x0c// @ts-ignore\n".toList)) =
        [⟨"a.ts", 1, .ignoreLine, "@ts-ignore", none, true, "@ts-ignore hides any error on the next line"⟩] := by cbv
  refine ⟨hfound, hnumbered, fun h => ?_⟩
  have hsame := hfound.symm.trans (h.1.trans hnumbered)
  simp at hsame

end QualityGate.Scan
