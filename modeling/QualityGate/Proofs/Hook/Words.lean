import Mathlib
import QualityGate.Proofs.Hook.Script
import QualityGate.Proofs.Text.ShellWords

/-! How a shell reads the hooks. A hook is a template, into which the section and the commands of the tools are filled as
words. Nothing that is configured changes the rest of the template, save the name of the script that the build runs: it is
put between single quotes as it is. -/

namespace QualityGate.Hook

open Text.ShellWords

/-- What the condition for the build looks for in the package, as the pattern of a search. -/
def pattern (name : String) : String := "\"" ++ name ++ "\"[[:space:]]*:"

/-- The words of the condition. -/
def conditionTokens : List String → List Token
  | "npm" :: "run" :: name :: _ =>
    [.word [.special '['], wordOf "-f", wordOf "package.json", wordOf "]", .operator ['&', '&'], wordOf "grep", wordOf "-q",
      wordOf (pattern name), wordOf "package.json"]
  | _ => [wordOf "true"]

/-- A token of a template, or a hole, where something is filled in. -/
inductive Part where
  | token (t : Token)
  | assignment
  | typeCheck
  | lint
  | condition
  | build
  deriving DecidableEq

/-- A line that stands in a template as it is. -/
def fixed (line : String) : List Part := (run ground (line.toList ++ ['\n'])).1.map .token

namespace Part

def isHole : Part → Bool
  | token _ => false
  | _ => true

def fill (tools : Tools) (sectionName : String) : Part → List Token
  | token t => [t]
  | assignment => [wordOf ("section=" ++ sectionName)]
  | typeCheck => tools.typeCheck.command.map wordOf
  | lint => (withoutFormat tools.lint.command).map wordOf
  | condition => conditionTokens tools.build.command
  | build => tools.build.command.map wordOf

/-- The line in which a hole stands. -/
def line : Part → List Part
  | token t => [token t]
  | assignment => [assignment, token .newline]
  | condition => token (wordOf "if") :: condition :: fixed "; then"
  | command => command :: fixed ">\"$output\" 2>&1"

end Part

/-- The holes of a hook, in order. -/
def holes : HookKind → List Part
  | .preCommit => [.assignment, .typeCheck, .lint]
  | .prePush => [.assignment, .typeCheck, .lint, .condition, .build]

/-- Lines of a template with these holes, and with no others. -/
structure IsTemplate (lines : List (List Part)) (holes : List Part) : Prop where
  ends : ∀ line ∈ lines, line.getLast? = some (.token .newline)
  filled : lines.filter (·.any Part.isHole) = holes.map Part.line

/-- The tokens of a template. -/
def fillAll (lines : List (List Part)) (tools : Tools) (sectionName : String) : List Token :=
  lines.flatten.flatMap (Part.fill tools sectionName)

/-- Whatever is configured, a text is read as a template with these holes. -/
def Reads (f : Tools → String → String) (holes : List Part) : Prop :=
  ∃ lines, IsTemplate lines holes ∧ ∀ tools sectionName, Lexes (f tools sectionName).toList (fillAll lines tools sectionName)

/-- A text that is read on its own, up to the end of its line. -/
def IsLine (cs : List Char) : Prop :=
  (run ground (cs ++ ['\n'])).2 = ground ∧ (run ground (cs ++ ['\n'])).1.getLast? = some .newline
  deriving Decidable

section reads

variable {f g : Tools → String → String} {line : Tools → String → String} {lines more : List (List Part)}
  {hs hs' : List Part} {tools : Tools} {sectionName : String}

theorem fillAll_append :
    fillAll (lines ++ more) tools sectionName = fillAll lines tools sectionName ++ fillAll more tools sectionName := by
  rw [fillAll, List.flatten_append, List.flatMap_append]
  rfl

theorem IsTemplate.append (h : IsTemplate lines hs) (h' : IsTemplate more hs') : IsTemplate (lines ++ more) (hs ++ hs') where
  ends := List.forall_mem_append.mpr ⟨h.ends, h'.ends⟩
  filled := by rw [List.filter_append, h.filled, h'.filled, List.map_append]

theorem Reads.append (h : Reads f hs) (h' : Reads g hs') :
    Reads (fun tools sectionName => f tools sectionName ++ g tools sectionName) (hs ++ hs') := by
  obtain ⟨lines, htemplate, hlexes⟩ := h
  obtain ⟨more, htemplate', hlexes'⟩ := h'
  refine ⟨lines ++ more, htemplate.append htemplate', fun tools sectionName => ?_⟩
  rw [String.toList_append, fillAll_append]
  exact (hlexes tools sectionName).append (hlexes' tools sectionName)

theorem isHole_fixed (l : String) : (fixed l).any Part.isHole = false := by
  simp [fixed, Part.isHole]

theorem fill_fixed (l : String) :
    (fixed l).flatMap (Part.fill tools sectionName) = (run ground (l.toList ++ ['\n'])).1 := by
  rw [fixed, List.flatMap_map]
  exact List.flatMap_singleton' _

theorem IsLine.lexes {l : String} (h : IsLine l.toList) :
    Lexes (l ++ "\n").toList ((fixed l).flatMap (Part.fill tools sectionName)) := by
  rw [fill_fixed, String.toList_append]
  exact lexes_self h.1

theorem IsLine.getLast? {l : String} (h : IsLine l.toList) : (fixed l).getLast? = some (.token .newline) := by
  rw [fixed, List.getLast?_map, h.2]
  rfl

theorem reads_nil : Reads (fun _ _ => "") [] := ⟨[], ⟨nofun, rfl⟩, fun _ _ => rfl⟩

theorem reads_line {l : String} (h : IsLine l.toList) : Reads (fun _ _ => l ++ "\n") [] := by
  refine ⟨[fixed l], ⟨List.forall_mem_singleton.mpr h.getLast?, ?_⟩, fun _ _ => ?_⟩
  · simp [isHole_fixed]
  · rw [fillAll, List.flatten_singleton]
    exact h.lexes

theorem reads_block {ls : List String} (h : ∀ l ∈ ls, IsLine l.toList) : Reads (fun _ _ => block ls) [] := by
  induction ls with
  | nil => exact reads_nil
  | cons l ls ih =>
    obtain ⟨hl, hls⟩ := List.forall_mem_cons.mp h
    simp only [block_cons]
    exact (reads_line hl).append (ih hls)

/-- Lines as they are, and a line with a hole among them. -/
theorem reads_among (before after : List String) (htext : ∀ tools sectionName,
    f tools sectionName = block (before ++ line tools sectionName :: after)) (hbefore : ∀ l ∈ before, IsLine l.toList)
    (hafter : ∀ l ∈ after, IsLine l.toList) (h : Reads (fun tools sectionName => line tools sectionName ++ "\n") hs) :
    Reads f hs := by
  have hf : f = fun tools sectionName =>
      block before ++ (line tools sectionName ++ "\n" ++ block after) := by
    funext tools sectionName
    rw [htext, block_append, block_cons]
  have hreads := (reads_block hbefore).append (h.append (reads_block hafter))
  rw [List.append_nil, List.nil_append] at hreads
  rw [hf]
  exact hreads

end reads

/-! The lines with holes. -/

theorem lexes_indent : Lexes "    ".toList [] := by
  rw [Lexes]
  decide

theorem reads_command {hole : Part} {words : Tools → List String} {indent : String} (hindent : Lexes indent.toList [])
    (hline : hole.line = hole :: fixed ">\"$output\" 2>&1") (hhole : hole.isHole = true)
    (hfill : ∀ tools sectionName, hole.fill tools sectionName = (words tools).map wordOf) :
    Reads (fun tools _ => indent ++ join (words tools) ++ " >\"$output\" 2>&1" ++ "\n") [hole] := by
  have hrest : IsLine ">\"$output\" 2>&1".toList := by decide
  refine ⟨[hole.line], ⟨?_, ?_⟩, fun tools sectionName => ?_⟩
  · rw [hline, List.forall_mem_singleton, List.getLast?_cons, hrest.getLast?]
    rfl
  · simp [hline, hhole]
  · have hspace : " >\"$output\" 2>&1".toList = ' ' :: ">\"$output\" 2>&1".toList := by decide
    have htext : (indent ++ join (words tools) ++ " >\"$output\" 2>&1" ++ "\n").toList =
        indent.toList ++ ((join (words tools)).toList ++ [' '] ++ (">\"$output\" 2>&1" ++ "\n").toList) := by
      simp only [String.toList_append, List.append_assoc, hspace, List.cons_append, List.nil_append]
    rw [htext, fillAll, List.flatten_singleton, hline, List.flatMap_cons, hfill]
    exact hindent.append ((lexes_join (words tools)).append hrest.lexes)

theorem reads_assignment : Reads (fun _ sectionName => "section=" ++ quote sectionName ++ "\n") [.assignment] := by
  refine ⟨[Part.assignment.line], ⟨by decide, by decide⟩, fun tools sectionName => ?_⟩
  have hplain : ∀ c ∈ "section=".toList, isPlain c = true := List.all_eq_true.mp (by cbv)
  obtain ⟨b, hquote, -⟩ := run_quote (literals "section=".toList) true sectionName ['\n']
  have hword : wordTokens (literals "section=".toList ++ literals sectionName.toList) b =
      [wordOf ("section=" ++ sectionName)] := by
    rw [wordOf, String.toList_append, literals_append]
    exact wordTokens_of_ne fun _ => by simp [literals]
  have hrun : run ground ("section=".toList ++ ((quote sectionName).toList ++ ['\n'])) =
      ([wordOf ("section=" ++ sectionName), .newline], ground) :=
    calc run ground ("section=".toList ++ ((quote sectionName).toList ++ ['\n']))
      _ = run (.word (literals "section=".toList) true {}) ((quote sectionName).toList ++ ['\n']) := run_plain hplain _
      _ = run (.word (literals "section=".toList ++ literals sectionName.toList) b {}) ['\n'] := hquote
      _ = ([wordOf ("section=" ++ sectionName), .newline], ground) := by
        rw [run_newline, hword]
        rfl
  rw [String.toList_append, String.toList_append, List.append_assoc]
  exact hrun

/-! The parts of a hook. -/

/-- A backslash at the end of a line joins the next one to it. -/
theorem block_joined (l l' : String) : block [l, l'] = block [l ++ "\n" ++ l'] := by
  simp only [block_cons, String.append_assoc]

set_option maxRecDepth 4000 in
theorem reads_preamble : Reads (fun _ _ => preamble) [] := by
  refine reads_block ?_
  simp only [List.forall_mem_cons]
  repeat rw [String.toList_ofList]
  decide

theorem reads_empty : Reads (fun _ _ => "\n") [] := reads_line (by decide : IsLine "".toList)

theorem reads_header (kind : HookKind) (level : EnforcementLevel) : Reads (fun _ sectionName => block [
    "#!/bin/sh", marker ++ " (" ++ Labelled.label kind ++ ")", "# Generated by bastion; reinstalling overwrites this file.",
    "", "section=" ++ quote sectionName, "level=" ++ quote (Labelled.label level), ""]) [.assignment] := by
  refine reads_among [_, _, _, _] [_, _] (fun _ _ => rfl) ?_ ?_ reads_assignment
  · cases kind <;> decide
  · cases level <;> decide

theorem reads_typeCheckStep : Reads (fun tools _ => typeCheckStep (join tools.typeCheck.command)) [.typeCheck] := by
  refine reads_among [_, _] _ (fun _ _ => rfl) ?_ ?_ (reads_command lexes_indent rfl rfl fun _ _ => rfl)
  all_goals
    simp only [List.forall_mem_cons]
    repeat rw [String.toList_ofList]
    decide

set_option maxRecDepth 4000 in
theorem reads_lintStep : Reads (fun tools _ => lintStep (join (withoutFormat tools.lint.command))) [.lint] := by
  have h : Reads (fun tools _ => "" ++ join (withoutFormat tools.lint.command) ++ " >\"$output\" 2>&1" ++ "\n") [.lint] :=
    reads_command rfl rfl rfl fun _ _ => rfl
  simp only [String.empty_append] at h
  refine reads_among [_, _] _ (fun _ _ => rfl) ?_ ?_ h
  all_goals
    simp only [List.forall_mem_cons]
    repeat rw [String.toList_ofList]
    decide

set_option maxRecDepth 4000 in
theorem reads_suppressionStep : Reads (fun _ _ => suppressionStep) [] := by
  have hglobs : " ".intercalate (sourceGlobs.map fun g => "'" ++ g ++ "'") =
      "'*.ts' '*.tsx' '*.js' '*.jsx' '*.mts' '*.cts' '*.mjs' '*.cjs'" := by rfl
  rw [suppressionStep, block_joined, hglobs]
  refine reads_block ?_
  simp only [List.forall_mem_cons, String.toList_append, unsafeSuppression]
  repeat rw [String.toList_ofList]
  decide

set_option maxRecDepth 4000 in
theorem reads_verdict (kind : HookKind) : Reads (fun _ _ => verdict kind) [] := by
  cases kind
  all_goals
    refine reads_block ?_
    simp only [List.forall_mem_cons, String.toList_append, ending]
    repeat rw [String.toList_ofList]
    decide

/-- The lines that both hooks begin with. -/
theorem reads_opening (kind : HookKind) (level : EnforcementLevel) : ∃ opening : Tools → String → String,
    Reads opening [.assignment, .typeCheck, .lint] ∧ ∀ tools sectionName, script kind level tools sectionName =
      opening tools sectionName ++ (match kind with
        | .preCommit => suppressionStep ++ block ["build_errors=0"]
        | .prePush => block ["suppressions=0"] ++ buildStep (buildCondition tools.build.command) (join tools.build.command)) ++
      verdict kind :=
  ⟨_, (reads_header kind level).append reads_preamble |>.append reads_empty |>.append reads_typeCheckStep
    |>.append reads_empty |>.append reads_lintStep |>.append reads_empty, fun _ _ => rfl⟩

set_option maxRecDepth 4000 in
/-- What precedes the line of the condition for the build, and what follows it. -/
theorem reads_around_condition (level : EnforcementLevel) : ∃ before after : Tools → String → String,
    Reads before [.assignment, .typeCheck, .lint] ∧ Reads after [.build] ∧ ∀ tools sectionName,
      script .prePush level tools sectionName = before tools sectionName ++
        (("if " ++ buildCondition tools.build.command ++ "; then" ++ "\n") ++ after tools sectionName) := by
  obtain ⟨opening, hopening, hscript⟩ := reads_opening .prePush level
  have hbefore : Reads (fun _ _ => block ["suppressions=0", "build_errors=0"]) [] := reads_block (by decide)
  obtain ⟨rest, hrest, hstep⟩ : ∃ rest, (∀ l ∈ rest, IsLine l.toList) ∧ ∀ condition command, buildStep condition command =
      block ("build_errors=0" :: ("if " ++ condition ++ "; then") :: ("    " ++ command ++ " >\"$output\" 2>&1") :: rest) := by
    refine ⟨_, ?_, fun _ _ => rfl⟩
    simp only [List.forall_mem_cons]
    repeat rw [String.toList_ofList]
    decide
  have hbuild : Reads (fun tools _ => block (("    " ++ join tools.build.command ++ " >\"$output\" 2>&1") :: rest)) [.build] :=
    reads_among [] _ (fun _ _ => rfl) nofun hrest (reads_command lexes_indent rfl rfl fun _ _ => rfl)
  refine ⟨_, _, hopening.append hbefore, hbuild.append (reads_verdict .prePush), fun tools sectionName => ?_⟩
  rw [hscript, hstep]
  simp only [block_cons, block_nil, String.empty_append, String.append_assoc]

/-! The condition for the build. -/

/-- The name of the script that a build runs has no single quote. -/
def Unbroken (command : List String) : Prop :=
  ∀ name rest, command = "npm" :: "run" :: name :: rest → '\'' ∉ name.toList

section condition

variable {name : String}

theorem script_or_true (command : List String) : (∃ name rest, command = "npm" :: "run" :: name :: rest) ∨
    buildCondition command = "true" ∧ conditionTokens command = [wordOf "true"] := by
  fun_cases buildCondition command with
  | case1 name rest => exact .inl ⟨name, rest, rfl⟩
  | case2 =>
    refine .inr ⟨rfl, ?_⟩
    unfold conditionTokens
    split
    case h_1 name rest hnone => cases hnone name rest rfl
    case h_2 => rfl

/-- The tokens of the condition before the pattern. -/
def searchTokens : List Token :=
  [wordOf "if", .word [.special '['], wordOf "-f", wordOf "package.json", wordOf "]", .operator ['&', '&'], wordOf "grep",
    wordOf "-q"]

theorem lexes_search : Lexes "if [ -f package.json ] && grep -q ".toList searchTokens := by
  rw [Lexes]
  decide

theorem quote_mem_pattern : '\'' ∈ (pattern name).toList ↔ '\'' ∈ name.toList := by
  simp [pattern]

/-- The line of the condition, up to the pattern and after it. -/
theorem toList_condition (name : String) (rest : List String) :
    ("if " ++ buildCondition ("npm" :: "run" :: name :: rest) ++ "; then" ++ "\n").toList =
      "if [ -f package.json ] && grep -q ".toList ++
        (('\'' :: ((pattern name).toList ++ ['\'', ' '])) ++ "package.json; then\n".toList) := by
  have hbefore : "if ".toList ++ "[ -f package.json ] && grep -q '\"".toList =
      "if [ -f package.json ] && grep -q ".toList ++ ('\'' :: "\"".toList) := by decide
  have hafter : "\"[[:space:]]*:' package.json".toList ++ ("; then".toList ++ "\n".toList) =
      "\"[[:space:]]*:".toList ++ (['\'', ' '] ++ "package.json; then\n".toList) := by decide
  calc ("if " ++ buildCondition ("npm" :: "run" :: name :: rest) ++ "; then" ++ "\n").toList
    _ = ("if " ++ ("[ -f package.json ] && grep -q '\"" ++ name ++ "\"[[:space:]]*:' package.json") ++ "; then" ++
        "\n").toList := rfl
    _ = ("if ".toList ++ "[ -f package.json ] && grep -q '\"".toList) ++
        (name.toList ++ ("\"[[:space:]]*:' package.json".toList ++ ("; then".toList ++ "\n".toList))) := by
      simp only [String.toList_append, List.append_assoc]
    _ = _ := by
      rw [hbefore, hafter]
      simp only [pattern, String.toList_append, List.append_assoc, List.cons_append]

theorem fill_condition (tools : Tools) (sectionName : String) : Part.condition.line.flatMap (Part.fill tools sectionName) =
    wordOf "if" :: (conditionTokens tools.build.command ++ [.operator [';'], wordOf "then", .newline]) := by
  have hrest : (run ground ("; then".toList ++ ['\n'])).1 = [.operator [';'], wordOf "then", .newline] := by decide
  rw [← hrest, ← fill_fixed]
  rfl

theorem reads_condition {tools : Tools} (h : Unbroken tools.build.command) (sectionName : String) :
    Lexes ("if " ++ buildCondition tools.build.command ++ "; then" ++ "\n").toList
      (Part.condition.line.flatMap (Part.fill tools sectionName)) := by
  rw [fill_condition]
  rcases script_or_true tools.build.command with ⟨name, rest, hcommand⟩ | ⟨hcondition, htokens⟩
  · have hname : '\'' ∉ (pattern name).toList := fun hmem => h name rest hcommand (quote_mem_pattern.mp hmem)
    have hafter : Lexes "package.json; then\n".toList
        [wordOf "package.json", .operator [';'], wordOf "then", .newline] := by
      rw [Lexes]
      decide
    rw [hcommand, toList_condition]
    exact lexes_search.append ((lexes_single hname).append hafter)
  · have htrue : Lexes ("if " ++ "true" ++ "; then" ++ "\n").toList
        [wordOf "if", wordOf "true", .operator [';'], wordOf "then", .newline] := by
      rw [Lexes]
      decide
    rw [hcondition, htokens]
    exact htrue

/-- A single quote in the name of the script ends the pattern. -/
theorem lex_condition_ne (hname : '\'' ∈ name.toList) (rest : List String) (after : List Char) :
    ∃ us, lex (("if " ++ buildCondition ("npm" :: "run" :: name :: rest) ++ "; then" ++ "\n").toList ++ after) =
      wordOf "if" :: us ∧ ∀ ts, us ≠ conditionTokens ("npm" :: "run" :: name :: rest) ++ ts := by
  have hlast : ∃ c ∈ (pattern name).toList.getLast?, isKept c = true := by
    refine ⟨':', ?_, by decide⟩
    have hcolon : "\"[[:space:]]*:".toList.getLast? = some ':' := by decide
    rw [pattern, String.toList_append, List.getLast?_append_of_ne_nil _ (by decide), hcolon]
    rfl
  have hlex := lex_unquoted_ne (quote_mem_pattern.mpr hname) hlast
  rw [toList_condition, List.append_assoc, lexes_search.lex_append]
  refine ⟨_, rfl, fun ts h => ?_⟩
  have hword : lex (('\'' :: ((pattern name).toList ++ ['\'', ' ']) ++ "package.json; then\n".toList) ++ after) =
      wordOf (pattern name) :: wordOf "package.json" :: ts :=
    List.append_cancel_left (show searchTokens.tail ++ _ = searchTokens.tail ++ _ from h)
  rw [List.append_assoc, List.cons_append, List.append_assoc] at hword
  exact hlex _ _ hword

/-- A name with a quote breaks out of the pattern, wherever the condition stands. -/
theorem lex_broken {tools : Tools} (h : ¬ Unbroken tools.build.command) (after : List Char) :
    ∃ us, lex (("if " ++ buildCondition tools.build.command ++ "; then" ++ "\n").toList ++ after) = wordOf "if" :: us ∧
      ∀ ts, us ≠ conditionTokens tools.build.command ++ ts := by
  simp only [Unbroken, not_forall, not_not] at h
  obtain ⟨name, rest, hcommand, hname⟩ := h
  rw [hcommand]
  exact lex_condition_ne hname rest after

end condition

/-- Whatever is configured is read as words where the template has its holes, and the rest of the template is read as it
is. Only a single quote in the name of the script that the build runs changes what is read, and that from the condition
on, which is then another one. -/
theorem configured_as_words (kind : HookKind) (level : EnforcementLevel) :
    ∃ lines, IsTemplate lines (holes kind) ∧ ∀ tools sectionName,
      ((kind = .prePush → Unbroken tools.build.command) →
        lex (script kind level tools sectionName).toList = fillAll lines tools sectionName) ∧
      (kind = .prePush → ¬ Unbroken tools.build.command → ∃ before after us,
        lines = before ++ Part.condition.line :: after ∧
        lex (script kind level tools sectionName).toList = fillAll before tools sectionName ++ wordOf "if" :: us ∧
        ∀ ts, us ≠ conditionTokens tools.build.command ++ ts) := by
  cases kind
  case preCommit =>
    obtain ⟨opening, hopening, hscript⟩ := reads_opening .preCommit level
    have hmiddle : Reads (fun _ _ => suppressionStep ++ block ["build_errors=0"]) [] :=
      reads_suppressionStep.append (reads_block (by decide))
    obtain ⟨lines, htemplate, hlexes⟩ := (hopening.append hmiddle).append (reads_verdict .preCommit)
    refine ⟨lines, htemplate, fun tools sectionName => ⟨fun _ => ?_, nofun⟩⟩
    rw [hscript]
    exact (hlexes tools sectionName).lex_eq
  case prePush =>
    obtain ⟨before, after, ⟨lines, htemplate, hlexes⟩, ⟨lines', htemplate', hlexes'⟩, hscript⟩ :=
      reads_around_condition level
    have hcondition : IsTemplate [Part.condition.line] [.condition] := ⟨by decide, by decide⟩
    refine ⟨lines ++ Part.condition.line :: lines', htemplate.append (hcondition.append htemplate'),
      fun tools sectionName => ⟨fun h => ?_, fun _ h => ?_⟩⟩
    · have hline := reads_condition (h rfl) sectionName
      rw [hscript, String.toList_append, String.toList_append, fillAll_append, fillAll, fillAll, List.flatten_cons,
        List.flatMap_append]
      exact ((hlexes tools sectionName).append (hline.append (hlexes' tools sectionName))).lex_eq
    · obtain ⟨us, hus, hne⟩ := lex_broken h (after tools sectionName).toList
      refine ⟨lines, lines', us, rfl, ?_, hne⟩
      rw [hscript, String.toList_append, String.toList_append, (hlexes tools sectionName).lex_append, hus]

/-- A name with quotes runs a command of its own. -/
theorem name_runs_command :
    let command := ["npm", "run", "a';true;'b"]
    let line := ("if " ++ buildCondition command ++ "; then" ++ "\n").toList
    (∃ before after, (run ground before).2 = ground ∧
      (script .prePush .advisory { build := { command := command } } "bastion").toList = before ++ (line ++ after)) ∧
    Lexes line [wordOf "if", .word [.special '['], wordOf "-f", wordOf "package.json", wordOf "]", .operator ['&', '&'],
      wordOf "grep", wordOf "-q", wordOf "\"a", .operator [';'], wordOf "true", .operator [';'],
      wordOf "b\"[[:space:]]*:", wordOf "package.json", .operator [';'], wordOf "then", .newline] ∧
    ¬ Lexes line (wordOf "if" :: (conditionTokens command ++ [.operator [';'], wordOf "then", .newline])) := by
  intro command line
  obtain ⟨before, after, ⟨lines, -, hlexes⟩, -, hscript⟩ := reads_around_condition .advisory
  let tools : Tools := { build := { command := command } }
  refine ⟨⟨(before tools "bastion").toList, (after tools "bastion").toList, ?_, ?_⟩, ?_, ?_⟩
  · rw [hlexes]
  · rw [hscript, String.toList_append, String.toList_append]
  · unfold Lexes
    decide
  · unfold Lexes
    decide

end QualityGate.Hook
