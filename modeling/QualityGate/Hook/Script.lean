import QualityGate.Policy.Basic
import QualityGate.Settings.Tools

/-! The text of the git hooks. A hook runs the tools itself and blocks under
the same conditions as the policy. -/

namespace QualityGate.Text.ShellWords

/-! Words of a POSIX shell command line. -/

/-- Characters that need no quoting. -/
def isPlain (c : Char) : Bool := c.isAlphanum || "_@%+=:,./-".toList.contains c

/-- A single quote inside quotes is written by closing them, quoting it doubly and opening them again. -/
def escape (c : Char) : List Char := if c == '\'' then "'\"'\"'".toList else [c]

def quote (w : String) : String :=
  let cs := w.toList
  if cs.isEmpty then "''"
  else if cs.all isPlain then w
  else String.ofList ('\'' :: cs.flatMap escape ++ ['\''])

def join (ws : List String) : String := " ".intercalate (ws.map quote)

end QualityGate.Text.ShellWords

namespace QualityGate

inductive HookKind where
  | preCommit | prePush
  deriving DecidableEq, Repr

instance : Labelled HookKind where
  members := [.preCommit, .prePush]
  label
    | .preCommit => "pre-commit"
    | .prePush => "pre-push"
  title := "HookKind"

namespace Hook

open Text

/-- The line by which a managed script is known. -/
def marker : String := "# bastion-managed-hook"

def isManaged (text : List Char) : Bool := contains marker.toList text

def block (lines : List String) : String := "".intercalate (lines.map (· ++ "\n"))

def preamble : String := block [
  "cd \"$(git rev-parse --show-toplevel)\" || exit 1",
  "",
  "protection=$(git config --get \"$section.protection-mode\" 2>/dev/null)",
  "if [ \"$protection\" != \"true\" ]; then",
  "    exit 0",
  "fi",
  "",
  "strict=$(git config --get \"$section.strict-mode\" 2>/dev/null)",
  "if [ \"$strict\" = \"true\" ]; then",
  "    level=\"zero-tolerance\"",
  "elif [ \"$strict\" = \"false\" ]; then",
  "    level=\"advisory\"",
  "fi",
  "",
  "output=$(mktemp 2>/dev/null || echo \"/tmp/bastion-hook.$$\")",
  "trap 'rm -f \"$output\"' EXIT",
  "trap 'rm -f \"$output\"; exit 130' INT TERM",
  "",
  "to_count() \x7b",
  "    case \"$1\" in",
  "        ''|*[!0-9]*) echo 0 ;;",
  "        *) echo \"$1\" ;;",
  "    esac",
  "\x7d"]

def typeCheckStep (command : String) : String := block [
  "type_errors=0",
  "if [ -f tsconfig.json ] || [ -f jsconfig.json ]; then",
  "    " ++ command ++ " >\"$output\" 2>&1",
  "    status=$?",
  "    type_errors=$(to_count \"$(grep -c 'error TS[0-9]' \"$output\")\")",
  "    if [ \"$status\" -ne 0 ] && [ \"$type_errors\" -eq 0 ]; then",
  "        echo \"bastion: type-check failed without reporting errors:\"",
  "        tail -n 20 \"$output\"",
  "        type_errors=1",
  "    fi",
  "fi"]

def lintStep (command : String) : String := block [
  "lint_errors=0",
  "lint_warnings=0",
  command ++ " >\"$output\" 2>&1",
  "status=$?",
  "summary=$(grep -E '[0-9]+ problems? \\(' \"$output\" | tail -n 1)",
  "if [ -n \"$summary\" ]; then",
  "    lint_errors=$(to_count \"$(echo \"$summary\" | sed -n 's/.*(\\([0-9][0-9]*\\) errors*,.*/\\1/p')\")",
  "    lint_warnings=$(to_count \"$(echo \"$summary\" | sed -n 's/.*, \\([0-9][0-9]*\\) warnings*).*/\\1/p')\")",
  "elif [ \"$status\" -ne 0 ]; then",
  "    echo \"bastion: lint failed without a summary:\"",
  "    tail -n 20 \"$output\"",
  "    lint_errors=1",
  "fi"]

def sourceGlobs : List String := ["*.ts", "*.tsx", "*.js", "*.jsx", "*.mts", "*.cts", "*.mjs", "*.cjs"]

/-- Added lines that silence everything. -/
def unsafeSuppression : String :=
  "@ts-ignore|@ts-nocheck|eslint-disable(-next-line|-line)?[[:space:]]*($|\\*/|--|\\*[[:space:]]*($|\\*/))"

def suppressionStep : String := block [
  "suppressions=$(to_count \"$(git diff --cached -U0 --diff-filter=ACM -- " ++
    " ".intercalate (sourceGlobs.map fun g => "'" ++ g ++ "'") ++ " \\",
  "    | grep -v '^+++ ' | grep '^+' | grep -cE '" ++ unsafeSuppression ++ "')\")"]

def buildStep (condition command : String) : String := block [
  "build_errors=0",
  "if " ++ condition ++ "; then",
  "    " ++ command ++ " >\"$output\" 2>&1",
  "    status=$?",
  "    if [ \"$status\" -ne 0 ]; then",
  "        build_errors=$(to_count \"$(grep -cE 'error TS[0-9]|ERROR|[Ee]rror:' \"$output\")\")",
  "        if [ \"$build_errors\" -eq 0 ]; then",
  "            build_errors=1",
  "        fi",
  "        echo \"bastion: build failed:\"",
  "        tail -n 20 \"$output\"",
  "    fi",
  "fi"]

/-- A lint command without its output format, so that it prints its summary. -/
def withoutFormat : List String → List String
  | [] => []
  | "--format" :: rest => withoutFormat (rest.drop 1)
  | "-f" :: rest => withoutFormat (rest.drop 1)
  | part :: rest =>
    if "--format=".toList.isPrefixOf part.toList then withoutFormat rest else part :: withoutFormat rest
termination_by parts => parts.length

/-- The build runs only where the package has the script that it would run. -/
def buildCondition (command : List String) : String :=
  match command with
  | "npm" :: "run" :: script :: _ =>
    "[ -f package.json ] && grep -q '\"" ++ script ++ "\"[[:space:]]*:' package.json"
  | _ => "true"

structure Ending where
  breakdown : String
  tail : String
  bypass : String

def ending (kind : HookKind) : Ending :=
  match kind with
  | .preCommit =>
    ⟨"(type-check: $type_errors, lint: $lint_errors)", ", $suppressions unsafe suppression(s)", "git commit --no-verify"⟩
  | .prePush => ⟨"(type-check: $type_errors, lint: $lint_errors, build: $build_errors)", "", "git push --no-verify"⟩

def verdict (kind : HookKind) : String :=
  let name := Labelled.label kind
  let e := ending kind
  block [
    "",
    "errors=$((type_errors + lint_errors + build_errors))",
    "warnings=$lint_warnings",
    "echo \"bastion: $errors error(s) " ++ e.breakdown ++ ", $warnings warning(s) (lint: $lint_warnings)" ++ e.tail ++ "\"",
    "",
    "blocked=0",
    "if [ \"$errors\" -gt 0 ]; then",
    "    blocked=1",
    "fi",
    "if [ \"$level\" = \"zero-tolerance\" ]; then",
    "    if [ \"$warnings\" -gt 0 ] || [ \"$suppressions\" -gt 0 ]; then",
    "        blocked=1",
    "    fi",
    "fi",
    "",
    "if [ \"$blocked\" -eq 1 ]; then",
    "    echo \"bastion: " ++ name ++ " blocked ($level mode)\"",
    "    echo \"Fix the issues above, or bypass once with: " ++ e.bypass ++ "\"",
    "    exit 1",
    "fi",
    "echo \"bastion: " ++ name ++ " checks passed ($level mode)\"",
    "exit 0"]

def script (kind : HookKind) (level : EnforcementLevel) (tools : Tools) (sectionName : String) : String :=
  let header := block [
    "#!/bin/sh",
    marker ++ " (" ++ Labelled.label kind ++ ")",
    "# Generated by bastion; reinstalling overwrites this file.",
    "",
    "section=" ++ ShellWords.quote sectionName,
    "level=" ++ ShellWords.quote (Labelled.label level),
    ""]
  let middle := match kind with
    | .preCommit => suppressionStep ++ block ["build_errors=0"]
    | .prePush =>
      block ["suppressions=0"] ++
        buildStep (buildCondition tools.build.command) (ShellWords.join tools.build.command)
  header ++ preamble ++ "\n" ++ typeCheckStep (ShellWords.join tools.typeCheck.command) ++ "\n" ++
    lintStep (ShellWords.join (withoutFormat tools.lint.command)) ++ "\n" ++ middle ++ verdict kind

end Hook

end QualityGate
