import QualityGate.Command.Options
import QualityGate.Hook.Script
import QualityGate.Json.WholeNumber
import QualityGate.Policy.Protection
import QualityGate.Settings.File

/-! The commands and how their command lines are written. -/

namespace QualityGate

/-- What a command works on: the project's directory, and the configuration file if it is not the
usual one. -/
structure Target where
  root : Path
  config : Option Path := none

def Target.configFile (t : Target) : Path := t.config.getD (t.root.join Config.usualFile)

inductive Command where
  | audit (t : Target) (output : Option Path) (asJson : Bool) (limit : Int)
  | count (t : Target) (diagnostics : Option Path)
  | fix (t : Target) (files : List String)
  | watch (t : Target) (interval : Option Float)
  | enable (t : Target) (strict : Option Bool) (hooks : Bool)
  | disable (t : Target) (hooks : Bool)
  | status (t : Target)
  | gate (t : Target) (request : Request) (diagnostics : Option Path)
  | installHooks (t : Target) (strict : Option Bool)
  | uninstallHooks (t : Target)
  | showHook (t : Target) (kind : HookKind) (strict : Bool)
  | version

namespace Command

def rootOption : Opt := { name := "root", spellings := ["--root", "-r"] }

def configOption : Opt := { name := "config", spellings := ["--config", "-c"] }

def diagnosticsOption : Opt := { name := "diagnostics", spellings := ["--diagnostics", "-d"] }

def switch (name : String) : Opt := { name, spellings := ["--" ++ name], takesValue := false }

def verboseSwitch : Opt := { name := "verbose", spellings := ["--verbose", "-v"], takesValue := false }

def commonOptions : List Opt := [rootOption, configOption, verboseSwitch]

def strictSwitches : List Opt := [switch "strict", switch "advisory"]

/-- A command by its words, with its options and the most arguments it takes. -/
structure Form where
  words : List String
  options : List Opt
  maxArguments : Option Nat := some 0

def forms : List Form :=
  [⟨["audit"], commonOptions ++ [{ name := "output", spellings := ["--output", "-o"] }, switch "json",
      { name := "limit", spellings := ["--limit"] }], some 0⟩,
    ⟨["count"], commonOptions ++ [diagnosticsOption], some 0⟩,
    ⟨["fix"], commonOptions, none⟩,
    ⟨["watch"], commonOptions ++ [{ name := "interval", spellings := ["--interval", "-i"] }], some 0⟩,
    ⟨["protect", "enable"], commonOptions ++ strictSwitches ++ [switch "hooks"], some 0⟩,
    ⟨["protect", "disable"], commonOptions ++ [switch "hooks"], some 0⟩,
    ⟨["protect", "status"], [rootOption], some 0⟩,
    ⟨["gate", "save"], commonOptions ++ [diagnosticsOption], some 1⟩,
    ⟨["gate", "commit"], commonOptions ++ [switch "override"], some 0⟩,
    ⟨["gate", "build"], commonOptions, some 0⟩,
    ⟨["hooks", "install"], [rootOption, configOption] ++ strictSwitches, some 0⟩,
    ⟨["hooks", "uninstall"], [rootOption, configOption], some 0⟩,
    ⟨["hooks", "show"], [rootOption, configOption, switch "strict"], some 1⟩,
    ⟨["version"], [], some 0⟩]

/-- The form whose words begin a command line, and the rest of the line. -/
def form? (line : List String) : Option (Form × List String) :=
  (forms.find? fun f => f.words.isPrefixOf line).map fun f => (f, line.drop f.words.length)

/-- The directory of a project, its links followed; what is there must not be a file. -/
def root? (w : Workspace) (text : String) : Option Path :=
  let p := w.absolute (.ofText text)
  let p := (w.resolve p).toOption.getD p
  if w.isFile p then none else some p

/-- A value that must be readable if it is given. -/
def readable? {α : Type} (read : String → Option α) (given : Option String) : Option (Option α) :=
  match given with
  | none => some none
  | some s => (read s).map some

def hookKind? (g : Given) : Option HookKind :=
  match g.arguments with
  | [] => some .preCommit
  | name :: _ => Labelled.ofLabel? name

def path? (g : Given) (name : String) : Option Path := (g.value? name).map Path.ofText

/-- The command that a form and what was given with it make up. -/
def ofGiven? (w : Workspace) (f : Form) (g : Given) : Option Command := do
  let t : Target := { root := ← root? w ((g.value? "root").getD "."), config := path? g "config" }
  match f.words with
  | ["audit"] =>
    let limit ← readable? (fun s => (Numeral.whole 10 s.toList).toOption) (g.value? "limit")
    some (.audit t (path? g "output") (g.has "json") (limit.getD 50))
  | ["count"] => some (.count t (path? g "diagnostics"))
  | ["fix"] => some (.fix t g.arguments)
  | ["watch"] => some (.watch t (← readable? (fun s => Numeral.looseFloat? s.toList) (g.value? "interval")))
  | ["protect", "enable"] => some (.enable t (g.either? "strict" "advisory") (g.has "hooks"))
  | ["protect", "disable"] => some (.disable t (g.has "hooks"))
  | ["protect", "status"] => some (.status t)
  | ["gate", "save"] =>
    let file ← g.arguments.head?
    let diagnostics ← path? g "diagnostics"
    some (.gate t { trigger := .save, file := some file } (some diagnostics))
  | ["gate", "commit"] => some (.gate t { trigger := .commit, override := g.has "override" } none)
  | ["gate", "build"] => some (.gate t { trigger := .build } none)
  | ["hooks", "install"] => some (.installHooks t (g.either? "strict" "advisory"))
  | ["hooks", "uninstall"] => some (.uninstallHooks t)
  | ["hooks", "show"] => some (.showHook t (← hookKind? g) (g.has "strict"))
  | _ => some .version

/-- The command of a command line; none where the line is not usable. -/
def ofLine? (w : Workspace) (line : List String) : Option Command := do
  let (f, rest) ← form? line
  let g ← readGiven f.options {} rest
  if f.maxArguments.all (g.arguments.length ≤ ·) then ofGiven? w f g else none

end Command

end QualityGate
