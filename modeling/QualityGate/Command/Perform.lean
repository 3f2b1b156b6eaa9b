import QualityGate.Command.Basic
import QualityGate.Command.Display
import QualityGate.Count.Fix
import QualityGate.Policy.Store

/-! Performing a command: what it prints and how it ends. -/

namespace QualityGate.Command

namespace Act

def loadConfig (t : Target) : Act Config := do
  let p := t.configFile
  match Config.load (← workspace) p with
  | .ok c => return c
  | .error e =>
    match e with
    | .invalid _ | .yaml =>
      say ("[red]Invalid configuration in " ++ p.text ++ ":[/red]\n" ++ e.message)
      throw (.exit 1)
    | e => throw (.failed e)

/-- Where the state of protection is kept; the directory is made if it is missing. -/
def stateFile (root : Path) : Run Path := do return (← Run.edit (Config.createDirectory root)).child "policy.json"

def loadState (root : Path) : Run PolicyState := do
  let p ← stateFile root
  Run.lift (PolicyStore.load (← Run.workspace) p)

/-! Reports and counts. -/

def audit (t : Target) (output : Option Path) (asJson : Bool) (limit : Int) : Act Unit := do
  let config ← loadConfig t
  let r ← perform (Audit.run t.root config Check.all)
  if let some p := output then perform (Run.edit (Audit.write r p))
  if asJson then write (r.text ++ "\n")
  else
    say ("\n[bold]Auditing:[/bold] " ++ t.root.text ++ " (" ++ toString r.totalFiles ++ " files)\n")
    sayReport r limit
    say (if r.passed then "[bold green]Result: PASS[/bold green]\n" else "[bold red]Result: FAIL[/bold red]\n")
  if !r.passed then throw (.exit 1)

def count (t : Target) (diagnostics : Option Path) : Act Unit := do
  let config ← loadConfig t
  let c ← perform (Count.run t.root config (diagnostics.map fun p => .exported p (some t.root)))
  write (countTable c).text
  if c.suspiciousZero then
    say ("[yellow]Counts are zero but " ++ ", ".intercalate c.failedTools ++
      " failed; treat them as unknown.[/yellow]")

def fix (t : Target) (files : List String) : Act Unit := do
  let config ← loadConfig t
  let f ← reporting "[red]Auto-fix failed:[/red] " (Fix.run t.root config files)
  say ("Lint errors: " ++ toString f.before.lintErrors ++ " -> " ++ toString f.after.lintErrors ++
    ", warnings: " ++ toString f.before.lintWarnings ++ " -> " ++ toString f.after.lintWarnings)
  say ("[green]Fixed " ++ toString f.fixedErrors ++ " error(s) and " ++ toString f.fixedWarnings ++
    " warning(s)[/green]")

/-! Watching. -/

/-- Counts again and again until the user interrupts; a count that fails is passed over. -/
def watchFrom (t : Target) (config : Config) : Nat → Option ErrorCount → Act Unit
  | 0, _ => pure ()
  | fuel + 1, latest => do
    match ← attempt (Count.run t.root config none) with
    | .ok c =>
      sayCount latest c
      watchFrom t config fuel (some c)
    | .error (.interrupted _) => pure ()
    | .error _ => watchFrom t config fuel latest

/-- One count more than there are replies of tools to come. -/
def watchBound (s : Session) : Nat := s.bench.replies.foldl (fun n r => n + r.2.length) 1

def watch (t : Target) (interval : Option Float) : Act Unit := do
  let config ← loadConfig t
  let interval := (interval.filter (· != 0)).getD config.pollInterval
  say ("[bold]Watching[/bold] " ++ t.root.text ++ " every " ++ Decimal.text interval ++ "s (Ctrl+C to stop)")
  watchFrom t config (watchBound (← get).session) none
  say "\n[dim]Stopped[/dim]"

/-! Protection. -/

def enable (t : Target) (strict : Option Bool) (hooks : Bool) : Act Unit := do
  let config ← loadConfig t
  let p := Protection.standard t.root config none
  let s ← reporting "[red]Could not enable protection:[/red] " (p.perform (.enable strict hooks))
  let file ← perform (stateFile t.root)
  perform (Run.edit (Edit.change (PolicyStore.save file s)))
  say ("[green]Protection enabled[/green] (" ++ Labelled.label s.level ++ ", project classified as " ++
    Labelled.label s.projectClass ++ ")")

def disable (t : Target) (hooks : Bool) : Act Unit := do
  let config ← loadConfig t
  let _ ← perform ((Protection.standard t.root config none).perform (.disable hooks))
  let file ← perform (stateFile t.root)
  perform (Run.edit (Edit.change (PolicyStore.clear file)))
  say "[yellow]Protection disabled[/yellow]"

/-- The saved state. A failure to load it is shown in red. -/
def savedState (root : Path) : Act PolicyState := do
  match ← attempt (loadState root) with
  | .ok s => return s
  | .error e =>
    if e.isGateFailure then
      say ("[red]" ++ e.message ++ "[/red]")
      throw (.exit 1)
    else throw (.failed e)

def status (t : Target) : Act Unit := do
  let s ← savedState t.root
  if s.enabled then
    say ("Protection is [green]enabled[/green]: " ++ Labelled.label s.level ++ ", project class " ++
      Labelled.label s.projectClass)
  else say "Protection is [yellow]disabled[/yellow]"

def gate (t : Target) (r : Request) (diagnostics : Option Path) : Act Unit := do
  let config ← loadConfig t
  let saved ← savedState t.root
  let p := Protection.standard t.root config (diagnostics.map fun f => .exported f (some t.root))
  let s ← perform (p.perform (.restore saved))
  let d ← perform (p.decide s r)
  say (decisionLine d)
  if !d.allowed then throw (.exit 1)

/-! Hooks. -/

def configureGit (t : Target) (config : Config) (protection strict : Bool) : Run Bool :=
  (Protection.standard t.root config none).configureGit protection strict

def installHooks (t : Target) (strict : Option Bool) : Act Unit := do
  let config ← loadConfig t
  let strict := strict.getD config.strictMode
  let level := EnforcementLevel.ofStrict strict
  let installed ← reporting "[red]Could not install hooks:[/red] "
    (Run.edit (Hook.installAll t.root level config.tools config.gitConfigSection Hook.allKinds))
  let _ ← perform (configureGit t config true strict)
  installed.forM fun i => do
    let backup := i.backup.elim "" fun p => " (previous hook saved to " ++ p.name ++ ")"
    say ("  " ++ Labelled.label i.kind ++ ": " ++ Labelled.label i.action ++ backup)

def uninstallHooks (t : Target) : Act Unit := do
  let config ← loadConfig t
  let removed ← perform (Run.edit (Hook.uninstallAll t.root Hook.allKinds))
  let _ ← perform (configureGit t config false false)
  if removed.isEmpty then say "No bastion hooks installed"
  removed.forM fun p => say ("  removed " ++ p.name)

def showHook (t : Target) (kind : HookKind) (strict : Bool) : Act Unit := do
  let config ← loadConfig t
  write (Hook.script kind (EnforcementLevel.ofStrict strict) config.tools config.gitConfigSection)

def versionText : String := "0.1.0"

end Act

def act : Command → Act Unit
  | .audit t output asJson limit => Act.audit t output asJson limit
  | .count t diagnostics => Act.count t diagnostics
  | .fix t files => Act.fix t files
  | .watch t interval => Act.watch t interval
  | .enable t strict hooks => Act.enable t strict hooks
  | .disable t hooks => Act.disable t hooks
  | .status t => Act.status t
  | .gate t r diagnostics => Act.gate t r diagnostics
  | .installHooks t strict => Act.installHooks t strict
  | .uninstallHooks t => Act.uninstallHooks t
  | .showHook t kind strict => Act.showHook t kind strict
  | .version => Act.say ("bastion " ++ Act.versionText)

/-- What a command line came to. -/
structure Performed where
  output : String
  ending : Ending
  session : Session

namespace Performed

def usageCode : Nat := 2

/-- An interruption has a code of its own. -/
def exitCode (p : Performed) : Nat :=
  match p.ending with
  | .exit code => code
  | .failed (.interrupted _) => 130
  | .failed _ => 1

/-- The failure that the command left unreported. -/
def unreported? (p : Performed) : Option Failure :=
  match p.ending with
  | .failed (.interrupted _) | .exit _ => none
  | .failed e => some e

end Performed

/-- Performs the command of a command line in a session. -/
def performLine (line : List String) (s : Session) : Performed :=
  match ofLine? s.workspace line with
  | none => ⟨"", .exit Performed.usageCode, s⟩
  | some c =>
    let (o, console) := (act c).run { session := s }
    let ending := match o with
      | .ok () => .exit 0
      | .error e => e
    ⟨String.join console.printed.reverse, ending, console.session⟩

end QualityGate.Command
