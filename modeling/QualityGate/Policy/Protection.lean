import QualityGate.Count.Counter
import QualityGate.Hook.Install
import QualityGate.Policy.Verdict
import QualityGate.Report.Audit

/-! Protection of one workspace: the transitions of its state, and decisions
from a snapshot of it. -/

namespace QualityGate

/-- What protection works with. -/
structure Protection where
  root : Path
  config : Config
  count : Run ErrorCount
  audit : Run Report
  editor : Option Provider
  /-- Counting and auditing wait for other work; where they do not, what is begun is done at once. -/
  countWaits : Bool := true
  auditWaits : Bool := true

/-- A change of the state. -/
inductive Transition where
  | enable (strict : Option Bool) (installHooks : Bool)
  | disable (uninstallHooks : Bool)
  | restore (state : PolicyState)

/-- An action that asks for permission. -/
structure Request where
  trigger : Trigger
  file : Option String := none
  override : Bool := false

namespace Protection

def standard (root : Path) (config : Config) (editor : Option Provider) : Protection where
  root
  config
  count := Count.run root config editor
  audit := Audit.run root config Check.all
  editor

/-- The class that follows from the counts alone; none where the size of the project decides. -/
def classOfCount (count : Outcome ErrorCount) : Outcome (Option ProjectClass) :=
  match count with
  | .error e => if e.endsRun then .error e else .error (.unclassified ("error count failed: " ++ e.message))
  | .ok c =>
    if c.suspiciousZero then
      .error (.unclassified ("counts unreliable, " ++ ", ".intercalate c.failedTools ++ " failed"))
    else .ok (if 0 < c.total then some .legacyWithErrors else none)

/-- The class of a project without errors. -/
def classOfSize (threshold : Int) (files : Outcome (List Path)) : Outcome ProjectClass :=
  match files with
  | .error e => if e.isSystem then .error (.unclassified ("file discovery failed: " ++ e.message)) else .error e
  | .ok ps =>
    let size : Int := ps.countP fun p => Path.isSourceFile p.text
    .ok (if size < threshold then .fresh else .legacy)

def classOfFiles (p : Protection) : Run ProjectClass := do
  let w ← Run.workspace
  Run.lift (classOfSize p.config.newProjectFileThreshold (Discovery.files w p.root p.config.files))

def classify (p : Protection) : Run ProjectClass := do
  match ← Run.lift (classOfCount (← Run.attempt p.count)) with
  | some c => return c
  | none => p.classOfFiles

/-- A project that cannot be classified is of unknown class. -/
def settledClass (classified : Outcome ProjectClass) : Outcome ProjectClass :=
  match classified with
  | .error (.unclassified _) => .ok .unknown
  | r => r

def levelFor (p : Protection) (strict : Option Bool) : EnforcementLevel :=
  EnforcementLevel.ofStrict (strict.getD p.config.strictMode)

def configureGit (p : Protection) (protection strict : Bool) : Run Bool := do
  Run.edit ((← get).git.configureProtection p.root p.config.gitConfigSection protection strict)

def installHooks (p : Protection) (level : EnforcementLevel) : Run Unit := do
  let _ ← Run.edit (Hook.installAll p.root level p.config.tools p.config.gitConfigSection Hook.allKinds)
  let _ ← p.configureGit true (level == .zeroTolerance)

def uninstallHooks (p : Protection) : Run Unit := do
  let _ ← Run.edit (Hook.uninstallAll p.root Hook.allKinds)
  let _ ← p.configureGit false false

/-- The end of every transition: its state is made known. -/
def enter (state : PolicyState) : Run PolicyState := do
  Run.publish (.policyTransition state)
  return state

def enableAs (p : Protection) (strict : Option Bool) (installHooks : Bool) (classified : Outcome ProjectClass) :
    Run PolicyState := do
  let projectClass ← Run.lift (settledClass classified)
  let level := p.levelFor strict
  if installHooks then p.installHooks level
  enter { enabled := true, level, projectClass }

/-- The state that a transition leads to. One that fails leads to none and makes nothing known. -/
def perform (p : Protection) : Transition → Run PolicyState
  | .enable strict installHooks => do p.enableAs strict installHooks (← Run.attempt p.classify)
  | .disable uninstallHooks => do
    if uninstallHooks then p.uninstallHooks
    enter {}
  | .restore state => enter (if state.enabled then state else {})

/-- The decision on an action, from a snapshot of the state. -/
def decide (p : Protection) (state : PolicyState) (r : Request) : Run Decision := do
  if !state.enabled then return { allowed := true, reason := "Protection is disabled", trigger := r.trigger }
  match r.trigger with
  | .save =>
    match r.file with
    | none => throw (.badValue "Save decisions need the file being saved")
    | some file => do
      let w ← Run.workspace
      Run.lift (state.saveVerdict file (p.editor.map fun e => e.ofFile w file))
  | .commit =>
    if state.commitsFreely then return state.freeCommit
    else Run.lift (state.commitVerdict r.override (← Run.attempt p.audit))
  | .build => Run.lift (state.buildVerdict (← Run.attempt p.count))

end Protection

end QualityGate
