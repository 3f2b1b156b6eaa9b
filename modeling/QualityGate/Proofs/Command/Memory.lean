import Mathlib
import QualityGate.Policy.Concurrent
import QualityGate.Proofs.Command.Act
import QualityGate.Proofs.Command.Saved
import QualityGate.Proofs.Policy.RefusedHooks
import QualityGate.Proofs.Policy.Spared

/-! Commands that each begin anew and go by the saved state, beside a protection
that lives on and keeps its state in memory. What is saved is what is kept,
whichever commands succeed and however they fail. -/

open QualityGate.Workspace QualityGate.Console QualityGate.Hook

namespace QualityGate.Command

/-! What the commands do in their session. -/

/-- The commands that bring a project under protection, end it, and ask it for a decision. -/
inductive Use where
  | enable (strict : Option Bool) (hooks : Bool)
  | disable (hooks : Bool)
  | gate (r : Request) (diagnostics : Option Path)

namespace Use

def command (t : Target) : Use → Command
  | enable strict hooks => .enable t strict hooks
  | disable hooks => .disable t hooks
  | gate r diagnostics => .gate t r diagnostics

/-- The transition that a command asks for. -/
def transition? : Use → Option Transition
  | enable strict hooks => some (.enable strict hooks)
  | disable hooks => some (.disable hooks)
  | gate .. => none

end Use

/-- What becomes of the saved state after a transition. -/
def keep : Transition → Path → PolicyState → Workspace → Outcome Workspace
  | .disable _, file, _ => PolicyStore.clear file
  | _, file, state => PolicyStore.save file state

/-- A transition whose state is saved. -/
def keeping (t : Target) (tr : Transition) : Run PolicyState := do
  let config ← Act.configuration t
  let state ← (Protection.standard t.root config none).perform tr
  let file ← Act.stateFile t.root
  Run.edit (Edit.change (keep tr file state))
  return state

/-- The protection that a gate asks. -/
def asked (t : Target) (config : Config) (diagnostics : Option Path) : Protection :=
  .standard t.root config (diagnostics.map fun f => .exported f (some t.root))

/-- The decision of a gate, which it then shows. -/
def deciding (t : Target) (r : Request) (diagnostics : Option Path) : Run Decision := do
  let config ← Act.configuration t
  let saved ← Act.loadState t.root
  let state ← (asked t config diagnostics).perform (.restore saved)
  (asked t config diagnostics).decide state r

namespace Act

theorem shown_enabled (level : EnforcementLevel) (c : ProjectClass) (terminal : Terminal) :
    ∃ t, Console.shown terminal ("[green]Protection enabled[/green] (" ++ Labelled.label level ++ ", project classified as " ++
      Labelled.label c ++ ")") = .ok t := by
  have hlevel : Untagged (Labelled.label level).toList := by cases level <;> simp [Untagged, Labelled.label]
  have hclass : Untagged (Labelled.label c).toList := by cases c <;> simp [Untagged, Labelled.label]
  have hbetween : Untagged ", project classified as ".toList := by simp [Untagged]
  have htail : Untagged (" (" ++ Labelled.label level ++ ", project classified as " ++ Labelled.label c ++ ")").toList := by
    simp only [String.toList_append]
    exact ((((show Untagged " (".toList by simp [Untagged]).append hlevel).append hbetween).append hclass).append
      (by simp [Untagged])
  refine shown_styled "green" "Protection enabled" ?_ ⟨by simp [Bracketless], by decide, by simp, by simp, by cbv⟩
    (by simp [Untagged]) (shows_untagged htail (shows_nil [])) terminal
  simp

theorem shown_disabled (terminal : Terminal) : ∃ t, Console.shown terminal "[yellow]Protection disabled[/yellow]" = .ok t := by
  refine shown_styled "yellow" "Protection disabled" ?_ ⟨by simp [Bracketless], by decide, by simp, by simp, by cbv⟩
    (by simp [Untagged]) (shows_nil []) terminal
  simp

/-- A decision is shown whatever its reason says. -/
theorem shown_decisionLine (d : Decision) (terminal : Terminal) : ∃ t, Console.shown terminal (decisionLine d) = .ok t := by
  have hreason : Shows [] ([' '] ++ (Console.escape d.reason).toList) :=
    shows_untagged (by simp [Untagged]) (shows_escape d.reason)
  rw [decisionLine]
  split
  · refine shown_styled "bold green" "ALLOWED" ?_ ⟨by simp [Bracketless], by decide, by simp, by simp, by cbv⟩
      (by simp [Untagged]) hreason terminal
    simp
  · refine shown_styled "bold red" "BLOCKED" ?_ ⟨by simp [Bracketless], by decide, by simp, by simp, by cbv⟩
      (by simp [Untagged]) hreason terminal
    simp

theorem follows_keeping (t : Target) (tr : Transition) {perform : Run PolicyState → Act PolicyState}
    (hperform : ∀ r, Follows (perform r) r) :
    Follows (do
      let config ← loadConfig t
      let state ← perform ((Protection.standard t.root config none).perform tr)
      let file ← Act.perform (stateFile t.root)
      Act.perform (Run.edit (Edit.change (keep tr file state)))
      return state) (keeping t tr) :=
  .bind (follows_loadConfig t) fun _ => .bind (hperform _) fun _ => .bind (.perform _) fun _ =>
    .bind (.perform _) fun _ => .pure _

theorem follows_deciding (t : Target) (r : Request) (diagnostics : Option Path) :
    Follows (do
      let config ← loadConfig t
      let saved ← savedState t.root
      let state ← Act.perform ((asked t config diagnostics).perform (.restore saved))
      Act.perform ((asked t config diagnostics).decide state r)) (deciding t r diagnostics) :=
  .bind (follows_loadConfig t) fun _ => .bind (follows_savedState _) fun _ => .bind (.perform _) fun _ => .perform _

end Act

section performed

variable {t : Target}

theorem carriesOut_keeping {u : Use} {tr : Transition} (htr : u.transition? = some tr) :
    (u.command t).CarriesOut (keeping t tr) := by
  cases u with
  | enable strict hooks =>
    obtain rfl := Option.some.inj htr
    refine carriesOut_of_said ?_ (Act.follows_keeping t _ (Act.Follows.reporting "[red]Could not enable protection:[/red] "))
      fun state => Act.shown_enabled state.level state.projectClass
    simp only [bind_assoc, pure_bind]
    rfl
  | disable hooks =>
    obtain rfl := Option.some.inj htr
    refine carriesOut_of_said ?_ (Act.follows_keeping t _ Act.Follows.perform) fun _ => Act.shown_disabled
    simp only [bind_assoc, pure_bind]
    rfl
  | gate => cases htr

/-- A gate shows its decision, and ends with 0 where that allows the action. -/
theorem performed_gate (t : Target) (r : Request) (diagnostics : Option Path) (s : Session) :
    (∃ d text, (deciding t r diagnostics s).1 = .ok d ∧
        Console.shown (deciding t r diagnostics s).2.terminal (Act.decisionLine d) = .ok text ∧
        (Command.gate t r diagnostics).performed s =
          ⟨text ++ "\n", .exit (if d.allowed then 0 else 1), (deciding t r diagnostics s).2⟩) ∨
      ∃ e, (deciding t r diagnostics s).1 = .error e ∧
        ((Command.gate t r diagnostics).performed s).session = (deciding t r diagnostics s).2 ∧
        ((Command.gate t r diagnostics).performed s).exitCode ≠ 0 := by
  have hact : act (.gate t r diagnostics) = (do
      let config ← Act.loadConfig t
      let saved ← Act.savedState t.root
      let state ← Act.perform ((asked t config diagnostics).perform (.restore saved))
      Act.perform ((asked t config diagnostics).decide state r)) >>= (fun d => do
        Act.say (Act.decisionLine d)
        if !d.allowed then throw (.exit 1)) := by
    simp only [bind_assoc]
    rfl
  rcases performed_cases hact (Act.follows_deciding t r diagnostics) s with
    ⟨d, s', hdeciding, hdone⟩ | ⟨e, s', hdeciding, hsession, hcode⟩
  · obtain ⟨text, htext⟩ := Act.shown_decisionLine d s'.terminal
    refine .inl ⟨d, text, by rw [hdeciding], by rw [hdeciding, htext], ?_⟩
    rw [hdone, Act.bind_of_ok (Act.say_of_shown htext), hdeciding]
    cases d.allowed with
    | true => exact Performed.ofConsole_line (.ok ()) _ s'
    | false => exact Performed.ofConsole_line (.error (.exit 1)) _ s'
  · exact .inr ⟨e, by rw [hdeciding], by rw [hsession, hdeciding], hcode⟩

end performed

/-! The state that a protection keeps in memory beside the commands. -/

/-- The state that a transition leads a protection to which is in a state already. -/
def Use.entered (t : Target) (u : Use) (x : Protected) : PolicyState :=
  match u.transition? with
  | none => x.state
  | some tr =>
    match Config.load x.session.workspace t.configFile with
    | .error _ => x.state
    | .ok config => (Protected.transit (.standard t.root config none) tr x).2.state

/-- What becomes of the session by a command, and of the state in memory by the transition where the command succeeds. -/
def step (t : Target) (x : Protected) (u : Use) : Protected :=
  let done := (u.command t).performed x.session
  { session := done.session, state := if done.exitCode = 0 then u.entered t x else x.state }

def after (t : Target) (us : List Use) (x : Protected) : Protected := us.foldl (step t) x

/-- The state in memory is the saved one. -/
structure Recalls (ways : List (List String)) (root : Path) (x : Protected) : Prop where
  guarded : Guarded ways root x.session.workspace
  saved : Saved root x.session.workspace x.state

section recalls

variable {ways : List (List String)} {t : Target} {x : Protected} {s : Session} {state : PolicyState}

theorem Recalls.spared (h : Recalls ways t.root x)
    (hspared : Spares ways (statePlace x.session.workspace t.root) x.session.workspace s.workspace) :
    Recalls ways t.root ⟨s, x.state⟩ := ⟨h.guarded.kept hspared.toKeepsWays, h.saved.spared h.guarded.way hspared⟩

theorem Recalls.sparesFile {α : Type} {r : Run α} (h : Recalls ways t.root x)
    (hr : r.SparesFile "policy.json" ways t.root (statePlace x.session.workspace t.root)) :
    Recalls ways t.root ⟨(r x.session).2, x.state⟩ := h.spared (hr x.session h.guarded.clear)

theorem configuration_apply (t : Target) (s : Session) :
    Act.configuration t s = (Config.load s.workspace t.configFile, s) := by
  rw [Act.configuration, Run.bind_apply, Run.workspace_apply]
  exact Run.lift_apply _ s

theorem stateFile_of_ok {root : Path} {w : Workspace} (h : s.workspace.createDirectories (Config.directory root) = .ok w) :
    Act.stateFile root s = (.ok (statePath root), { s with workspace := w }) := by
  rw [Act.stateFile, Run.bind_apply, Run.edit_apply, Config.createDirectory, Edit.bind_of_ok (Edit.change_of_ok h)]
  rfl

theorem stateFile_of_error {root : Path} {e : Failure} (h : s.workspace.createDirectories (Config.directory root) = .error e) :
    Act.stateFile root s = (.error e, s) := by
  rw [Act.stateFile, Run.bind_apply, Run.edit_apply, Config.createDirectory, Edit.bind_of_error (Edit.change_of_error h)]

/-- A transition of the command line never restores a state. -/
theorem Use.transition_ne_restore {u : Use} {tr : Transition} (h : u.transition? = some tr) (state : PolicyState) :
    tr ≠ .restore state := by
  rintro rfl
  cases u <;> cases h

/-- What is saved after a transition is the state that it led to. -/
theorem keep_saved {root : Path} {w : Workspace} {p : Protection} {u : Use} {tr : Transition} {s' : Session}
    {state' : PolicyState} (htr : u.transition? = some tr) (hperform : p.perform tr s = (.ok state', s'))
    (hguarded : Guarded ways root w) (hreached : Reached w (statePlace w root)) (hsaved : Saved root w state) :
    ∃ w', keep tr (statePath root) state' w = .ok w' ∧ Guarded ways root w' ∧ Saved root w' state' := by
  cases tr with
  | enable strict hooks => exact save_saved hguarded hreached hsaved (Protection.enabled_of_perform hperform)
  | disable hooks =>
    obtain rfl := Protection.eq_default_of_perform hperform
    exact clear_saved hguarded hreached hsaved
  | restore state => exact absurd rfl (Use.transition_ne_restore htr state)

/-- A transition whose state is saved leads where the transition leads, and saves that; one that fails leaves what is saved. -/
theorem keeping_recalls (h : Recalls ways t.root x) {u : Use} {tr : Transition} (htr : u.transition? = some tr) :
    (∃ s, keeping t tr x.session = (.ok (u.entered t x), s) ∧ Recalls ways t.root ⟨s, u.entered t x⟩) ∨
      ∃ e s, keeping t tr x.session = (.error e, s) ∧ Recalls ways t.root ⟨s, x.state⟩ := by
  rw [keeping, Run.bind_apply, configuration_apply]
  cases hload : Config.load x.session.workspace t.configFile with
  | error e => exact .inr ⟨e, x.session, rfl, h⟩
  | ok config =>
    have hspares := Protection.perform_spares (elsewhere_statePlace x.session.workspace t.root) h.guarded.way
      (Protection.standard_count_observes t.root config none) tr
    have hperformed := h.sparesFile hspares
    dsimp only
    rw [Run.bind_apply]
    rcases hperform : (Protection.standard t.root config none).perform tr x.session with ⟨e | state, s₁⟩
    · rw [hperform] at hperformed
      exact .inr ⟨e, s₁, rfl, hperformed⟩
    · have hentered : u.entered t x = state := by
        rw [Use.entered, htr]
        simp only [hload, Protected.transit, hperform]
      rw [hperform] at hperformed
      dsimp only
      rw [Run.bind_apply]
      cases hopen : s₁.workspace.createDirectories (Config.directory t.root) with
      | error e => exact .inr ⟨e, s₁, by rw [stateFile_of_error hopen], hperformed⟩
      | ok w =>
        obtain ⟨hspared, hreached⟩ := hperformed.guarded.opens hopen
        have hopened : Recalls ways t.root ⟨{ s₁ with workspace := w }, x.state⟩ := hperformed.spared hspared
        obtain ⟨w', hkeep, hguarded, hsaved⟩ := keep_saved htr hperform hopened.guarded hreached hopened.saved
        refine .inl ⟨{ s₁ with workspace := w' }, ?_, hentered ▸ ⟨hguarded, hsaved⟩⟩
        rw [stateFile_of_ok hopen]
        dsimp only
        rw [Run.bind_apply, Run.edit_apply, Edit.change_of_ok hkeep, hentered]
        rfl

/-! A gate. -/

variable {config : Config} {r : Request} {diagnostics : Option Path}

theorem deciding_of_unconfigured {e : Failure} (hload : Config.load s.workspace t.configFile = .error e) :
    deciding t r diagnostics s = (.error e, s) := by
  rw [deciding, Run.bind_apply, configuration_apply, hload]

theorem loadState_of_open {root : Path} {w : Workspace} (hopen : s.workspace.createDirectories (Config.directory root) = .ok w) :
    Act.loadState root s = (PolicyStore.load w (statePath root), { s with workspace := w }) := by
  rw [Act.loadState, Run.bind_apply, stateFile_of_ok hopen]
  dsimp only
  rw [Run.bind_apply, Run.workspace_apply]
  exact Run.lift_apply _ _

theorem loadState_of_closed {root : Path} {e : Failure}
    (hclosed : s.workspace.createDirectories (Config.directory root) = .error e) :
    Act.loadState root s = (.error e, s) := by
  rw [Act.loadState, Run.bind_apply, stateFile_of_error hclosed]

theorem deciding_of_unloaded {e : Failure} {s' : Session} (hload : Config.load s.workspace t.configFile = .ok config)
    (hstate : Act.loadState t.root s = (.error e, s')) : deciding t r diagnostics s = (.error e, s') := by
  rw [deciding, Run.bind_apply, configuration_apply, hload]
  dsimp only
  rw [Run.bind_apply, hstate]

/-- Once its directory is there, a gate decides from the state in memory. -/
theorem deciding_of_open (h : Recalls ways t.root x) {w : Workspace}
    (hload : Config.load x.session.workspace t.configFile = .ok config)
    (hopen : x.session.workspace.createDirectories (Config.directory t.root) = .ok w) :
    deciding t r diagnostics x.session = (asked t config diagnostics).decide x.state r
      { x.session with workspace := w, events := x.session.events ++ [.policyTransition x.state] } := by
  obtain ⟨hspared, hreached⟩ := h.guarded.opens hopen
  have hloaded : PolicyStore.load w (statePath t.root) = .ok x.state :=
    load_saved (h.guarded.kept hspared.toKeepsWays) hreached (h.saved.spared h.guarded.way hspared)
  rw [deciding, Run.bind_apply, configuration_apply, hload]
  dsimp only
  rw [Run.bind_apply, loadState_of_open hopen, hloaded]
  dsimp only
  rw [Run.bind_apply, Protection.perform, h.saved.enabled_or, Protection.enter_apply]

theorem asked_looks (t : Target) (config : Config) (diagnostics : Option Path) (state : PolicyState) (r : Request) :
    Run.Looks ((asked t config diagnostics).decide state r) := Protection.decide_looks t.root config _ state r

theorem deciding_recalls (h : Recalls ways t.root x) (r : Request) (diagnostics : Option Path) :
    Recalls ways t.root ⟨(deciding t r diagnostics x.session).2, x.state⟩ := by
  cases hload : Config.load x.session.workspace t.configFile with
  | error e => exact deciding_of_unconfigured hload ▸ h
  | ok config =>
    cases hopen : x.session.workspace.createDirectories (Config.directory t.root) with
    | error e => exact deciding_of_unloaded hload (loadState_of_closed hopen) ▸ h
    | ok w =>
      rw [deciding_of_open h hload hopen]
      refine h.spared ?_
      rw [((asked_looks t config diagnostics x.state r).observes _).workspace]
      exact (h.guarded.opens hopen).1

/-- With protection the directory for its state is there already. -/
theorem Recalls.open_of_enabled (h : Recalls ways t.root x) (he : x.state.enabled = true) :
    x.session.workspace.createDirectories (Config.directory t.root) = .ok x.session.workspace := by
  obtain ⟨session, state⟩ := x
  cases h.saved with
  | nothing => cases he
  | text _ hreached => exact h.guarded.open_of_reached hreached

/-- The decision of a gate is the one that protection makes from the state in memory. -/
theorem deciding_eq_decide (h : Recalls ways t.root x) {w : Workspace}
    (hload : Config.load x.session.workspace t.configFile = .ok config)
    (hopen : x.session.workspace.createDirectories (Config.directory t.root) = .ok w) :
    (deciding t r diagnostics x.session).1 = ((asked t config diagnostics).decide x.state r x.session).1 := by
  rw [deciding_of_open h hload hopen]
  cases he : x.state.enabled with
  | true =>
    obtain rfl := Except.ok.inj ((h.open_of_enabled he).symm.trans hopen)
    obtain ⟨events', hsame⟩ := (asked_looks t config diagnostics x.state r).unheard x.session
      (x.session.events ++ [.policyTransition x.state])
    rw [hsame]
  | false => simp [Protection.decide, he]

end recalls

/-! Histories of commands. -/

section histories

variable {ways : List (List String)} {t : Target} {x : Protected}

theorem step_recalls (h : Recalls ways t.root x) (u : Use) : Recalls ways t.root (step t x u) := by
  cases htr : u.transition? with
  | some tr =>
    have hcarries := carriesOut_keeping (t := t) htr x.session
    rw [step]
    rcases keeping_recalls h htr with ⟨s, hkeeping, hrecalls⟩ | ⟨e, s, hkeeping, hrecalls⟩
    · rcases hcarries with ⟨_, s', hcarried, hsession, hcode⟩ | ⟨_, _, hcarried, -⟩
      · obtain ⟨-, rfl⟩ := Prod.mk.inj (hkeeping.symm.trans hcarried)
        simpa only [hsession, if_pos hcode] using hrecalls
      · cases hkeeping.symm.trans hcarried
    · rcases hcarries with ⟨_, _, hcarried, -⟩ | ⟨_, s', hcarried, hsession, hcode⟩
      · cases hkeeping.symm.trans hcarried
      · obtain ⟨-, rfl⟩ := Prod.mk.inj (hkeeping.symm.trans hcarried)
        simpa only [hsession, if_neg hcode] using hrecalls
  | none =>
    have hentered : u.entered t x = x.state := by rw [Use.entered, htr]
    cases u with
    | enable => cases htr
    | disable => cases htr
    | gate r diagnostics =>
      have hsession : ((Command.gate t r diagnostics).performed x.session).session =
          (deciding t r diagnostics x.session).2 := by
        rcases performed_gate t r diagnostics x.session with ⟨d, text, -, -, hdone⟩ | ⟨e, -, hsession, -⟩
        · rw [hdone]
        · exact hsession
      rw [step, hentered, ite_self, Use.command, hsession]
      exact deciding_recalls h r diagnostics

/-- Whatever commands are given, what is saved is the state in memory. -/
theorem after_recalls (h : Recalls ways t.root x) (us : List Use) : Recalls ways t.root (after t us x) := by
  induction us generalizing x with
  | nil => exact h
  | cons u us ih => exact ih (step_recalls h u)

/-- A gate allows what its decision allows, and says so. -/
theorem gate_decides {r : Request} {diagnostics : Option Path} {s : Session} :
    (((Command.gate t r diagnostics).performed s).exitCode = 0 ↔
        ∃ d, (deciding t r diagnostics s).1 = .ok d ∧ d.allowed = true) ∧
      ∀ d, (deciding t r diagnostics s).1 = .ok d →
        ∃ text, Console.shown ((Command.gate t r diagnostics).performed s).session.terminal (Act.decisionLine d) = .ok text ∧
          ((Command.gate t r diagnostics).performed s).output = text ++ "\n" := by
  rcases performed_gate t r diagnostics s with ⟨d, text, hd, hshown, hdone⟩ | ⟨e, he, -, hcode⟩
  · rw [hd, hdone, Performed.exitCode_eq]
    refine ⟨?_, fun d' hd' => ⟨text, Except.ok.inj hd' ▸ hshown, rfl⟩⟩
    cases hallowed : d.allowed <;> simp [Ending.code, hallowed]
  · rw [he]
    refine ⟨iff_of_false hcode ?_, ?_⟩
    · rintro ⟨d, hd, -⟩
      cases hd
    · intro d hd
      cases hd

theorem gate_fails {r : Request} {diagnostics : Option Path} {s : Session} {e : Failure}
    (h : (deciding t r diagnostics s).1 = .error e) : ((Command.gate t r diagnostics).performed s).exitCode ≠ 0 := by
  intro hcode
  obtain ⟨d, hd, -⟩ := gate_decides.1.mp hcode
  cases h.symm.trans hd

/-- A gate that does not get at a state to decide from allows nothing. -/
theorem gate_fails_unloaded {r : Request} {diagnostics : Option Path} {s s' : Session} {e : Failure}
    (hstate : Act.loadState t.root s = (.error e, s')) :
    ((Command.gate t r diagnostics).performed s).exitCode ≠ 0 := by
  cases hload : Config.load s.workspace t.configFile with
  | error e => exact gate_fails (congrArg Prod.fst (deciding_of_unconfigured hload))
  | ok config => exact gate_fails (congrArg Prod.fst (deciding_of_unloaded hload hstate))

/-- A gate decides as the protection in memory does, where it finds a configuration that is valid and there is a directory for
the state or one can be made; with protection it is there. Any other gate allows nothing. -/
structure Agrees (t : Target) (x : Protected) (r : Request) (diagnostics : Option Path) : Prop where
  decides : ∀ config, Config.load x.session.workspace t.configFile = .ok config →
    (x.state.enabled = true ∨ ∃ w, x.session.workspace.createDirectories (Config.directory t.root) = .ok w) →
      let lived := ((asked t config diagnostics).decide x.state r x.session).1
      let done := (Command.gate t r diagnostics).performed x.session
      (deciding t r diagnostics x.session).1 = lived ∧
        (done.exitCode = 0 ↔ ∃ d, lived = .ok d ∧ d.allowed = true) ∧
        ∀ d, lived = .ok d →
          ∃ text, Console.shown done.session.terminal (Act.decisionLine d) = .ok text ∧ done.output = text ++ "\n"
  unopened : ∀ e, Config.load x.session.workspace t.configFile = .error e ∨
    x.session.workspace.createDirectories (Config.directory t.root) = .error e →
      ((Command.gate t r diagnostics).performed x.session).exitCode ≠ 0

/-- Gates that each begin anew decide as one protection does that lives on, whatever commands succeeded and failed before. -/
theorem gates_recall {s : Session} (hapart : Apart t.root s.workspace)
    (hnone : s.workspace.entryAt (statePlace s.workspace t.root) = none) (us : List Use) (r : Request)
    (diagnostics : Option Path) : Agrees t (after t us { session := s }) r diagnostics := by
  obtain ⟨ways, hguarded⟩ := hapart.guarded
  have h : Recalls ways t.root (after t us { session := s }) := after_recalls ⟨hguarded, .nothing hnone⟩ us
  constructor
  case decides =>
    intro config hload hopen
    obtain ⟨w, hopen⟩ : ∃ w, (after t us { session := s }).session.workspace.createDirectories (Config.directory t.root) =
        .ok w := hopen.elim (fun he => ⟨_, h.open_of_enabled he⟩) id
    have hsame : (deciding t r diagnostics _).1 = _ := deciding_eq_decide h hload hopen
    exact ⟨hsame, hsame ▸ gate_decides⟩
  case unopened =>
    rintro e (hload | hclosed)
    · exact gate_fails (congrArg Prod.fst (deciding_of_unconfigured hload))
    · exact gate_fails_unloaded (loadState_of_closed hclosed)

end histories

section instances

def projectTarget : Target := { root := ⟨"/", ["w"]⟩ }

/-- A repository with a link that has nothing to do with protection. -/
def repositorySession : Session where
  workspace :=
    { root := ⟨"/", ["w"]⟩
      entries := [(["w", ".git"], .directory), (["w", ".git", "hooks"], .directory), (["w", "latest"], .link "src")] }
  now := { year := 2024, month := 1, day := 2 }

theorem repositorySession_link {q : List String} {e : Entry} (h : (q, e) ∈ repositorySession.workspace.entries)
    {target : String} (he : e = .link target) : q = ["w", "latest"] ∧ target = "src" := by
  subst he
  simpa [repositorySession] using h

theorem repositorySession_apart : Apart projectTarget.root repositorySession.workspace where
  dots := by decide
  unlinked q hq target hlink := by
    obtain ⟨rfl, -⟩ := repositorySession_link (mem_entries_of_link hlink) rfl
    exact absurd hq (by decide)
  unaimed x hx target hlink := by
    obtain ⟨-, rfl⟩ := repositorySession_link hx hlink
    have hparts : (Path.ofText "src").parts = ["src"] := by cbv
    simp [hparts]
  hooks := .inr
    { repository := by cbv
      unlinked := fun q hq target hlink => by
        obtain ⟨rfl, -⟩ := repositorySession_link (mem_entries_of_link hlink) rfl
        exact absurd hq (by decide) }

theorem gates_recall_repository :
    Apart projectTarget.root repositorySession.workspace ∧
      repositorySession.workspace.entryAt (statePlace repositorySession.workspace projectTarget.root) = none ∧
      Agrees projectTarget
        (after projectTarget [.enable (some true) true, .gate { trigger := .commit } none, .disable false]
          { session := repositorySession }) { trigger := .build } none := by
  have hnone : repositorySession.workspace.entryAt (statePlace repositorySession.workspace projectTarget.root) = none := by
    cbv
  exact ⟨repositorySession_apart, hnone, gates_recall repositorySession_apart hnone _ _ _⟩

/-- A file stands where the directory for the state would be. -/
def obstructedSession : Session where
  workspace := { root := ⟨"/", ["w"]⟩, entries := [(["w", ".bastion"], .file "x".toUTF8 false)] }
  now := { year := 2024, month := 1, day := 2 }

/-- The state is a link to the backup of a hook, and another hook has its backup already. -/
def linkedState : Workspace where
  root := ⟨"/", ["w"]⟩
  entries := [(["w", ".bastion"], .directory),
    (["w", ".bastion", "policy.json"], .link "../.git/hooks/pre-commit.bastion-backup"),
    (["w", ".git"], .directory), (["w", ".git", "hooks"], .directory),
    (["w", ".git", "hooks", "pre-commit"], .file "\x7b".toUTF8 false),
    (["w", ".git", "hooks", "pre-push"], .file "\x7b".toUTF8 false),
    (["w", ".git", "hooks", "pre-push.bastion-backup"], .file "old".toUTF8 false)]

def linkedSession : Session := { workspace := linkedState, now := { year := 2024, month := 1, day := 2 } }

def linkedPlace : List String := ["w", ".git", "hooks"]

theorem linkedState_directory : HooksDirectory linkedState ⟨"/", ["w"]⟩ ⟨"/", linkedPlace⟩ linkedPlace where
  known := by cbv
  found := .inl (by cbv)
  plain s hs := by
    obtain rfl | rfl | rfl | rfl : s = slot linkedPlace .preCommit ∨ s = spare linkedPlace .preCommit ∨
        s = slot linkedPlace .prePush ∨ s = spare linkedPlace .prePush := by simpa [slots, allKinds] using hs
    all_goals exact trivial
  alone s hs rest hrest := by
    have hpos := List.length_pos_iff.mpr hrest
    have hlength : (s ++ rest).length = 4 + rest.length := by rw [List.length_append, length_of_mem_slots hs]; rfl
    exact entryAt_of_deep (n := 5) (by simp [linkedState]) (by simp [linkedState]) (by omega)
  repository := ⟨["w", ".git"], some .directory, by cbv, by decide⟩

theorem linkedState_pairs :
    pairAt linkedPlace .preCommit linkedState = ⟨some (.file "\x7b".toUTF8 false), none⟩ ∧
      Blocked linkedPlace linkedState .prePush :=
  ⟨by cbv, _, _, (by cbv : _ = (⟨some (.file "\x7b".toUTF8 false), some (.file "old".toUTF8 false)⟩ : Pair)),
    (own_iff _).mp (.inl (by simp [CarriesMarker]; decide))⟩

theorem linkedTarget_eq : Path.ofText "../.git/hooks/pre-commit.bastion-backup" =
    ⟨"", ["..", ".git", "hooks", "pre-commit.bastion-backup"]⟩ := by cbv

theorem linkedState_unsaved : linkedState.contains (statePath ⟨"/", ["w"]⟩) = false := by
  have hplace : (linkedState.absolute (statePath ⟨"/", ["w"]⟩)).parts = ["w", ".bastion", "policy.json"] := by cbv
  rw [contains, stat, locate, hplace, linkLimit]
  simp [walk, entryAt, linkedState, linkedTarget_eq, Path.isAbsolute, List.lookup, Except.isOk, Except.toBool]

theorem linkedState_link : linkedState.entryAt (statePlace linkedState ⟨"/", ["w"]⟩) =
    some (.link "../.git/hooks/pre-commit.bastion-backup") := by cbv

/-- Where the push hook is refused, the hook of the user's own has become its backup, and the link leads to it. -/
theorem linkedState_refused {level : EnforcementLevel} {tools : Tools} {name message : String} {w : Workspace}
    (h : installAll ⟨"/", ["w"]⟩ level tools name allKinds linkedState = (.error (.hook message), w)) :
    w.createDirectories (Config.directory ⟨"/", ["w"]⟩) = .ok w ∧
      w.readBytes (statePath ⟨"/", ["w"]⟩) = .ok "\x7b".toUTF8 := by
  obtain ⟨hfirst, -⟩ := linkedState_pairs
  obtain ⟨done, k, rest, hkinds, -, hplaced, hblocked⟩ := linkedState_directory.installAll_refused h
  have hdone : .preCommit ∈ done := by
    cases done with
    | nil =>
      obtain ⟨own, backup, hpair, -⟩ := (List.cons.inj hkinds).1 ▸ hblocked
      cases hfirst.symm.trans hpair
    | cons first done => exact (List.cons.inj hkinds).1 ▸ List.mem_cons_self
  have hbackup : w.entryAt ["w", ".git", "hooks", "pre-commit.bastion-backup"] = some (.file "\x7b".toUTF8 false) := by
    have hpair := hplaced.placed .preCommit hdone
    rw [hfirst, Pair.placed, Pair.kept_of_own rfl ((own_iff _).mp (.inl (by simp [CarriesMarker]; decide)))] at hpair
    exact congrArg Pair.backup hpair
  have hkept : ∀ q ∉ slots linkedPlace, ∀ e, linkedState.entryAt q = some e → w.entryAt q = some e := hplaced.outside
  have hlink := hkept ["w", ".bastion", "policy.json"] (by decide) _ linkedState_link
  have hroot : w.entryAt ["w"] = some .directory := hkept _ (by decide) _ (by cbv)
  have hdirectory : w.entryAt ["w", ".bastion"] = some .directory := hkept _ (by decide) _ (by cbv)
  have hgit : w.entryAt ["w", ".git"] = some .directory := hkept _ (by decide) _ (by cbv)
  have hhooks : w.entryAt ["w", ".git", "hooks"] = some .directory := hkept _ (by decide) _ (by cbv)
  have habove : (w.absolute (Config.directory ⟨"/", ["w"]⟩)).parts = ["w", ".bastion"] := by cbv
  have hplace : (w.absolute (statePath ⟨"/", ["w"]⟩)).parts = ["w", ".bastion", "policy.json"] := by cbv
  have hfound : w.locate (Config.directory ⟨"/", ["w"]⟩) = .ok ⟨["w", ".bastion"], some .directory⟩ := by
    rw [locate, habove]
    simp [walk, hroot, hdirectory]
  constructor
  · exact createDirectories_of_directory hfound
  · rw [readBytes, stat, locate, hplace, linkLimit]
    simp [walk, hroot, hdirectory, hlink, linkedTarget_eq, hgit, hhooks, hbackup, Path.isAbsolute]

theorem linkedSession_enable : ∃ s, after projectTarget [.enable none true] { session := linkedSession } = ⟨s, {}⟩ ∧
    s.workspace.createDirectories (Config.directory projectTarget.root) = .ok s.workspace ∧
    s.workspace.readBytes (statePath projectTarget.root) = .ok "\x7b".toUTF8 := by
  let p := Protection.standard projectTarget.root {} none
  have hclass : p.settledAfter linkedSession = .ok .unknown := by
    let counted : ErrorCount :=
      { origins := [("type-check", .none), ("lint", .none)], failedTools := ["eslint"], suspiciousZero := true }
    have hcount : (p.count linkedSession).1 = .ok counted := by cbv
    rw [Protection.settledAfter, Protection.classAfter, hcount]
    rfl
  have hsame : (p.count linkedSession).2.workspace = linkedState := (Count.run_observes _ _ _ linkedSession).workspace
  obtain ⟨message, w, hfailed⟩ := (linkedState_directory.installAll_refused_iff .advisory {} "bastion" allKinds).mpr
    ⟨.prePush, by decide, linkedState_pairs.2⟩
  have hperform := Protection.perform_enable_of_refusal none hclass (hsame ▸ hfailed)
  have hload : Config.load linkedSession.workspace projectTarget.configFile = .ok {} := by cbv
  have hkeeping : keeping projectTarget (.enable none true) linkedSession =
      (.error (.hook message), { (p.count linkedSession).2 with workspace := w }) := by
    rw [keeping, Run.bind_apply, configuration_apply, hload]
    dsimp only
    rw [Run.bind_apply, hperform]
  rcases carriesOut_keeping (t := projectTarget) (u := .enable none true) rfl linkedSession with
    ⟨_, _, hcarried, -⟩ | ⟨_, s, hcarried, hsession, hcode⟩
  · cases hkeeping.symm.trans hcarried
  · obtain ⟨-, rfl⟩ := Prod.mk.inj (hkeeping.symm.trans hcarried)
    have hrefused := linkedState_refused hfailed
    refine ⟨{ (p.count linkedSession).2 with workspace := w }, ?_, hrefused⟩
    rw [after, List.foldl_cons, List.foldl_nil, step, hsession, if_neg hcode]

theorem decide_disabled (p : Protection) (r : Request) (s : Session) :
    ∃ d, (p.decide {} r s).1 = .ok d ∧ d.allowed = true := ⟨_, rfl, rfl⟩

/-- Without such places a gate and the protection in memory differ, though nothing is saved at first: where the directory for
the state cannot be made, and where the state is a link to what is moved when a hook is installed. Both times there is no
protection, and the gate allows nothing. -/
theorem gates_differ :
    (obstructedSession.workspace.contains (statePath projectTarget.root) = false ∧
      (∀ config, ∃ d, ((asked projectTarget config none).decide {} { trigger := .build } obstructedSession).1 = .ok d ∧
        d.allowed = true) ∧
      ((Command.gate projectTarget { trigger := .build } none).performed obstructedSession).exitCode ≠ 0) ∧
    linkedSession.workspace.contains (statePath projectTarget.root) = false ∧
      let x := after projectTarget [.enable none true] { session := linkedSession }
      (∀ config, ∃ d, ((asked projectTarget config none).decide x.state { trigger := .build } x.session).1 = .ok d ∧
        d.allowed = true) ∧
      ((Command.gate projectTarget { trigger := .build } none).performed x.session).exitCode ≠ 0 := by
  have hunsaved : obstructedSession.workspace.contains (statePath projectTarget.root) = false := by cbv
  refine ⟨⟨hunsaved, fun config => decide_disabled _ _ _, ?_⟩, linkedState_unsaved, ?_⟩
  · have hclosed : obstructedSession.workspace.createDirectories (Config.directory projectTarget.root) =
        .error (.access .alreadyExists "/w/.bastion") := by cbv
    exact gate_fails_unloaded (loadState_of_closed hclosed)
  · intro x
    obtain ⟨s, hx, hopen, hbytes⟩ := linkedSession_enable
    have hsame : x = ⟨s, {}⟩ := hx
    rw [hsame]
    refine ⟨fun config => decide_disabled _ _ _, ?_⟩
    have hread : s.workspace.readText (statePath projectTarget.root) = .ok "\x7b".toList :=
      readText_of_toUTF8 hbytes (by decide)
    have hjson : Json.read "\x7b".toList = .error ⟨.expectingName, 1, 2, 1⟩ := by cbv
    have hload : PolicyStore.load s.workspace (statePath projectTarget.root) =
        .error (.configInvalid (statePath projectTarget.root).text (.faults "PolicyState" [])) := by
      rw [PolicyStore.load_of_contains (contains_of_readBytes hbytes), hread, Outcome.bind_of_ok rfl, hjson]
      rfl
    exact gate_fails_unloaded (by rw [loadState_of_open hopen, hload])

end instances

end QualityGate.Command
