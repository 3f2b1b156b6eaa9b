import Mathlib
import QualityGate.Proofs.Hook.Refusal
import QualityGate.Proofs.Policy.Classification

/-! Protection that is not enabled because a hook is refused. The state, the git
settings and what was made known are as before; of the hooks, those that were
installed before the refusal stay. -/

namespace QualityGate

namespace Git.Command

open Edit

variable {w w' : Workspace} {message : String}

theorem setConfig_unrefused (c : Command) (dir : Path) (key value : String) :
    c.setConfig dir key value w ≠ (.error (.hook message), w') := by
  intro h
  have hstart : Unrefused (start w dir [key, value]) := by
    unfold start
    split
    · exact .error nofun
    split
    · exact .ok _
    · exact .ok _
    · exact .error nofun
    · exact .error nofun
    · exact .error nofun
  rw [setConfig, get_bind] at h
  rcases bind_eq_error h with hlift | ⟨started, v, -, h⟩
  · exact lift_unrefused hstart hlift
  rw [get_bind] at h
  cases hset : (if started && c.isInstalled then withValueAt? v dir key value else none) <;> rw [hset] at h <;> cases h

theorem configureProtection_unrefused (c : Command) (dir : Path) (sectionName : String) (protection strict : Bool) :
    c.configureProtection dir sectionName protection strict w ≠ (.error (.hook message), w') := by
  intro h
  rcases bind_eq_error h with hfirst | ⟨first, v, -, h⟩
  · exact setConfig_unrefused c _ _ _ hfirst
  rcases bind_eq_error h with hsecond | ⟨second, u, -, hpure⟩
  · exact setConfig_unrefused c _ _ _ hsecond
  · cases hpure

end Git.Command

namespace Protection

variable {p : Protection} {s s' : Session} {message : String}

/-- Classification refuses no hook. -/
theorem settledAfter_unrefused (p : Protection) (s : Session) : Unrefused (p.settledAfter s) := by
  intro message h
  rw [settledAfter, classAfter] at h
  cases hcount : (p.count s).1 with
  | error e =>
    rw [hcount] at h
    by_cases hends : e.endsRun = true
    · cases e <;> simp_all [classOfCount, settledClass, Failure.endsRun]
    · simp [classOfCount, hends, settledClass] at h
  | ok c =>
    rw [hcount] at h
    by_cases hsuspicious : c.suspiciousZero = true
    · simp [classOfCount, hsuspicious, settledClass] at h
    by_cases hpos : 0 < c.total
    · simp [classOfCount, hsuspicious, hpos, settledClass] at h
    rcases Discovery.files_cases (p.count s).2.workspace p.root p.config.files with
      ⟨-, files, hfiles⟩ | ⟨e, hfiles, pattern, -, he⟩
    · simp [classOfCount, hsuspicious, hpos, classOfSize, hfiles, settledClass] at h
    · rcases Glob.compile_error he with rfl | ⟨detail, rfl⟩ <;>
        simp [classOfCount, hsuspicious, hpos, classOfSize, hfiles, settledClass, Failure.isSystem] at h

theorem installHooks_refused {level : EnforcementLevel} (h : p.installHooks level s = (.error (.hook message), s')) :
    ∃ w, Hook.installAll p.root level p.config.tools p.config.gitConfigSection Hook.allKinds s.workspace =
        (.error (.hook message), w) ∧ s' = { s with workspace := w } := by
  rw [installHooks_apply] at h
  split at h
  next e w hfailed =>
    obtain ⟨he, rfl⟩ := Prod.mk.inj h
    rw [Except.error.inj he] at hfailed
    exact ⟨w, hfailed, rfl⟩
  next results w hdone =>
    obtain ⟨hset, -⟩ := Prod.mk.inj h
    cases hconfigured : s.git.configureProtection p.root p.config.gitConfigSection true (level == .zeroTolerance) w with
    | mk r v =>
      rw [hconfigured] at hset
      cases r with
      | ok set => cases hset
      | error e =>
        rw [Except.error.inj hset] at hconfigured
        exact absurd hconfigured (Git.Command.configureProtection_unrefused _ _ _ _ _)

/-- Where a hook is refused, installing is what failed, and nothing has come after it. -/
theorem perform_enable_refused {strict : Option Bool} {hooks : Bool}
    (h : p.perform (.enable strict hooks) s = (.error (.hook message), s')) :
    hooks = true ∧ ∃ w, Hook.installAll p.root (p.levelFor strict) p.config.tools p.config.gitConfigSection
        Hook.allKinds (p.count s).2.workspace = (.error (.hook message), w) ∧
      s' = { (p.count s).2 with workspace := w } := by
  cases hc : p.settledAfter s with
  | error e =>
    rw [perform_enable_of_error strict hooks hc] at h
    obtain ⟨he, -⟩ := Prod.mk.inj h
    exact absurd hc (Except.error.inj he ▸ settledAfter_unrefused p s message)
  | ok c =>
    cases hooks with
    | false =>
      rw [perform_enable strict hc] at h
      cases h
    | true =>
      rw [perform_enable_hooked strict hc, Run.bind_apply] at h
      split at h
      · cases h
      next e s₁ hfailed =>
        obtain ⟨he, rfl⟩ := Prod.mk.inj h
        rw [Except.error.inj he] at hfailed
        exact ⟨rfl, installHooks_refused hfailed⟩

/-- Where a hook is refused, protection is not enabled, whatever the class is. -/
theorem perform_enable_of_refusal (strict : Option Bool) {c : ProjectClass} {e : Failure} {w : Workspace}
    (hc : p.settledAfter s = .ok c)
    (hfailed : Hook.installAll p.root (p.levelFor strict) p.config.tools p.config.gitConfigSection Hook.allKinds
      (p.count s).2.workspace = (.error e, w)) :
    p.perform (.enable strict true) s = (.error e, { (p.count s).2 with workspace := w }) := by
  have hinstall : p.installHooks (p.levelFor strict) (p.count s).2 =
      (.error e, { (p.count s).2 with workspace := w }) := by
    rw [installHooks_apply, hfailed]
  rw [perform_enable_hooked strict hc, Run.bind_apply, hinstall]

end Protection

namespace Hook

open Workspace

/-- A refusal undoes nothing. The hooks before the refused one stay installed, and it and those after it are as they
were. Where protection was to be enabled, its state stays, no git setting is written and no transition is made known;
the files are as the installation has left them. -/
theorem refusal_keeps_earlier :
    (∀ project level tools name kinds w message w',
      installAll project level tools name kinds w = (.error (.hook message), w') →
        ∃ done k rest results v, kinds = done ++ k :: rest ∧
          installAll project level tools name done w = (.ok results, v) ∧
          install project k level tools name v = (.error (.hook message), w') ∧ Grown v w') ∧
    (∀ project dir place level tools name kinds w, HooksDirectory w project dir place →
      ((∃ message w', installAll project level tools name kinds w = (.error (.hook message), w')) ↔
        ∃ k ∈ kinds, Blocked place w k) ∧
      ∀ message w', installAll project level tools name kinds w = (.error (.hook message), w') →
        ∃ done k rest, kinds = done ++ k :: rest ∧ k ∉ done ∧ AllPlaced place level tools name done w w' ∧
          Blocked place w k) ∧
    ∀ (p : Protection) strict hooks x message x',
      Protected.transit p (.enable strict hooks) x = (.error (.hook message), x') →
        x'.state = x.state ∧ hooks = true ∧
        (∃ w', installAll p.root (p.levelFor strict) p.config.tools p.config.gitConfigSection allKinds
            (p.count x.session).2.workspace = (.error (.hook message), w') ∧
          x'.session = { (p.count x.session).2 with workspace := w' }) ∧
        (Run.Observes p.count → (p.count x.session).2.workspace = x.session.workspace ∧
          x'.session.git = x.session.git ∧ x'.session.transitions = x.session.transitions) := by
  refine ⟨?any, ?plain, ?enable⟩
  case any =>
    intro project level tools name kinds w message w' h
    exact installAll_refused h
  case plain =>
    intro project dir place level tools name kinds w hdirectory
    refine ⟨hdirectory.installAll_refused_iff level tools name kinds, fun message w' h => ?_⟩
    exact hdirectory.installAll_refused h
  case enable =>
    intro p strict hooks x message x' h
    obtain ⟨s', hperformed, rfl⟩ := Protected.transit_eq_error h
    obtain ⟨hhooks, w', hfailed, rfl⟩ := Protection.perform_enable_refused hperformed
    refine ⟨rfl, hhooks, ⟨w', hfailed, rfl⟩, fun hcount => ?_⟩
    have hsame := hcount x.session
    exact ⟨hsame.workspace, hsame.git, hsame.transitions⟩

section blocked

/-- A hook that is blocked for its backup, while no other hook is there. -/
def blockedPrePush : Workspace :=
  repositoryOf [("pre-push", .file "#!/bin/sh\necho mine\n".toUTF8 false),
    ("pre-push.bastion-backup", .file "#!/bin/sh\necho old\n".toUTF8 false)]

def blockedPlace : List String := ["w", ".git", "hooks"]

theorem blockedPrePush_present : Present blockedPrePush ⟨"/", ["w"]⟩ ⟨"/", blockedPlace⟩ blockedPlace :=
  repositoryOf_present (by simp)

theorem blockedPrePush_pairs :
    pairAt blockedPlace .preCommit blockedPrePush = ⟨none, none⟩ ∧ Blocked blockedPlace blockedPrePush .prePush := by
  constructor
  · exact congrArg₂ Pair.mk (entryAt_repositoryOf _) (entryAt_repositoryOf _)
  · refine ⟨_, _, congrArg₂ Pair.mk (entryAt_repositoryOf _) (entryAt_repositoryOf _), ?_⟩
    exact (own_iff _).mp (.inl (by simp [CarriesMarker]; decide))

theorem blockedPrePush_done {done rest : List HookKind} {k : HookKind} (hkinds : allKinds = done ++ k :: rest)
    (hblocked : Blocked blockedPlace blockedPrePush k) : done = [.preCommit] := by
  match done, hkinds with
  | [], hkinds =>
    obtain ⟨rfl, -⟩ := List.cons.inj hkinds
    obtain ⟨own, backup, hpair, -⟩ := hblocked
    rw [blockedPrePush_pairs.1] at hpair
    cases hpair
  | [k'], hkinds => rw [← (List.cons.inj hkinds).1]
  | _ :: _ :: _, hkinds => simp [allKinds] at hkinds

/-- Protection of a project whose tools are missing. -/
def blockedProtection : Protection := .standard ⟨"/", ["w"]⟩ {} none

def blockedSession : Session := { workspace := blockedPrePush, now := { year := 2024, month := 1, day := 2 } }

theorem blockedProtection_class : blockedProtection.settledAfter blockedSession = .ok .unknown := by
  let counted : ErrorCount :=
    { origins := [("type-check", .none), ("lint", .none)], failedTools := ["eslint"], suspiciousZero := true }
  have hcount : (blockedProtection.count blockedSession).1 = .ok counted := by cbv
  rw [Protection.settledAfter, Protection.classAfter, hcount]
  rfl

theorem blockedProtection_refused {message : String} {w' : Workspace}
    (hfailed : installAll ⟨"/", ["w"]⟩ .advisory {} "bastion" allKinds blockedPrePush = (.error (.hook message), w')) :
    ∃ x', Protected.transit blockedProtection (.enable none true) { session := blockedSession } =
        (.error (.hook message), x') ∧ x'.session.workspace = w' := by
  have hsame : (blockedProtection.count blockedSession).2.workspace = blockedPrePush :=
    (Count.run_observes _ _ _ blockedSession).workspace
  have hperformed := Protection.perform_enable_of_refusal none blockedProtection_class
    (by rw [hsame]; exact hfailed)
  exact ⟨_, Protected.transit_of_error hperformed, rfl⟩

/-- The commit hook is there although the push hook was refused; the state is as it was. -/
theorem refusal_keeps_earlier_preCommit :
    HooksDirectory blockedPrePush ⟨"/", ["w"]⟩ ⟨"/", blockedPlace⟩ blockedPlace ∧
      ∃ message w' x',
        installAll ⟨"/", ["w"]⟩ .advisory {} "bastion" allKinds blockedPrePush = (.error (.hook message), w') ∧
        AllPlaced blockedPlace .advisory {} "bastion" [.preCommit] blockedPrePush w' ∧
        Protected.transit blockedProtection (.enable none true) { session := blockedSession } =
          (.error (.hook message), x') ∧
        x'.state = {} ∧ x'.session.transitions = [] := by
  obtain ⟨-, hhooks, henable⟩ := refusal_keeps_earlier
  have hdirectory := blockedPrePush_present.toHooksDirectory
  obtain ⟨hiff, hrefused⟩ := hhooks _ _ _ .advisory {} "bastion" allKinds _ hdirectory
  obtain ⟨message, w', hfailed⟩ := hiff.mpr ⟨.prePush, by decide, blockedPrePush_pairs.2⟩
  obtain ⟨done, k, rest, hkinds, -, hplaced, hblocked⟩ := hrefused message w' hfailed
  rw [blockedPrePush_done hkinds hblocked] at hplaced
  obtain ⟨x', hx, -⟩ := blockedProtection_refused hfailed
  obtain ⟨hstate, -, -, hsame⟩ := henable _ _ _ _ _ _ hx
  exact ⟨hdirectory, message, w', x', hfailed, hplaced, hx, hstate, (hsame (Count.run_observes _ _ _)).2.2⟩

/-- Neither installing the hooks nor enabling protection with them is all or nothing. -/
theorem install_not_atomic :
    ∃ message w' x',
      installAll ⟨"/", ["w"]⟩ .advisory {} "bastion" allKinds blockedPrePush = (.error (.hook message), w') ∧
      (pairAt blockedPlace .preCommit w').hook ≠ (pairAt blockedPlace .preCommit blockedPrePush).hook ∧
      Protected.transit blockedProtection (.enable none true) { session := blockedSession } =
        (.error (.hook message), x') ∧
      (pairAt blockedPlace .preCommit x'.session.workspace).hook ≠
        (pairAt blockedPlace .preCommit blockedSession.workspace).hook := by
  have hdirectory := blockedPrePush_present.toHooksDirectory
  obtain ⟨message, w', hfailed⟩ := (hdirectory.installAll_refused_iff .advisory {} "bastion" allKinds).mpr
    ⟨.prePush, by decide, blockedPrePush_pairs.2⟩
  obtain ⟨done, k, rest, hkinds, -, hplaced, hblocked⟩ := hdirectory.installAll_refused hfailed
  rw [blockedPrePush_done hkinds hblocked] at hplaced
  have hchanged : (pairAt blockedPlace .preCommit w').hook ≠ (pairAt blockedPlace .preCommit blockedPrePush).hook := by
    rw [hplaced.placed .preCommit List.mem_cons_self, blockedPrePush_pairs.1]
    nofun
  obtain ⟨x', hx, rfl⟩ := blockedProtection_refused hfailed
  exact ⟨message, _, x', hfailed, hchanged, hx, hchanged⟩

end blocked

end Hook

end QualityGate
