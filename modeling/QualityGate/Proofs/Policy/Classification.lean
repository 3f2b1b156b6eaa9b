import Mathlib
import QualityGate.Proofs.Check.Settled
import QualityGate.Proofs.Observe
import QualityGate.Proofs.Policy.DecisionTable
import QualityGate.Proofs.Policy.Transition

/-! What class a project has once protection is enabled, and when enabling does not
end: a count that fails leaves the class unknown, but a file pattern that means
nothing is not caught. -/

namespace QualityGate

/-- Every pattern of a selection can be compiled. -/
def FileSelection.Compiles (f : FileSelection) : Prop :=
  ∀ pattern ∈ f.included ++ f.excluded, ∃ glob, Glob.compile pattern = .ok glob

theorem Outcome.mapM_cases {α β : Type} (f : α → Outcome β) (as : List α) :
    (∃ bs, as.mapM f = .ok bs ∧ ∀ a ∈ as, ∃ b, f a = .ok b) ∨
      ∃ e, as.mapM f = .error e ∧ ∃ a ∈ as, f a = .error e := by
  induction as with
  | nil => exact .inl ⟨[], rfl, nofun⟩
  | cons a as ih =>
    rw [List.mapM_cons]
    cases ha : f a with
    | error e => exact .inr ⟨e, rfl, a, List.mem_cons_self, ha⟩
    | ok b =>
      rcases ih with ⟨bs, hrest, hall⟩ | ⟨e, hrest, a', hmem, he⟩
      · rw [hrest]
        exact .inl ⟨b :: bs, rfl, List.forall_mem_cons.mpr ⟨⟨b, ha⟩, hall⟩⟩
      · rw [hrest]
        exact .inr ⟨e, rfl, a', List.mem_cons_of_mem _ hmem, he⟩

theorem Glob.compileAll_cases (patterns : List String) :
    (∃ globs, compileAll patterns = .ok globs ∧ ∀ pattern ∈ patterns, ∃ glob, compile pattern = .ok glob) ∨
      ∃ e, compileAll patterns = .error e ∧ ∃ pattern ∈ patterns, compile pattern = .error e := by
  rcases Outcome.mapM_cases compile (patterns.filter (· != "")) with
    ⟨globs, hdone, hall⟩ | ⟨e, hfailed, pattern, hmem, he⟩
  · refine .inl ⟨globs, hdone, fun pattern hmem => ?_⟩
    by_cases hempty : pattern = ""
    · exact ⟨.inert, by rw [hempty]; rfl⟩
    · exact hall pattern (List.mem_filter.mpr ⟨hmem, by simpa using hempty⟩)
  · exact .inr ⟨e, hfailed, pattern, (List.mem_filter.mp hmem).1, he⟩

theorem Discovery.Filter.ofSelection_cases (f : FileSelection) :
    f.Compiles ∧ (∃ filter, ofSelection f = .ok filter) ∨
      ∃ e, ofSelection f = .error e ∧ ∃ pattern ∈ f.included ++ f.excluded, Glob.compile pattern = .error e := by
  rcases Glob.compileAll_cases f.included with ⟨included, hin, hinAll⟩ | ⟨e, hin, pattern, hmem, he⟩
  · rcases Glob.compileAll_cases f.excluded with ⟨excluded, hout, houtAll⟩ | ⟨e, hout, pattern, hmem, he⟩
    · refine .inl ⟨List.forall_mem_append.mpr ⟨hinAll, houtAll⟩, ⟨included, excluded⟩, ?_⟩
      rw [ofSelection, Outcome.bind_of_ok hin, Outcome.bind_of_ok hout]
    · refine .inr ⟨e, ?_, pattern, List.mem_append_right _ hmem, he⟩
      rw [ofSelection, Outcome.bind_of_ok hin, Outcome.bind_of_error hout]
  · refine .inr ⟨e, ?_, pattern, List.mem_append_left _ hmem, he⟩
    rw [ofSelection, Outcome.bind_of_error hin]

/-- Discovery fails for nothing but a pattern. -/
theorem Discovery.files_cases (w : Workspace) (root : Path) (f : FileSelection) :
    f.Compiles ∧ (∃ files, Discovery.files w root f = .ok files) ∨
      ∃ e, Discovery.files w root f = .error e ∧
        ∃ pattern ∈ f.included ++ f.excluded, Glob.compile pattern = .error e := by
  rcases Filter.ofSelection_cases f with ⟨hcompiles, filter, hfilter⟩ | ⟨e, hfilter, hpattern⟩
  · refine .inl ⟨hcompiles, ?_⟩
    rw [files, Outcome.bind_of_ok hfilter]
    split
    · exact ⟨_, rfl⟩
    · exact ⟨[], rfl⟩
  · refine .inr ⟨e, ?_, hpattern⟩
    rw [files, Outcome.bind_of_error hfilter]

/-- A pattern fails as a pattern: neither the file system nor a wish of the user's is to blame. -/
theorem Glob.compile_error {pattern : String} {e : Failure} (h : compile pattern = .error e) :
    e = .glob pattern ∨ ∃ detail, e = .badPattern detail := by
  unfold compile at h
  repeat' split at h
  all_goals first
    | cases h; exact .inl rfl
    | cases h; exact .inr ⟨_, rfl⟩
    | cases h

theorem Glob.compile_loneEscape : compile "src\\" = .error (.glob "src\\") := by
  have hdropped : dropTrailingBlanks "src\\".toList = ['s', 'r', 'c', '\\'] := by cbv
  have hsegments : segments? ['s', 'r', 'c', '\\'] = some ([doubleStar, ['s', 'r', 'c', '\\']], false) := by
    cbv
  have hsegment : segment ['s', 'r', 'c', '\\'] = .error .loneEscape := by simp [segment, Except.map]
  have hpieces : ofSegments [doubleStar, ['s', 'r', 'c', '\\']] false = .error .loneEscape := by
    simp [ofSegments, doubleStar, following, hsegment, Except.map, bind, Except.bind]
  rw [compile, hdropped]
  simp [hsegments, hpieces]

namespace Protection

variable {p : Protection} {s : Session} {c : ErrorCount}

/-- The count of the project's errors, where it can be trusted. -/
def Trusts (p : Protection) (s : Session) (c : ErrorCount) : Prop :=
  (p.count s).1 = .ok c ∧ c.suspiciousZero = false

/-- No errors and no warnings were counted, and that can be trusted. -/
def IsClean (p : Protection) (s : Session) : Prop := ∃ c, p.Trusts s c ∧ c.total = 0

/-- Discovery succeeds, and this many of the files it finds are source files. -/
def HasSize (p : Protection) (s : Session) (n : Nat) : Prop :=
  ∃ files, Discovery.files (p.count s).2.workspace p.root p.config.files = .ok files ∧
    files.countP (fun f => Path.isSourceFile f.text) = n

end Protection

/-- A class that goes by what was counted. -/
structure ProjectClass.Fits (c : ProjectClass) (p : Protection) (s : Session) : Prop where
  fresh_iff : c = .fresh ↔ p.IsClean s ∧ ∃ n : Nat, p.HasSize s n ∧ n < p.config.newProjectFileThreshold
  legacy_iff : c = .legacy ↔ p.IsClean s ∧ ∃ n : Nat, p.HasSize s n ∧ p.config.newProjectFileThreshold ≤ n
  legacyWithErrors_iff : c = .legacyWithErrors ↔ ∃ k, p.Trusts s k ∧ 0 < k.total
  unknown_iff : c = .unknown ↔ ¬ ∃ k, p.Trusts s k

namespace Protection

variable {p : Protection} {s : Session} {c : ErrorCount}

theorem Trusts.unique (h : p.Trusts s c) {c' : ErrorCount} (h' : p.Trusts s c') : c' = c :=
  Except.ok.inj (h'.1.symm.trans h.1)

theorem fits_unknown (h : ¬ ∃ c, p.Trusts s c) : ProjectClass.unknown.Fits p s where
  fresh_iff := by
    simp only [reduceCtorEq, false_iff]
    rintro ⟨⟨c, hc, -⟩, -⟩
    exact h ⟨c, hc⟩
  legacy_iff := by
    simp only [reduceCtorEq, false_iff]
    rintro ⟨⟨c, hc, -⟩, -⟩
    exact h ⟨c, hc⟩
  legacyWithErrors_iff := by
    simp only [reduceCtorEq, false_iff]
    rintro ⟨c, hc, -⟩
    exact h ⟨c, hc⟩
  unknown_iff := by simpa using h

theorem fits_legacyWithErrors (h : p.Trusts s c) (hpos : 0 < c.total) : ProjectClass.legacyWithErrors.Fits p s := by
  have hdirty : ¬ p.IsClean s := by
    rintro ⟨c', hc', hzero⟩
    rw [h.unique hc'] at hzero
    omega
  exact
    { fresh_iff := by simp [hdirty]
      legacy_iff := by simp [hdirty]
      legacyWithErrors_iff := by simpa using ⟨c, h, hpos⟩
      unknown_iff := by simpa using ⟨c, h⟩ }

theorem fits_size (h : p.Trusts s c) (hzero : c.total = 0) {n : Nat} (hn : p.HasSize s n) :
    (if n < p.config.newProjectFileThreshold then ProjectClass.fresh else .legacy).Fits p s := by
  have hclean : p.IsClean s := ⟨c, h, hzero⟩
  have hsize {m : Nat} (hm : p.HasSize s m) : m = n := by
    obtain ⟨files, hfiles, rfl⟩ := hn
    obtain ⟨files', hfiles', rfl⟩ := hm
    rw [Except.ok.inj (hfiles'.symm.trans hfiles)]
  have hnone : ¬ ∃ k, p.Trusts s k ∧ 0 < k.total := by
    rintro ⟨k, hk, hpos⟩
    rw [h.unique hk] at hpos
    omega
  have hsmall : (∃ m : Nat, p.HasSize s m ∧ m < p.config.newProjectFileThreshold) ↔
      n < p.config.newProjectFileThreshold :=
    ⟨fun ⟨m, hm, hlt⟩ => hsize hm ▸ hlt, fun hlt => ⟨n, hn, hlt⟩⟩
  have hlarge : (∃ m : Nat, p.HasSize s m ∧ p.config.newProjectFileThreshold ≤ m) ↔
      p.config.newProjectFileThreshold ≤ n :=
    ⟨fun ⟨m, hm, hle⟩ => hsize hm ▸ hle, fun hle => ⟨n, hn, hle⟩⟩
  by_cases hlt : (n : Int) < p.config.newProjectFileThreshold
  · rw [if_pos hlt]
    exact
      { fresh_iff := by simp [hclean, hsmall, hlt]
        legacy_iff := by simp [hclean, hlarge, hlt]
        legacyWithErrors_iff := by simpa using hnone
        unknown_iff := by simpa using ⟨c, h⟩ }
  · rw [if_neg hlt]
    exact
      { fresh_iff := by simp [hclean, hsmall, hlt]
        legacy_iff := by simpa [hclean, hlarge] using hlt
        legacyWithErrors_iff := by simpa using hnone
        unknown_iff := by simpa using ⟨c, h⟩ }

theorem settledAfter_of_error {e : Failure} (h : (p.count s).1 = .error e) :
    p.settledAfter s = if e.endsRun then .error e else .ok .unknown := by
  rw [settledAfter, classAfter, h]
  by_cases hends : e.endsRun = true
  · have hother (detail : String) : e ≠ .unclassified detail := by
      rintro rfl
      cases hends
    simp [classOfCount, hends, settledClass_of_error hother]
  · simp [classOfCount, hends, settledClass]

theorem settledAfter_of_suspicious (h : (p.count s).1 = .ok c) (hsuspicious : c.suspiciousZero = true) :
    p.settledAfter s = .ok .unknown := by
  simp [settledAfter, classAfter, h, classOfCount, hsuspicious, settledClass]

theorem Trusts.settledAfter_of_pos (h : p.Trusts s c) (hpos : 0 < c.total) :
    p.settledAfter s = .ok .legacyWithErrors := by
  simp [settledAfter, classAfter, h.1, classOfCount, h.2, hpos, settledClass]

theorem Trusts.settledAfter_of_zero (h : p.Trusts s c) (hzero : c.total = 0) :
    p.settledAfter s = settledClass (classOfSize p.config.newProjectFileThreshold
      (Discovery.files (p.count s).2.workspace p.root p.config.files)) := by
  simp [settledAfter, classAfter, h.1, classOfCount, h.2, hzero]

/-- What enabling makes of the class. It fails where the count was stopped, or where a project without errors has a
file pattern that cannot be compiled. -/
theorem settledAfter_cases (p : Protection) (s : Session)
    (hcounted : ∀ c, (p.count s).1 = .ok c → c.Counted) :
    (∃ c, p.settledAfter s = .ok c ∧ c.Fits p s ∧ Settled (p.count s).1 ∧
      (p.IsClean s → p.config.files.Compiles)) ∨
    (∃ e, p.settledAfter s = .error e ∧ (p.count s).1 = .error e ∧ e.endsRun = true) ∨
    ∃ e, p.settledAfter s = .error e ∧ p.IsClean s ∧
      ∃ pattern ∈ p.config.files.included ++ p.config.files.excluded, Glob.compile pattern = .error e := by
  cases hcount : (p.count s).1 with
  | error e =>
    have hnone : ¬ ∃ c, p.Trusts s c := by simp [Trusts, hcount]
    have hsettled := settledAfter_of_error hcount
    by_cases hends : e.endsRun = true
    · rw [if_pos hends] at hsettled
      exact .inr (.inl ⟨e, hsettled, rfl, hends⟩)
    · rw [if_neg hends] at hsettled
      refine .inl ⟨.unknown, hsettled, fits_unknown hnone, by simpa using hends, ?_⟩
      rintro ⟨c, hc, -⟩
      exact absurd ⟨c, hc⟩ hnone
  | ok c =>
    by_cases hsuspicious : c.suspiciousZero = true
    · have hnone : ¬ ∃ c, p.Trusts s c := by simp [Trusts, hcount, hsuspicious]
      refine .inl ⟨.unknown, settledAfter_of_suspicious hcount hsuspicious, fits_unknown hnone, .ok c, ?_⟩
      rintro ⟨c, hc, -⟩
      exact absurd ⟨c, hc⟩ hnone
    have htrusts : p.Trusts s c := ⟨hcount, by simpa using hsuspicious⟩
    by_cases hpos : 0 < c.total
    · refine .inl ⟨_, htrusts.settledAfter_of_pos hpos, fits_legacyWithErrors htrusts hpos, .ok c, ?_⟩
      rintro ⟨c', hc', hzero⟩
      rw [htrusts.unique hc'] at hzero
      omega
    have hzero : c.total = 0 := by
      have hnonneg := (hcounted c hcount).nonneg
      simp only [ErrorCount.total] at hpos ⊢
      omega
    rw [htrusts.settledAfter_of_zero hzero]
    rcases Discovery.files_cases (p.count s).2.workspace p.root p.config.files with
      ⟨hcompiles, files, hfiles⟩ | ⟨e, hfiles, pattern, hmem, he⟩
    · rw [hfiles]
      exact .inl ⟨_, rfl, fits_size htrusts hzero ⟨files, hfiles, rfl⟩, .ok c, fun _ => hcompiles⟩
    · refine .inr (.inr ⟨e, ?_, ⟨c, htrusts, hzero⟩, pattern, hmem, he⟩)
      rw [hfiles]
      rcases Glob.compile_error he with rfl | ⟨detail, rfl⟩ <;> rfl

/-- Enabling without hooks ends with the project protected and its class that of what was counted, unless the count was
stopped, or there was nothing to count and a file pattern cannot be compiled. Then the pattern's failure ends it, and
nothing is made known. -/
theorem enable_completes_iff (p : Protection) (strict : Option Bool) (s : Session)
    (hcounted : ∀ c, (p.count s).1 = .ok c → c.Counted) :
    ((∃ state after, p.perform (.enable strict false) s = (.ok state, after)) ↔
      Settled (p.count s).1 ∧ (p.IsClean s → p.config.files.Compiles)) ∧
    (∀ state after, p.perform (.enable strict false) s = (.ok state, after) →
      state.enabled = true ∧ state.level = p.levelFor strict ∧ state.projectClass.Fits p s ∧
        after = { (p.count s).2 with events := (p.count s).2.events ++ [.policyTransition state] }) ∧
    ∀ e after, p.perform (.enable strict false) s = (.error e, after) →
      after = (p.count s).2 ∧
        ((p.count s).1 = .error e ∧ e.endsRun = true ∨
          p.IsClean s ∧ ∃ pattern ∈ p.config.files.included ++ p.config.files.excluded,
            Glob.compile pattern = .error e) := by
  rcases settledAfter_cases p s hcounted with ⟨c, hc, hfits, hsettled, hfine⟩ | ⟨e, he, hcount, hends⟩ |
    ⟨e, he, hclean, pattern, hmem, hpattern⟩
  · have hdone := perform_enable strict hc
    rw [enter_apply] at hdone
    rw [hdone]
    refine ⟨iff_of_true ⟨_, _, rfl⟩ ⟨hsettled, hfine⟩, ?_, nofun⟩
    rintro state after ⟨⟩
    exact ⟨rfl, rfl, hfits, rfl⟩
  · rw [perform_enable_of_error strict false he]
    refine ⟨iff_of_false (fun ⟨_, _, h⟩ => nomatch h) fun h => ?_, nofun, ?_⟩
    · simp [h.1 e hcount] at hends
    · rintro e after ⟨⟩
      exact ⟨rfl, .inl ⟨hcount, hends⟩⟩
  · rw [perform_enable_of_error strict false he]
    refine ⟨iff_of_false (fun ⟨_, _, h⟩ => nomatch h) fun h => ?_, nofun, ?_⟩
    · obtain ⟨glob, hglob⟩ := h.2 hclean pattern hmem
      rw [hpattern] at hglob
      cases hglob
    · rintro e after ⟨⟩
      exact ⟨rfl, .inr ⟨hclean, pattern, hmem, hpattern⟩⟩

/-- Nothing is wrong in an empty project, which is a new one. -/
theorem enable_completes_fresh :
    let config : Config := { files := { included := [] } }
    let s : Session :=
      { workspace := { root := { root := "/" } }
        bench := { replies := [("eslint", [.ok { stdout := "[]" }])] }
        now := { year := 2024, month := 1, day := 2 } }
    let p := Protection.standard { root := "/" } config none
    (∀ c, (p.count s).1 = .ok c → c.Counted) ∧
      ∃ state after, p.perform (.enable none false) s = (.ok state, after) ∧ state.enabled = true ∧
        state.projectClass = .fresh := by
  intro config s p
  have hcounted (c : ErrorCount) (h : (p.count s).1 = .ok c) : c.Counted := ⟨_, _, _, _, h⟩
  let counted : ErrorCount := { origins := [("type-check", .none), ("lint", .tool)] }
  have hcount : (p.count s).1 = .ok counted := by cbv
  have hclean : p.IsClean s := ⟨counted, ⟨hcount, rfl⟩, rfl⟩
  have hsame : (p.count s).2.workspace = s.workspace := (standard_count_observes _ _ _ s).workspace
  have hfiles : Discovery.files (p.count s).2.workspace p.root config.files = .ok [] := by
    rw [hsame]
    cbv
  have hcompiles : config.files.Compiles := by
    rcases Discovery.files_cases (p.count s).2.workspace p.root config.files with ⟨h, -⟩ | ⟨e, he, -⟩
    · exact h
    · rw [hfiles] at he
      cases he
  obtain ⟨hcompletes, hstate, -⟩ := enable_completes_iff p none s hcounted
  obtain ⟨state, after, hdone⟩ := hcompletes.mpr ⟨by rw [hcount]; exact .ok counted, fun _ => hcompiles⟩
  obtain ⟨henabled, -, hfits, -⟩ := hstate state after hdone
  have hsize : p.HasSize s 0 := ⟨[], hfiles, rfl⟩
  exact ⟨hcounted, state, after, hdone, henabled, hfits.fresh_iff.mpr ⟨hclean, 0, hsize, by decide⟩⟩

/-- In a project without errors a pattern that ends in a lone escape stops the transition. -/
theorem enable_not_completed :
    let config : Config := { files := { included := [], excluded := ["src\\"] } }
    let s : Session :=
      { workspace := { root := { root := "/" } }
        bench := { replies := [("eslint", [.ok { stdout := "[]" }])] }
        now := { year := 2024, month := 1, day := 2 } }
    let p := Protection.standard { root := "/" } config none
    p.IsClean s ∧ ∃ after, p.perform (.enable none false) s = (.error (.glob "src\\"), after) ∧
      after.transitions = [] := by
  intro config s p
  let counted : ErrorCount := { origins := [("type-check", .none), ("lint", .tool)] }
  have hcount : (p.count s).1 = .ok counted := by cbv
  have hclean : p.IsClean s := ⟨counted, ⟨hcount, rfl⟩, rfl⟩
  have hfiles : Discovery.files (p.count s).2.workspace p.root config.files = .error (.glob "src\\") := by
    rcases Discovery.files_cases (p.count s).2.workspace p.root config.files with ⟨hcompiles, -⟩ | ⟨e, he, hpattern⟩
    · obtain ⟨glob, hglob⟩ := hcompiles "src\\" List.mem_cons_self
      rw [Glob.compile_loneEscape] at hglob
      cases hglob
    · obtain ⟨pattern, hmem, hpattern⟩ := hpattern
      rw [List.mem_singleton.mp hmem, Glob.compile_loneEscape] at hpattern
      rw [he, Except.error.inj hpattern]
  have hsettled : p.settledAfter s = .error (.glob "src\\") := by
    rw [settledAfter, classAfter, hcount]
    exact congrArg (fun files => settledClass (classOfSize _ files)) hfiles
  have hquiet := standard_count_observes { root := "/" } config none s
  exact ⟨hclean, (p.count s).2, perform_enable_of_error none false hsettled, hquiet.transitions⟩

end Protection

end QualityGate
