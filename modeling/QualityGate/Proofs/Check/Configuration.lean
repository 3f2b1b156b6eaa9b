import Mathlib
import QualityGate.Check.Configuration
import QualityGate.Proofs.Check.CompilerOptions

/-! The check of the configuration files. The first file of the chain that sets an option decides what is reported for
it; compiler and linter files are answered for separately, unless one of them stops the whole check. -/

namespace QualityGate.Check.Configuration

open CompilerOptions

/-- An issue with a code is reported. -/
def Reported (issues : List Issue) (code : String) : Prop := ∃ i ∈ issues, i.code = some code

@[simp]
theorem reported_append {issues further : List Issue} {code : String} :
    Reported (issues ++ further) code ↔ Reported issues code ∨ Reported further code := by
  simp [Reported, or_and_right, exists_or]

section options

variable {ctx : Context} {w : Workspace} {options : Json.Fields} {name : String} {issues : List Issue}

theorem isTrue_iff {v : Option Json} : isTrue v = true ↔ v = some (.bool true) := by
  unfold isTrue
  split
  · simp
  · simp_all

theorem isFalse_iff {v : Option Json} : isFalse v = true ↔ v = some (.bool false) := by
  unfold isFalse
  split
  · simp
  · simp_all

theorem reported_strict_iff :
    Reported (optionIssues ctx options) "strict" ↔ options.lookup "strict" ≠ some (.bool true) := by
  rw [ne_eq, ← isTrue_iff, optionIssues, reported_append]
  cases isTrue (options.lookup "strict") <;> cases isFalse (options.lookup "noImplicitAny") <;>
    simp [Reported, unsafeOption]

theorem reported_noImplicitAny_iff :
    Reported (optionIssues ctx options) "noImplicitAny" ↔ options.lookup "noImplicitAny" = some (.bool false) := by
  rw [← isFalse_iff, optionIssues, reported_append]
  cases isTrue (options.lookup "strict") <;> cases isFalse (options.lookup "noImplicitAny") <;>
    simp [Reported, unsafeOption]

end options

/-! Compiler files. -/

section compiler

variable {ctx : Context} {w : Workspace} {fields : Json.Fields} {e : Failure}

/-- A file without a text is not there, or cannot be read. -/
theorem contains_or_unread (w : Workspace) (p : Path) : w.contains p = true ∨ ∃ e, content w p = .unread e := by
  cases hstat : w.stat p with
  | ok e => simp [Workspace.contains, hstat, Except.isOk, Except.toBool]
  | error e =>
    have hread : w.readMarkedText p = .error (.access e p.text) := by
      rw [Workspace.readMarkedText, Workspace.decoded, Workspace.readBytes, hstat]
      rfl
    exact .inr ⟨_, by rw [content, hread]⟩

theorem compilerIssues_of_object (h : content w (ctx.root.child compilerFile) = .value (.obj fields)) :
    compilerIssues ctx w =
      resolve w maxLinks (ctx.root.child compilerFile) fields >>= fun options => .ok (optionIssues ctx options) := by
  have hcontains : w.contains (ctx.root.child compilerFile) = true :=
    (contains_or_unread w _).resolve_right fun ⟨e, he⟩ => nomatch h.symm.trans he
  simp only [compilerIssues, hcontains, load_of_object h]
  rfl

theorem compilerIssues_of_invalid (h : (content w (ctx.root.child compilerFile)).Invalid) :
    ∃ issues, compilerIssues ctx w = .ok issues := by
  obtain ⟨e, hload, he⟩ := load_of_invalid h
  unfold compilerIssues
  dsimp only
  split
  · exact ⟨_, rfl⟩
  · exact ⟨_, by rw [hload]; exact if_pos he⟩

theorem compilerIssues_of_exceeds (h : (content w (ctx.root.child compilerFile)).Exceeds e) :
    compilerIssues ctx w = .error e := by
  obtain ⟨hload, he⟩ := load_of_exceeds h
  have hcontains : w.contains (ctx.root.child compilerFile) = true := by
    refine (contains_or_unread w _).resolve_right fun ⟨e', he'⟩ => ?_
    rw [he'] at h
    exact h
  simp [compilerIssues, hcontains, hload, he]

/-- The compiler's file is within bounds, nothing stands in the way of a link, and the options that are set along the
chain can be made out. -/
def Resolvable (ctx : Context) (w : Workspace) : Prop :=
  (∀ e, ¬ (content w (ctx.root.child compilerFile)).Exceeds e) ∧
    ∀ fields files stop, content w (ctx.root.child compilerFile) = .value (.obj fields) →
      Chain w maxLinks ⟨ctx.root.child compilerFile, fields⟩ files stop → stop = none ∧ ∀ g ∈ files, g.Usable

theorem exists_compilerIssues_iff : (∃ issues, compilerIssues ctx w = .ok issues) ↔ Resolvable ctx w := by
  rcases (content w (ctx.root.child compilerFile)).object_or with ⟨fields, h⟩ | h | ⟨e, h⟩
  · obtain ⟨files, stop, hchain⟩ := Chain.exists_of w maxLinks ⟨ctx.root.child compilerFile, fields⟩
    have hbounds : ∀ e, ¬ (content w (ctx.root.child compilerFile)).Exceeds e := fun e he => by
      rw [h] at he
      exact he
    rw [compilerIssues_of_object h, Outcome.exists_bind_ok_iff]
    refine hchain.exists_resolve_iff.trans ⟨fun hfree => ⟨hbounds, fun fields' files' stop' h' hchain' => ?_⟩,
      fun hfree => hfree.2 fields files stop h hchain⟩
    obtain rfl : fields = fields' := by simpa using h.symm.trans h'
    obtain ⟨rfl, rfl⟩ := hchain.unique hchain'
    exact hfree
  · refine iff_of_true (compilerIssues_of_invalid h) ⟨fun e he => he.not_invalid h, fun fields _ _ hobject => ?_⟩
    rw [hobject] at h
    exact h.elim
  · refine iff_of_false ?_ fun hfree => hfree.1 e h
    rintro ⟨issues, hissues⟩
    cases hissues.symm.trans (compilerIssues_of_exceeds h)

end compiler

/-! Linter files. -/

/-- A file is there, and is taken for JSON. -/
def Audited (ctx : Context) (w : Workspace) (name : String) : Prop :=
  w.contains (ctx.root.child name) = true ∧ (name = ".eslintrc" → looksLikeJson w (ctx.root.child name) = true)

section linter

variable {ctx : Context} {w : Workspace} {name : String} {issues : List Issue} {e : Failure}

theorem linterIssues_of_not_audited (h : ¬ Audited ctx w name) : linterIssues ctx w name = .ok [] := by
  unfold linterIssues
  refine if_pos ?_
  by_contra hno
  apply h
  simp only [Bool.or_eq_true, Bool.not_eq_true', Bool.and_eq_true, beq_iff_eq, not_or, not_and, Bool.not_eq_false] at hno
  exact hno

theorem linterIssues_of_audited (h : Audited ctx w name) :
    linterIssues ctx w name = match load w (ctx.root.child name) with
      | .error e => if isInvalid e then .ok [malformed ctx e (ctx.root.child name).text] else .error e
      | .ok _ => .ok [] := by
  unfold linterIssues
  refine if_neg ?_
  simp only [Bool.or_eq_true, Bool.not_eq_true', Bool.and_eq_true, beq_iff_eq, not_or, not_and, Bool.not_eq_false]
  exact h

theorem linterIssues_of_invalid (h : Audited ctx w name) (hinvalid : (content w (ctx.root.child name)).Invalid) :
    ∃ e, linterIssues ctx w name = .ok [malformed ctx e (ctx.root.child name).text] := by
  obtain ⟨e, hload, he⟩ := load_of_invalid hinvalid
  exact ⟨e, by simp only [linterIssues_of_audited h, hload, he, if_true]⟩

theorem exists_linterIssues_iff :
    (∃ issues, linterIssues ctx w name = .ok issues) ↔
      (Audited ctx w name → ∀ e, ¬ (content w (ctx.root.child name)).Exceeds e) := by
  by_cases haudited : Audited ctx w name
  · rw [forall_prop_of_true haudited]
    rcases (content w (ctx.root.child name)).object_or with ⟨fields, h⟩ | h | ⟨e, h⟩
    · refine iff_of_true ⟨[], ?_⟩ fun e => by simp [h, Content.Exceeds]
      simp only [linterIssues_of_audited haudited, load_of_object h]
    · obtain ⟨e, he⟩ := linterIssues_of_invalid haudited h
      exact iff_of_true ⟨_, he⟩ fun e hexceeds => hexceeds.not_invalid h
    · refine iff_of_false ?_ fun hno => hno e h
      rintro ⟨issues, hissues⟩
      obtain ⟨hload, he⟩ := load_of_exceeds h
      simp [linterIssues_of_audited haudited, hload, he] at hissues
  · exact iff_of_true ⟨[], linterIssues_of_not_audited haudited⟩ fun h => absurd h haudited

/-- Whatever is said about a file for the linter is that it cannot be used. -/
theorem code_of_linterIssues (h : linterIssues ctx w name = .ok issues) :
    ∀ i ∈ issues, i.code = some "config-malformed" := by
  by_cases haudited : Audited ctx w name
  · rw [linterIssues_of_audited haudited] at h
    split at h
    · split at h
      · cases h
        simp [malformed]
      · cases h
    · cases h
      nofun
  · rw [linterIssues_of_not_audited haudited] at h
    cases h
    nofun

end linter

/-! The whole check. -/

theorem findings_eq_ok_iff {ctx : Context} {w : Workspace} {found : Findings} :
    findings ctx w = .ok found ↔ ∃ issues further, compilerIssues ctx w = .ok issues ∧
      linterFiles.mapM (linterIssues ctx w) = .ok further ∧ found = { issues := issues ++ further.flatten } := by
  constructor
  · intro h
    obtain ⟨issues, hissues, hrest⟩ := Outcome.bind_eq_ok h
    obtain ⟨further, hfurther, hfound⟩ := Outcome.bind_eq_ok hrest
    exact ⟨issues, further, hissues, hfurther, (Except.ok.inj hfound).symm⟩
  · rintro ⟨issues, further, hissues, hfurther, rfl⟩
    rw [findings, Outcome.bind_of_ok hissues, Outcome.bind_of_ok hfurther]

/-! Options. -/

/-- Issues say of two options what they are to say. -/
structure Judged (issues : List Issue) (options : Json.Fields) : Prop where
  strict : Reported issues "strict" ↔ options.lookup "strict" ≠ some (.bool true)
  noImplicitAny : Reported issues "noImplicitAny" ↔ options.lookup "noImplicitAny" = some (.bool false)

section judged

variable {ctx : Context} {w : Workspace} {fields options : Json.Fields} {found : Findings} {issues : List Issue}
  {further : List (List Issue)}

theorem judged_optionIssues : Judged (optionIssues ctx options) options := ⟨reported_strict_iff, reported_noImplicitAny_iff⟩

theorem code_of_further (h : linterFiles.mapM (linterIssues ctx w) = .ok further) :
    ∀ i ∈ further.flatten, i.code = some "config-malformed" := by
  intro i hi
  obtain ⟨issues, hissues, hi⟩ := List.mem_flatten.mp hi
  obtain ⟨name, -, hname⟩ := Outcome.exists_of_mem_mapM h hissues
  exact code_of_linterIssues hname i hi

/-- What is said about the linter's files has nothing to do with options. -/
theorem Judged.findings (h : Judged issues options) (hissues : compilerIssues ctx w = .ok issues)
    (hfound : findings ctx w = .ok found) : Judged found.issues options := by
  obtain ⟨issues', further, hissues', hfurther, rfl⟩ := findings_eq_ok_iff.mp hfound
  obtain rfl := Except.ok.inj (hissues.symm.trans hissues')
  have hcode := code_of_further hfurther
  have hno (code : String) (hother : code ≠ "config-malformed") : ¬ Reported further.flatten code := by
    rintro ⟨i, hi, he⟩
    exact hother (Option.some.inj (he.symm.trans (hcode i hi)))
  constructor
  · rw [reported_append, h.strict]
    exact or_iff_left (hno _ (by decide))
  · rw [reported_append, h.noImplicitAny]
    exact or_iff_left (hno _ (by decide))

end judged

/-- A compiler's file and a file beside it. -/
def beside (compiler base : String) : Workspace :=
  { root := { root := "/" }
    entries := [([compilerFile], .file compiler.toUTF8 false), (["b.json"], .file base.toUTF8 false)] }

def atRoot (name : String) : Path := { root := "/", parts := [name] }

section beside

variable {w : Workspace} {p : Path} {fields : Json.Fields}

theorem stat_beside (compiler base : String) :
    (beside compiler base).stat (atRoot compilerFile) = .ok (.file compiler.toUTF8 false) ∧
      (beside compiler base).stat (atRoot "b.json") = .ok (.file base.toUTF8 false) := by
  constructor <;> cbv

theorem baseFile_beside (compiler base : String) :
    baseFile (beside compiler base) (atRoot compilerFile) "./b" = .ok (atRoot "b.json") ∧
      baseFile (beside compiler base) (atRoot "b.json") "./b" = .ok (atRoot "b.json") := by
  constructor <;> cbv

theorem content_of_written {executable : Bool} {cs : List Char}
    (hstat : w.stat p = .ok (.file ((Json.obj fields).text Json.compact).toUTF8 executable))
    (hs : ((Json.obj fields).text Json.compact).toList = '\x7b' :: cs)
    (hplain : '\r' ∉ ((Json.obj fields).text Json.compact).toList)
    (hformed : Json.Formed Json.mostNested (.obj fields)) (hshort : Json.Short (.obj fields)) :
    content w p = .value (.obj fields) := by
  rw [content_of_text hstat hs (by decide) hplain,
    Json.readCommented_of_read (Json.read_text Json.compact_blank hformed hshort)]

def strictBeside : Json.Fields := [("extends", .str "./b"), ("compilerOptions", .obj [("strict", .bool true)])]

def looseBeside : Json.Fields :=
  [("extends", .str "./b"), ("compilerOptions", .obj [("strict", .bool false), ("noImplicitAny", .bool false)])]

theorem content_strictBeside (hstat : w.stat p = .ok (.file ((Json.obj strictBeside).text Json.compact).toUTF8 false)) :
    content w p = .value (.obj strictBeside) := by
  refine @content_of_written _ _ _ _ ((Json.obj strictBeside).text Json.compact).toList.tail hstat rfl (by decide) ?_ ?_
  · simp [strictBeside, Json.Formed, Json.FormedFields, Json.mostNested]
  · simp [strictBeside]

theorem content_looseBeside (hstat : w.stat p = .ok (.file ((Json.obj looseBeside).text Json.compact).toUTF8 false)) :
    content w p = .value (.obj looseBeside) := by
  refine @content_of_written _ _ _ _ ((Json.obj looseBeside).text Json.compact).toList.tail hstat rfl (by decide) ?_ ?_
  · simp [looseBeside, Json.Formed, Json.FormedFields, Json.mostNested]
  · simp [looseBeside]

/-- A file that extends itself: the chain ends at its limit. -/
theorem chain_of_self {w : Workspace} {f : File} (h : LeadsTo w f f) (links : Nat) :
    Chain w links f (List.replicate (links + 1) f) none := by
  induction links with
  | zero => exact .limit f
  | succ links ih => exact .link h ih

end beside

/-! Files apart. -/

section apart

variable {ctx : Context} {w w' : Workspace} {name : String} {places : List (List String)}

theorem looksLikeJson_congr {p : Path} (h : w'.stat p = w.stat p) : looksLikeJson w' p = looksLikeJson w p := by
  have hbytes : w'.readBytes p = w.readBytes p := by rw [Workspace.readBytes, Workspace.readBytes, h]
  have hread : w'.readMarkedText p = w.readMarkedText p := by
    rw [Workspace.readMarkedText, Workspace.readMarkedText, hbytes]
  rw [looksLikeJson, looksLikeJson, hread]

theorem linterIssues_congr (h : w.SameAt w' (ctx.root.child name)) : linterIssues ctx w' name = linterIssues ctx w name := by
  unfold linterIssues
  dsimp only
  rw [h.contains]
  rcases h with h | ⟨⟨f, hf⟩, -⟩
  · rw [looksLikeJson_congr h, load_congr h]
  · simp [Workspace.contains, hf, Except.isOk, Except.toBool]

theorem compilerIssues_agree (h : Workspace.Agree places w w') (h' : Workspace.Agree places w' w)
    (hfirst : w.SameAt w' (ctx.root.child compilerFile))
    (hsame : ∀ fields q, content w (ctx.root.child compilerFile) = .value (.obj fields) →
      Consults w maxLinks ⟨ctx.root.child compilerFile, fields⟩ q → w.SameAt w' q) :
    compilerIssues ctx w' = compilerIssues ctx w := by
  have hcontains := hfirst.contains
  rcases hfirst with hfirst | ⟨⟨f, hf⟩, -⟩
  · have hload := load_congr hfirst
    rcases (content w (ctx.root.child compilerFile)).object_or with ⟨fields, hobject⟩ | hinvalid | ⟨e, hexceeds⟩
    · have hresolve : resolve w' maxLinks (ctx.root.child compilerFile) fields =
          resolve w maxLinks (ctx.root.child compilerFile) fields :=
        @resolve_agree _ _ _ _ ⟨_, fields⟩ h h' fun q hq => hsame fields q hobject hq
      simp only [compilerIssues, hcontains, hload, load_of_object hobject, hresolve]
    · obtain ⟨e, he, hi⟩ := load_of_invalid hinvalid
      simp only [compilerIssues, hcontains, hload, he, hi]
    · obtain ⟨he, hi⟩ := load_of_exceeds hexceeds
      simp only [compilerIssues, hcontains, hload, he, hi]
  · have hmissing : w.contains (ctx.root.child compilerFile) = false := by
      simp [Workspace.contains, hf, Except.isOk, Except.toBool]
    simp [compilerIssues, hcontains, hmissing]

end apart

/-- A third file, for the linter. -/
def besideLinter (compiler base linter : String) : Workspace :=
  { root := { root := "/" }
    entries := [([compilerFile], .file compiler.toUTF8 false), (["b.json"], .file base.toUTF8 false),
      ([".eslintrc.json"], .file linter.toUTF8 false)] }

theorem stat_besideLinter (compiler base linter : String) :
    (besideLinter compiler base linter).stat (atRoot compilerFile) = .ok (.file compiler.toUTF8 false) ∧
      (besideLinter compiler base linter).stat (atRoot "b.json") = .ok (.file base.toUTF8 false) ∧
      (besideLinter compiler base linter).stat (atRoot ".eslintrc.json") = .ok (.file linter.toUTF8 false) := by
  refine ⟨?_, ?_, ?_⟩ <;> cbv

theorem baseFile_besideLinter (compiler base linter : String) :
    baseFile (besideLinter compiler base linter) (atRoot compilerFile) "./b" = .ok (atRoot "b.json") := by
  cbv

def numbered : Json.Fields := [("compilerOptions", .int 7)]

end QualityGate.Check.Configuration
