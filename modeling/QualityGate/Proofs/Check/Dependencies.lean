import Mathlib
import QualityGate.Proofs.Check.Commanded
import QualityGate.Proofs.Finding.Repetition
import QualityGate.Proofs.Output.Obstacles

/-! What an audit of the packages reports. All its issues stand in one place, so that only their codes keep them apart:
the names of the packages, or the names of the modules with the numbers of the advisories. -/

namespace QualityGate

namespace Check.Dependencies

open Output.Vulnerability

/-- An issue of an entry of the audit. -/
structure Reported (table : SeverityTable) (code : String) (entry : Json) (i : Issue) : Prop where
  code : i.code = some code
  severity : i.severity = table.forDependency (((entry.field? "severity").map Plain.text).getD "high")
  source : i.source = .dependency
  place : (i.file, i.line, i.column) = (Building.manifest, 0, 0)

section

variable {table : SeverityTable} {fields entries : Json.Fields} {payload entry : Json} {issues : List Issue}
  {code : String × Json → String}

/-! Packages. -/

/-- Where there is a word on what an entry comes from, it is a list. -/
def Listed (entry : Json) : Prop := ∀ v, entry.field? "via" = some v → ∃ items, v = .arr items

theorem exists_packageIssue (h : Listed entry) (table : SeverityTable) (name : String) :
    ∃ i, packageIssue table Building.manifest name entry = .ok i := by
  cases hissue : packageIssue table Building.manifest name entry with
  | ok i => exact ⟨i, rfl⟩
  | error e =>
    obtain ⟨v, hv, hscalar, -⟩ := packageIssue_eq_error_iff.mp hissue
    obtain ⟨items, rfl⟩ := h v hv
    cases hscalar

theorem reported_of_packageIssue {name : String} {i : Issue}
    (h : packageIssue table Building.manifest name entry = .ok i) : Reported table name entry i := by
  obtain ⟨title, -, hissue⟩ := Outcome.bind_eq_ok h
  cases hissue
  exact ⟨rfl, rfl, rfl, rfl⟩

theorem byName_perm (fields : Json.Fields) : (byName fields).Perm fields := List.mergeSort_perm _ _

theorem byName_ascending (h : (fields.map Prod.fst).Nodup) : ((byName fields).map Prod.fst).SortedLT := by
  have hle (a b : String × Json) : (!decide (b.1 < a.1)) = true ↔ a.1 ≤ b.1 := by
    rw [Bool.not_eq_true', decide_eq_false_iff_not, not_lt]
  have htrans (a b c : String × Json) (hab : (!decide (b.1 < a.1)) = true) (hbc : (!decide (c.1 < b.1)) = true) :
      (!decide (c.1 < a.1)) = true :=
    (hle a c).mpr (le_trans ((hle a b).mp hab) ((hle b c).mp hbc))
  have htotal (a b : String × Json) : (!decide (b.1 < a.1) || !decide (a.1 < b.1)) = true := by
    rw [Bool.or_eq_true, hle, hle]
    exact le_total a.1 b.1
  have hsorted : ((byName fields).map Prod.fst).Pairwise (· ≤ ·) :=
    List.pairwise_map.mpr ((List.pairwise_mergeSort htrans htotal fields).imp fun {a b} => (hle a b).mp)
  exact hsorted.sortedLE.sortedLT_of_nodup (((byName_perm fields).map Prod.fst).nodup_iff.mpr h)

/-! Advisories. -/

def advisoryCode (f : String × Json) : String :=
  ((f.2.field? "module_name").map Plain.text).getD "unknown" ++ "#" ++ f.1

/-- The number of an advisory is what stands behind the last mark of its code. -/
theorem takeWhile_advisoryCode {f : String × Json} (h : '#' ∉ f.1.toList) :
    (advisoryCode f).toList.reverse.takeWhile (· != '#') = f.1.toList.reverse := by
  have hnone : ∀ c ∈ f.1.toList.reverse, (c != '#') = true := by
    intro c hc
    rw [bne_iff_ne]
    rintro rfl
    exact h (List.mem_reverse.mp hc)
  rw [advisoryCode, String.toList_append, String.toList_append, List.reverse_append, List.reverse_append,
    List.takeWhile_append_of_pos hnone]
  simp

theorem advisoryCode_nodup (hnames : (fields.map Prod.fst).Nodup) (hids : ∀ f ∈ fields, '#' ∉ f.1.toList) :
    (fields.map advisoryCode).Nodup := by
  refine List.Nodup.map_on (fun f hf g hg h => ?_) (List.Nodup.of_map _ hnames)
  have hid : f.1.toList.reverse = g.1.toList.reverse := by
    rw [← takeWhile_advisoryCode (hids f hf), ← takeWhile_advisoryCode (hids g hg), h]
  exact List.inj_on_of_nodup_map hnames hf hg (String.toList_injective (List.reverse_injective hid))

theorem reported_advisoryIssue (table : SeverityTable) (f : String × Json) :
    Reported table (advisoryCode f) f.2 (advisoryIssue table Building.manifest f.1 f.2) := ⟨rfl, rfl, rfl, rfl⟩

theorem issues_of_advisories (herror : payload.field? "error" = none)
    (hnone : ∀ fields', payload.field? "vulnerabilities" ≠ some (.obj fields'))
    (hfields : payload.field? "advisories" = some (.obj fields)) :
    Output.Vulnerability.issues table Building.manifest payload =
      .ok ((fields.filter isEntry).map fun f => advisoryIssue table Building.manifest f.1 f.2) := by
  cases payload with
  | obj _ =>
    rw [Output.Vulnerability.issues, herror, hfields]
    split
    case h_1 h => cases h
    case h_2 h => exact absurd h (hnone _)
    case h_3 h _ =>
      cases h
      rfl
    case h_4 hother => exact absurd rfl (hother fields)
  | _ => cases hfields

/-! The check. -/

theorem deduplicated_of_reported (h : List.Forall₂ (fun f i => Reported table (code f) f.2 i) entries issues)
    (hcodes : (entries.map code).Nodup) : ({ issues } : Findings).deduplicated = { issues } := by
  have hkeys : (issues.map Issue.identity).map (fun key => key.2.2.2) = entries.map code := by
    clear hcodes
    induction h with
    | nil => rfl
    | cons hi _ ih => rw [List.map_cons, List.map_cons, ih, List.map_cons, Issue.identity, hi.code, Option.getD_some]
  have hnodup : (issues.map Issue.identity).Nodup := List.Nodup.of_map _ (hkeys ▸ hcodes)
  rw [Findings.deduplicated, Findings.firstOfEach_of_nodup hnodup fun _ _ => List.not_mem_nil]

end

section

variable {ctx : Context} {s : Session} {r : ToolResult} {payload : Json} {issues : List Issue}

theorem findings_of_issues (hwhole : r.truncated = false)
    (hpayload : Json.payload? r.stdout.toList r.stderr.toList = .ok (some payload))
    (hissues : Output.Vulnerability.issues ctx.config.severity Building.manifest payload = .ok issues) :
    findings ctx r = .ok { issues } := by
  have hnull : payload ≠ .null := by
    rintro rfl
    cases hissues
  have hcomplete : requireComplete r ctx.config.tools.dependencyAudit.name issues = .ok () := by
    rw [requireComplete, hwhole]
    rfl
  rw [findings, hpayload]
  simp [Except.mapError, hissues, hcomplete, bind, Except.bind]

/-- The check reports just these issues, none of which is left out as a repetition, and does nothing but call its tool. -/
structure ReportsJust (ctx : Context) (s : Session) (r : ToolResult) (issues : List Issue) : Prop where
  found : findings ctx r = .ok { issues }
  kept : ({ issues } : Findings).deduplicated = { issues }
  run : check.run ctx s =
    let tool := ctx.config.tools.dependencyAudit
    (.ok { issues }, { s with bench := (s.bench.call (tool.toCall tool.timeout)).2 })

theorem reportsJust (happlies : applies s.workspace ctx.root = true)
    (hreply : s.bench.reply ctx.config.tools.dependencyAudit.name = .ok r) (hfound : findings ctx r = .ok { issues })
    (hkept : ({ issues } : Findings).deduplicated = { issues }) : ReportsJust ctx s r issues := by
  refine ⟨hfound, hkept, ?_⟩
  have hperform : check.perform ctx s =
      let tool := ctx.config.tools.dependencyAudit
      (.ok { issues }, { s with bench := (s.bench.call (tool.toCall tool.timeout)).2 }) := by
    change (if applies s.workspace ctx.root then
      runTool ctx.config.tools.dependencyAudit >>= fun r => Run.lift (findings ctx r) else return {}) s = _
    rw [if_pos happlies, Commanded.runTool_lift_apply, hreply]
    exact congrArg (·, _) hfound
  rw [reports.run_apply, hperform]
  exact Prod.ext (congrArg Except.ok hkept) rfl

/-- Of every package of an audit, or of every advisory of the older kind of report, there is one issue with its code and
severity. The packages come in the order of their names and the advisories in the order of the report. -/
theorem reported_once (happlies : applies s.workspace ctx.root = true)
    (hreply : s.bench.reply ctx.config.tools.dependencyAudit.name = .ok r) (hwhole : r.truncated = false)
    (hpayload : Json.payload? r.stdout.toList r.stderr.toList = .ok (some payload))
    (herror : payload.field? "error" = none) :
    (∀ fields, payload.field? "vulnerabilities" = some (.obj fields) →
      (∀ f ∈ fields, isEntry f = true → Listed f.2) →
        ∃ entries issues, entries.Perm (fields.filter isEntry) ∧ (entries.map Prod.fst).SortedLT ∧
          List.Forall₂ (fun f i => Reported ctx.config.severity f.1 f.2 i) entries issues ∧
          ReportsJust ctx s r issues) ∧
    ∀ fields, (∀ fields', payload.field? "vulnerabilities" ≠ some (.obj fields')) →
      payload.field? "advisories" = some (.obj fields) → (∀ f ∈ fields, isEntry f = true → '#' ∉ f.1.toList) →
        ∃ issues, List.Forall₂ (fun f i => Reported ctx.config.severity (advisoryCode f) f.2 i) (fields.filter isEntry) issues ∧
          ReportsJust ctx s r issues := by
  constructor
  · intro fields hfields hlisted
    have hnames : (fields.map Prod.fst).Nodup := Json.nodup_of_payload? hpayload hfields
    have hperm : ((byName fields).filter isEntry).Perm (fields.filter isEntry) := (byName_perm fields).filter isEntry
    have hascending : (((byName fields).filter isEntry).map Prod.fst).SortedLT :=
      ((byName_ascending hnames).pairwise.sublist (List.filter_sublist.map Prod.fst)).sortedLT
    obtain ⟨issues, hissues⟩ : ∃ issues,
        ((byName fields).filter isEntry).mapM (fun f => packageIssue ctx.config.severity Building.manifest f.1 f.2) =
          .ok issues := by
      refine Outcome.exists_mapM_eq_ok_iff.mpr fun f hf => ?_
      obtain ⟨hmem, hentry⟩ := List.mem_filter.mp (hperm.mem_iff.mp hf)
      exact exists_packageIssue (hlisted f hmem hentry) _ _
    have hreported : List.Forall₂ (fun f i => Reported ctx.config.severity f.1 f.2 i)
        ((byName fields).filter isEntry) issues :=
      (Outcome.mapM_eq_ok_iff.mp hissues).imp fun _ _ => reported_of_packageIssue
    have hfound : findings ctx r = .ok { issues } :=
      findings_of_issues hwhole hpayload ((issues_of_vulnerabilities herror hfields).trans hissues)
    exact ⟨_, issues, hperm, hascending, hreported,
      reportsJust happlies hreply hfound (deduplicated_of_reported hreported hascending.nodup)⟩
  · intro fields hnone hfields hids
    have hnames : (fields.map Prod.fst).Nodup := Json.nodup_of_payload? hpayload hfields
    have hcodes : ((fields.filter isEntry).map advisoryCode).Nodup := by
      refine advisoryCode_nodup (hnames.sublist (List.filter_sublist.map Prod.fst)) fun f hf => ?_
      obtain ⟨hmem, hentry⟩ := List.mem_filter.mp hf
      exact hids f hmem hentry
    have hreported : List.Forall₂ (fun f i => Reported ctx.config.severity (advisoryCode f) f.2 i) (fields.filter isEntry)
        ((fields.filter isEntry).map fun f => advisoryIssue ctx.config.severity Building.manifest f.1 f.2) :=
      List.forall₂_map_right_iff.mpr (List.forall₂_same.mpr fun f _ => reported_advisoryIssue _ f)
    have hfound : findings ctx r = .ok { issues := _ } :=
      findings_of_issues hwhole hpayload (issues_of_advisories herror hnone hfields)
    exact ⟨_, hreported, reportsJust happlies hreply hfound (deduplicated_of_reported hreported hcodes)⟩

end

/-! A package that is vulnerable through another one, and two advisories on one module. -/

def packages : Json :=
  .obj [("vulnerabilities", .obj [("b", .obj [("severity", .str "low"), ("via", .arr [.str "a"])]), ("a", .obj []),
    ("count", .int 2)])]

def advisories : Json :=
  .obj [("advisories", .obj [("12", .obj [("module_name", .str "a")]), ("7", .obj [("module_name", .str "a")])])]

def auditReply (payload : Json) : ToolResult := { stdout := payload.text Json.compact, exitCode := 1 }

def project : Workspace where
  root := { root := "/" }
  entries := [(["package.json"], .file ⟨#[]⟩ false), (["package-lock.json"], .file ⟨#[]⟩ false)]

theorem applies_project : applies project { root := "/" } = true := by
  have hmanifest : project.contains (({ root := "/" } : Path).child Building.manifest) = true := by cbv
  have hlock : project.contains (({ root := "/" } : Path).child "package-lock.json") = true := by cbv
  exact Bool.and_eq_true_iff.mpr ⟨hmanifest, List.any_eq_true.mpr ⟨_, List.mem_cons_self, hlock⟩⟩

def audited (payload : Json) : Session where
  workspace := project
  bench := { replies := [("npm audit", [.ok (auditReply payload)])] }
  now := { year := 2024, month := 1, day := 2 }

theorem payload_auditReply {payload : Json} (hformed : Json.Formed Json.mostNested payload) (hshort : payload.Short)
    (hcontainer : Json.isContainer payload = true) :
    Json.payload? (auditReply payload).stdout.toList (auditReply payload).stderr.toList = .ok (some payload) :=
  Json.payload?_text Json.compact_blank hformed hshort hcontainer

theorem reported_once_audited :
    let ctx : Context := ⟨{ root := "/" }, {}, []⟩
    (∃ issues, ReportsJust ctx (audited packages) (auditReply packages) issues ∧ issues.length = 2) ∧
      ∃ issues, ReportsJust ctx (audited advisories) (auditReply advisories) issues ∧
        issues.map Issue.code = [some "a#12", some "a#7"] := by
  intro ctx
  have hreply (payload : Json) :
      (audited payload).bench.reply ctx.config.tools.dependencyAudit.name = .ok (auditReply payload) := by cbv
  constructor
  · have hpayload : Json.payload? (auditReply packages).stdout.toList (auditReply packages).stderr.toList =
        .ok (some packages) := by
      refine payload_auditReply ?_ ?_ rfl
      · simp [packages, Json.Formed, Json.FormedItems, Json.FormedFields, Json.mostNested]
      · simp [packages, Json.spellable_of_lt]
    have hlisted : ∀ f ∈ [("b", Json.obj [("severity", .str "low"), ("via", .arr [.str "a"])]), ("a", .obj []),
        ("count", .int 2)], isEntry f = true → Listed f.2 := by
      simp only [List.forall_mem_cons]
      refine ⟨fun _ v hv => ⟨_, (Option.some.inj hv).symm⟩, fun _ v hv => ?_, fun hentry => ?_, List.forall_mem_nil _⟩
      · cases hv
      · cases hentry
    obtain ⟨entries, issues, hperm, -, hreported, hjust⟩ :=
      (reported_once applies_project (hreply packages) rfl hpayload rfl).1 _ rfl hlisted
    exact ⟨issues, hjust, hreported.length_eq ▸ hperm.length_eq⟩
  · have hpayload : Json.payload? (auditReply advisories).stdout.toList (auditReply advisories).stderr.toList =
        .ok (some advisories) := by
      refine payload_auditReply ?_ ?_ rfl
      · simp [advisories, Json.Formed, Json.FormedFields, Json.mostNested]
      · simp [advisories]
    have hnone : ∀ fields, advisories.field? "vulnerabilities" ≠ some (.obj fields) := by
      intro fields h
      cases h
    obtain ⟨issues, hreported, hjust⟩ :=
      (reported_once applies_project (hreply advisories) rfl hpayload rfl).2 _ hnone rfl (by decide)
    obtain ⟨i, rest, hi, hrest, rfl⟩ := List.forall₂_cons_left_iff.mp hreported
    obtain ⟨j, rest', hj, hrest', rfl⟩ := List.forall₂_cons_left_iff.mp hrest
    obtain rfl := List.forall₂_nil_left_iff.mp hrest'
    refine ⟨_, hjust, ?_⟩
    rw [List.map_cons, List.map_cons, hi.code, hj.code]
    rfl

end Check.Dependencies

end QualityGate
