import Mathlib
import QualityGate.Policy.Store
import QualityGate.Proofs.Count.SuspiciousZero
import QualityGate.Proofs.Finding.Read
import QualityGate.Proofs.Json.LineEnds
import QualityGate.Proofs.Json.Reading
import QualityGate.Proofs.Outcome
import QualityGate.Proofs.Run
import QualityGate.Proofs.Workspace.Change

/-! Files that are kept from one run to the next: what is read back from them, and what
readers make of other bytes. -/

namespace QualityGate

open Schema

/-! The saved state of protection: what is loaded from the text of a state is
that state. -/

theorem EnforcementLevel.distinct : Labelled.Distinct EnforcementLevel := fun l => by cases l <;> rfl

theorem ProjectClass.distinct : Labelled.Distinct ProjectClass := fun c => by cases c <;> rfl

theorem PolicyState.read_toJson (s : PolicyState) : reader (.ofJson s.toJson) = pure s := by
  simp only [toJson, reader, Input.ofJson, Input.ofJsonFields, record]
  rw [optional_of_get (r := bool) rfl rfl,
    optional_of_get (r := Labelled.reader) rfl (Labelled.read_label EnforcementLevel.distinct s.level),
    optional_of_get (r := Labelled.reader) rfl (Labelled.read_label ProjectClass.distinct s.projectClass)]
  rfl

namespace PolicyStore

variable {w : Workspace} {p : Path}

theorem formed_toJson (s : PolicyState) : Json.Formed Json.mostNested s.toJson := by
  simp [PolicyState.toJson, Json.Formed, Json.FormedFields, Json.mostNested]

theorem read_text (s : PolicyState) : Json.read (text s).toList = .ok s.toJson :=
  Json.read_text (Json.indented_blank 2) (formed_toJson s)
    (by simp [PolicyState.toJson, Json.Short, Json.numbers, Json.fieldNumbers])

theorem return_notMem_text (s : PolicyState) : '\r' ∉ (text s).toList :=
  Json.return_notMem_write (Json.indented_noReturn 2) 0 (formed_toJson s)

theorem load_of_missing (h : w.contains p = false) : load w p = .ok {} := by
  rw [load, h]
  rfl

/-- A file that is there is decoded, parsed and read as a state. -/
theorem load_of_contains (h : w.contains p = true) :
    load w p = w.readText p >>= fun cs =>
      (Json.read cs).mapError (fun _ => .configInvalid p.text (.faults "PolicyState" [])) >>= fun v =>
        (PolicyState.reader (.ofJson v)).mapError fun fs => .configInvalid p.text (.faults "PolicyState" fs) := by
  rw [load, h]
  show (w.readText p >>= _) = _
  refine congrArg (w.readText p >>= ·) (funext fun cs => ?_)
  cases Json.read cs <;> rfl

/-- The state whose text a file holds is loaded from it. -/
theorem load_of_text {s : PolicyState} (h : w.readBytes p = .ok (text s).toUTF8) : load w p = .ok s := by
  rw [load_of_contains (Workspace.contains_of_readBytes h),
    Outcome.bind_of_ok (Workspace.readText_of_toUTF8 h (return_notMem_text s)), read_text]
  show (PolicyState.reader (.ofJson s.toJson)).mapError _ = _
  rw [PolicyState.read_toJson]
  rfl

end PolicyStore

/-! What those who read a persisted file make of its bytes. Bytes that encode no
text stop every reader. Numbers with too many digits and brackets too deep in
each other stop the reader of diagnostics, and with it the count. -/

open Text Workspace

/-- The bytes encode no text. -/
inductive Undecodable (data : ByteArray) : Failure → Prop
  | intro {f : EncodingFault} (h : Utf8.decode data.data.toList = .error f) : Undecodable data (.encoding f)

/-- The bytes encode no text, or one that is out of bounds before it is seen whether it is JSON. -/
inductive Unparsed (data : ByteArray) : Failure → Prop
  | undecodable {f : EncodingFault} (h : Utf8.decode data.data.toList = .error f) : Unparsed data (.encoding f)
  | outOfBounds {cs : List Char} {f : Json.LocatedFault} (h : Utf8.decode data.data.toList = .ok cs)
      (hread : Json.read (unifyNewlines cs) = .error f) (hf : f.problem.isSyntax = false) : Unparsed data (.ofJson f)

section

variable {data : ByteArray} {e : Failure}

theorem Unparsed.not_isGateFailure (h : Unparsed data e) : e.isGateFailure = false := by
  cases h with
  | undecodable h => rfl
  | outOfBounds h hread hf =>
    obtain ⟨digits, h⟩ | ⟨container, h⟩ := Json.ofJson_outOfBounds hf
    · rw [h]
      rfl
    · rw [h]
      rfl

/-- Only a text with very many digits or opening brackets is out of bounds. -/
theorem Unparsed.crowded (h : Unparsed data e) :
    (∃ f, e = .encoding f) ∨ ∃ cs, Utf8.decode data.data.toList = .ok cs ∧ Json.Crowded 0 (unifyNewlines cs) := by
  cases h with
  | undecodable h => exact .inl ⟨_, rfl⟩
  | outOfBounds h hread hf =>
    refine .inr ⟨_, h, ?_⟩
    obtain ⟨g, hg, rfl⟩ := Json.read_error_iff.mp hread
    exact (Json.readChars_blames hg).resolve_left (by simpa [Json.Fault.locate] using hf)

end

section

variable {w : Workspace} {p : Path} {data : ByteArray}

theorem load_foreseen (h : w.readBytes p = .ok data) :
    Foreseen (fun e => ∃ d, e = .configInvalid p.text d) (Undecodable data) (PolicyStore.load w p) := by
  rw [PolicyStore.load_of_contains (contains_of_readBytes h)]
  cases hd : Utf8.decode data.data.toList with
  | error f =>
    refine ⟨fun hfree => absurd (.intro hd) (hfree (.encoding f)), ?_⟩
    rintro e ⟨hd'⟩
    cases hd.symm.trans hd'
    exact ⟨Outcome.bind_of_error (readText_of_undecodable h hd), nofun⟩
  | ok cs =>
    rw [Outcome.bind_of_ok (readText_of_decoded h hd)]
    refine ⟨fun _ => .bind (.mapError fun _ => ⟨_, rfl⟩) fun v => .mapError fun fs => ⟨_, rfl⟩, ?_⟩
    rintro e ⟨hd'⟩
    cases hd.symm.trans hd'

theorem readDiagnostics_cases (name : String) (cs : List Char) :
    (readDiagnostics name cs).FailsOnly (fun e => ∃ d, e = .unparsable "diagnostics" d) ∨
      ∃ f, Json.read cs = .error f ∧ f.problem.isSyntax = false ∧ readDiagnostics name cs = .error (.ofJson f) := by
  unfold readDiagnostics
  split
  case h_1 f hread =>
    cases hf : f.problem.isSyntax with
    | true => exact .inl (.error ⟨_, if_pos rfl⟩)
    | false => exact .inr ⟨f, hread, hf, rfl⟩
  case h_2 => exact .inl (.mapM fun v _ => .mapError fun fs => ⟨_, rfl⟩)
  case h_3 => exact .inl (.error ⟨_, rfl⟩)

theorem all_foreseen (h : w.readBytes p = .ok data) (root : Option Path) :
    Foreseen (fun e => ∃ d, e = .unparsable "diagnostics" d) (Unparsed data) ((Provider.exported p root).all w) := by
  have hall : (Provider.exported p root).all w = w.readText p >>= readDiagnostics p.name := by
    rw [Provider.all, contains_of_readBytes h]
    rfl
  rw [hall]
  cases hd : Utf8.decode data.data.toList with
  | error f =>
    refine ⟨fun hfree => absurd (.undecodable hd) (hfree (.encoding f)), fun e he => ?_⟩
    cases he with
    | undecodable hd' =>
      cases hd.symm.trans hd'
      exact ⟨Outcome.bind_of_error (readText_of_undecodable h hd), nofun⟩
    | outOfBounds hd' => cases hd.symm.trans hd'
  | ok cs =>
    rw [Outcome.bind_of_ok (readText_of_decoded h hd)]
    refine ⟨fun hfree => ?_, fun e he => ?_⟩
    · obtain hkind | ⟨f, hread, hf, -⟩ := readDiagnostics_cases p.name (unifyNewlines cs)
      · exact hkind
      · exact absurd (.outOfBounds hd hread hf) (hfree _)
    · have hgate := he.not_isGateFailure
      cases he with
      | undecodable hd' => cases hd.symm.trans hd'
      | @outOfBounds cs' f hd' hread hf =>
        cases hd.symm.trans hd'
        refine ⟨?_, ?_⟩
        · rw [readDiagnostics, hread]
          simp only [hf, Bool.false_eq_true, if_false]
        · rintro ⟨d, hd⟩
          rw [hd] at hgate
          cases hgate

end

namespace Count

/-- A tool was missing or too slow. -/
inductive Unavailable : Reply → Prop
  | missing (tool detail : String) : Unavailable (.error (.toolUnavailable tool detail))
  | slow (tool : String) (seconds : Float) : Unavailable (.error (.toolTimeout tool seconds))

theorem Unavailable.answered {reply : Reply} (h : Unavailable reply) : Answered reply := by
  cases h with
  | missing => exact .missing _ _
  | slow => exact .slow _ _

theorem Unavailable.ofReply {reply : Reply} (h : Unavailable reply) (tool : String) (source : Source)
    (read : String → ToolResult → Outcome Category) (editor : Option (Outcome (List EditorDiagnostic))) :
    Category.ofReply tool source read reply editor = Category.standIn tool source editor := by
  cases h <;> rfl

section

variable {root : Path} {config : Config} {editor : Provider} {s : Session} {e : Failure}

theorem run_of_first_error (ht : typeCheckOutcome root config (some editor) s = .error e)
    (hl : lintOutcome config (some editor) (afterTypeCheck root config s) = .error e) :
    (run root config (some editor) s).1 = .error e := by
  rcases stopIfInterrupted_error e (afterTypeCheck root config s) with h | h <;>
  rcases stopIfInterrupted_error e (afterCall config config.tools.lint (afterTypeCheck root config s)) with h' | h' <;>
    simp [run, Run.bind_apply, typeCheckCategory_apply, lintCategory_apply, ht, hl, h, h']

/-- Without its tools a count ends with what stands in the way of the editor's diagnostics, unless the gate
itself reports that. -/
theorem run_without_tools {kind obstacle : Failure → Prop}
    (ht : ∀ reply, typeCheckReply? root config s = some reply → Unavailable reply)
    (hl : Unavailable (lintReply root config s)) (hall : Foreseen kind obstacle (editor.all s.workspace))
    (hkind : ∀ e, kind e → e.isGateFailure = true) (hobstacle : ∀ e, obstacle e → e.isGateFailure = false) :
    Foreseen (fun _ => False) obstacle (run root config (some editor) s).1 := by
  have hlint : lintOutcome config (some editor) (afterTypeCheck root config s) =
      Category.standIn config.tools.lint.name .lint (some (editor.all s.workspace)) := by
    rw [lintOutcome, afterTypeCheck_workspace]
    exact hl.ofReply _ _ _ _
  constructor
  · intro hfree e he
    have hanswered : EditorAnswered ((some editor).map (Provider.all s.workspace)) := by
      rintro f hf
      exact hkind f (hall.free hfree f (Option.some.inj hf))
    obtain ⟨typeCheck, htypeCheck⟩ := typeCheckOutcome_ok (fun reply hr => (ht reply hr).answered) hanswered
    obtain ⟨lint, hlint'⟩ : ∃ c, Category.standIn config.tools.lint.name .lint (some (editor.all s.workspace)) = .ok c :=
      standIn_ok hanswered
    rw [run_of_ok htypeCheck (hlint.trans hlint')] at he
    cases he
  · intro e he
    refine ⟨?_, not_false⟩
    have hstandIn (tool : String) (source : Source) :
        Category.standIn tool source (some (editor.all s.workspace)) = .error e := by
      rw [(hall.obstructed e he).1, Category.standIn, hobstacle e he]
      rfl
    have hlint := hlint.trans (hstandIn _ _)
    unfold typeCheckReply? at ht
    cases hp : Check.TypeChecking.hasProject s.workspace root config.tools.typeCheck with
    | false =>
      have htypeCheck : typeCheckOutcome root config (some editor) s = .ok { tool := config.tools.typeCheck.name } := by
        simp only [typeCheckOutcome, hp, Bool.false_eq_true, if_false]
      obtain ⟨s', hrun, -⟩ := run_of_second_error htypeCheck hlint
      rw [hrun]
    | true =>
      simp only [hp, if_true] at ht
      refine run_of_first_error ?_ hlint
      simp only [typeCheckOutcome, hp, if_true]
      exact ((ht _ rfl).ofReply _ _ _ _).trans (hstandIn _ _)

end

end Count

/-- What the content of a persisted file decides: the saved state is read or is invalid unless its bytes encode no
text, and exported diagnostics are read or are unparsable unless they encode none or one that is out of
bounds. In those cases, and only then, there is no count without its tools. -/
theorem persisted_foreseen {s : Session} {p : Path} {data : ByteArray} (h : s.workspace.readBytes p = .ok data) :
    Foreseen (fun e => ∃ d, e = .configInvalid p.text d) (Undecodable data) (PolicyStore.load s.workspace p) ∧
    ∀ root, Foreseen (fun e => ∃ d, e = .unparsable "diagnostics" d) (Unparsed data)
        ((Provider.exported p root).all s.workspace) ∧
      ∀ project config, (∀ reply, Count.typeCheckReply? project config s = some reply → Count.Unavailable reply) →
        Count.Unavailable (Count.lintReply project config s) →
        Foreseen (fun _ => False) (Unparsed data) (Count.run project config (some (.exported p root)) s).1 := by
  refine ⟨load_foreseen h, fun root => ⟨all_foreseen h root, fun project config ht hl => ?_⟩⟩
  refine Count.run_without_tools ht hl (all_foreseen h root) ?_ fun e he => he.not_isGateFailure
  rintro e ⟨d, rfl⟩
  rfl

/-- One file, and no tool that answers. -/
def persistedBytes (bytes : List UInt8) : Session where
  workspace := { root := { root := "/" }, entries := [(["saved.json"], .file ⟨bytes.toArray⟩ false)] }
  now := { year := 2024, month := 1, day := 2 }

section

variable (bytes : List UInt8)

theorem persistedBytes_readBytes :
    (persistedBytes bytes).workspace.readBytes { parts := ["saved.json"] } = .ok ⟨bytes.toArray⟩ := by
  cbv

theorem persistedBytes_typeCheck :
    Count.typeCheckReply? { root := "/" } {} (persistedBytes bytes) = none := by
  cbv

theorem persistedBytes_lint : Count.Unavailable (Count.lintReply { root := "/" } {} (persistedBytes bytes)) := by
  have h : Count.lintReply { root := "/" } {} (persistedBytes bytes) = .error (.toolUnavailable "eslint" "not scripted") := by
    cbv
  exact h ▸ .missing _ _

end

/-- A text that is no JSON is no more than unparsable, and the count goes without it. -/
theorem persisted_foreseen_brace :
    let s := persistedBytes [0x7b]
    s.workspace.readBytes { parts := ["saved.json"] } = .ok ⟨#[0x7b]⟩ ∧
      (∀ reply, Count.typeCheckReply? { root := "/" } {} s = some reply → Count.Unavailable reply) ∧
      Count.Unavailable (Count.lintReply { root := "/" } {} s) ∧
      ∃ c, (Count.run { root := "/" } {} (some (.exported { parts := ["saved.json"] } none)) s).1 = .ok c := by
  intro s
  have hbytes := persistedBytes_readBytes [0x7b]
  have ht : ∀ reply, Count.typeCheckReply? { root := "/" } {} s = some reply → Count.Unavailable reply := by
    intro reply h
    cases (persistedBytes_typeCheck _).symm.trans h
  have hl := persistedBytes_lint [0x7b]
  have hdecoded : Utf8.decode [0x7b] = .ok ['\x7b'] := by cbv
  have hmalformed : ∀ f, Json.read ['\x7b'] = .error f → f.problem.isSyntax = true := by
    have h : Json.read ['\x7b'] = .error ⟨.expectingName, 1, 2, 1⟩ := by cbv
    intro f hf
    cases h.symm.trans hf
    rfl
  have hfree : ∀ e, ¬ Unparsed ⟨#[0x7b]⟩ e := by
    intro e he
    cases he with
    | undecodable h => cases hdecoded.symm.trans h
    | outOfBounds h hread hf =>
      cases hdecoded.symm.trans h
      exact absurd (hmalformed _ hread) (by simp [hf])
  refine ⟨hbytes, ht, hl, ?_⟩
  cases hrun : (Count.run { root := "/" } {} (some (.exported { parts := ["saved.json"] } none)) s).1 with
  | ok c => exact ⟨c, rfl⟩
  | error e =>
    obtain ⟨-, hcount⟩ := ((persisted_foreseen hbytes).2 none)
    exact absurd hrun fun h => (hcount { root := "/" } {} ht hl).free hfree e h

/-- A byte that begins no character is a failure that is neither of the two, and there is no count. -/
theorem persisted_unforeseen :
    let s := persistedBytes [0xff]
    s.workspace.readBytes { parts := ["saved.json"] } = .ok ⟨#[0xff]⟩ ∧
      (∀ reply, Count.typeCheckReply? { root := "/" } {} s = some reply → Count.Unavailable reply) ∧
      Count.Unavailable (Count.lintReply { root := "/" } {} s) ∧
      ¬ (PolicyStore.load s.workspace { parts := ["saved.json"] }).FailsOnly
          (fun e => ∃ d, e = .configInvalid "saved.json" d) ∧
      ¬ ((Provider.exported { parts := ["saved.json"] } none).all s.workspace).FailsOnly
          (fun e => ∃ d, e = .unparsable "diagnostics" d) ∧
      ¬ ∃ c, (Count.run { root := "/" } {} (some (.exported { parts := ["saved.json"] } none)) s).1 = .ok c := by
  intro s
  have hbytes := persistedBytes_readBytes [0xff]
  have ht : ∀ reply, Count.typeCheckReply? { root := "/" } {} s = some reply → Count.Unavailable reply := by
    intro reply h
    cases (persistedBytes_typeCheck _).symm.trans h
  have hl := persistedBytes_lint [0xff]
  have hdecoded : Utf8.decode [0xff] = .error ⟨0, 1, 0xff, "invalid start byte"⟩ := by cbv
  have hall := all_foreseen hbytes none
  have hunparsed : Unparsed ⟨#[0xff]⟩ _ := .undecodable hdecoded
  refine ⟨hbytes, ht, hl, fun h => ?_, fun h => ?_, ?_⟩
  · obtain ⟨hload, -⟩ := (load_foreseen hbytes).obstructed _ (.intro hdecoded)
    obtain ⟨d, hd⟩ := h _ hload
    cases hd
  · obtain ⟨d, hd⟩ := h _ (hall.obstructed _ hunparsed).1
    cases hd
  · rintro ⟨c, hc⟩
    have hrun := Count.run_without_tools ht hl hall (by rintro e ⟨d, rfl⟩; rfl) fun e he => he.not_isGateFailure
    cases hc.symm.trans (hrun.obstructed _ hunparsed).1

end QualityGate
