import Mathlib
import QualityGate.Check.CompilerOptions
import QualityGate.Proofs.Json.Commented
import QualityGate.Proofs.Lookup
import QualityGate.Proofs.Outcome
import QualityGate.Proofs.Workspace.Walk

/-! The chain of a configuration file and the files it extends. Links alone decide which files belong to it; an
option has the value that the first file of the chain gives it. -/

namespace QualityGate

namespace Json

theorem nodup_of_readCommented {fields options : Fields} {name : String} {t : List Char}
    (h : readCommented t = .ok (obj fields)) (hname : fields.lookup name = some (obj options)) :
    (options.map Prod.fst).Nodup := by
  obtain ⟨tree, -, -, hmerged⟩ := readCommented_ok_iff.mp h
  exact nodup_of_merged_field hmerged hname

end Json

namespace CompilerOptions

/-! What a configuration file contains. -/

inductive Content where
  | unread (e : Failure)
  | faulty (f : Json.LocatedFault)
  | value (v : Json)

def content (w : Workspace) (p : Path) : Content :=
  match w.readMarkedText p with
  | .error e => .unread e
  | .ok text =>
    match Json.readCommented text with
    | .error f => .faulty f
    | .ok v => .value v

/-- A file is missing, cannot be read, or its text is not that of an object. -/
def Content.Invalid : Content → Prop
  | unread _ => True
  | faulty f => f.problem.isSyntax = true
  | value (.obj _) => False
  | value _ => True

/-- The text is beyond the bounds of the reader, which fails for that. -/
def Content.Exceeds (e : Failure) : Content → Prop
  | faulty f => f.problem.isSyntax = false ∧ e = .ofJson f
  | unread _ | value _ => False

section load

variable {w : Workspace} {p : Path} {fields : Json.Fields} {e : Failure}

theorem Content.object_or (c : Content) : (∃ fields, c = value (.obj fields)) ∨ c.Invalid ∨ ∃ e, c.Exceeds e := by
  cases c with
  | unread e => exact .inr (.inl trivial)
  | faulty f =>
    cases hmisread : f.problem.isSyntax with
    | true => exact .inr (.inl hmisread)
    | false => exact .inr (.inr ⟨_, hmisread, rfl⟩)
  | value v =>
    cases v with
    | obj fields => exact .inl ⟨fields, rfl⟩
    | _ => exact .inr (.inl trivial)

theorem Content.Exceeds.not_invalid {c : Content} (h : c.Exceeds e) : ¬ c.Invalid := by
  cases c with
  | faulty f =>
    obtain ⟨hmisread, -⟩ := h
    intro hinvalid
    cases hmisread.symm.trans hinvalid
  | _ => exact h.elim

theorem isInvalid_ofJson (f : Json.LocatedFault) : isInvalid (.ofJson f) = false := by
  unfold Failure.ofJson
  split <;> rfl

theorem load_of_object (h : content w p = .value (.obj fields)) : load w p = .ok fields := by
  cases hread : w.readMarkedText p with
  | error e => simp [content, hread] at h
  | ok text =>
    cases hv : Json.readCommented text with
    | error f => simp [content, hread, hv] at h
    | ok v =>
      obtain rfl : v = .obj fields := by simpa [content, hread, hv] using h
      simp only [load, hread, hv]

theorem load_of_invalid (h : (content w p).Invalid) : ∃ e, load w p = .error e ∧ isInvalid e = true := by
  cases hread : w.readMarkedText p with
  | error e =>
    simp only [load, hread]
    exact ⟨_, rfl, rfl⟩
  | ok text =>
    cases hv : Json.readCommented text with
    | error f =>
      have hmisread : (!f.problem.isSyntax) = false := by simpa [content, hread, hv, Content.Invalid] using h
      simp only [load, hread, hv, hmisread]
      exact ⟨_, rfl, rfl⟩
    | ok v =>
      simp only [content, hread, hv] at h
      simp only [load, hread, hv]
      cases v with
      | obj fields => exact h.elim
      | _ => exact ⟨_, rfl, rfl⟩

theorem load_of_exceeds (h : (content w p).Exceeds e) : load w p = .error e ∧ isInvalid e = false := by
  cases hread : w.readMarkedText p with
  | error e => simp [content, hread, Content.Exceeds] at h
  | ok text =>
    cases hv : Json.readCommented text with
    | error f =>
      simp only [content, hread, hv] at h
      obtain ⟨hmisread, rfl⟩ := h
      simp only [load, hread, hv, hmisread]
      exact ⟨rfl, isInvalid_ofJson f⟩
    | ok v => simp [content, hread, hv, Content.Exceeds] at h

/-- A text without carriage returns that begins with an ASCII character is read from its own bytes. -/
theorem content_of_text {s : String} {executable : Bool} {c : Char} {cs : List Char}
    (hstat : w.stat p = .ok (.file s.toUTF8 executable)) (hs : s.toList = c :: cs) (hc : c.toNat < 0x80)
    (hplain : '\r' ∉ s.toList) :
    content w p = match Json.readCommented s.toList with
      | .error f => .faulty f
      | .ok v => .value v := by
  have hbytes : w.readBytes p = .ok s.toUTF8 := by rw [Workspace.readBytes, hstat]
  have hread : w.readMarkedText p = .ok s.toList := by
    rw [Workspace.readMarkedText, Workspace.decoded, hbytes, Outcome.bind_of_ok rfl,
      Text.Utf8.decodeMarked_toUTF8 hs hc]
    exact congrArg Except.ok (Text.unifyNewlines_of_notMem hplain)
  rw [content, hread]

end load

/-! Links between files. -/

/-- A configuration file as it was read. -/
structure File where
  path : Path
  fields : Json.Fields

/-- The options that a file sets itself, where these are an object. -/
def File.options (f : File) : Json.Fields :=
  match f.fields.lookup "compilerOptions" with
  | some (.obj options) => options
  | _ => []

/-- If a file sets options at all, they are an object. -/
def File.WellTyped (f : File) : Prop := ∀ v, f.fields.lookup "compilerOptions" = some v → ∃ options, v = .obj options

/-- A file names a base relative to itself. -/
def Extends (f : File) (base : String) : Prop :=
  f.fields.lookup "extends" = some (.str base) ∧ base.toList.head? = some '.'

/-- The base of `f` is `g`. -/
def LeadsTo (w : Workspace) (f g : File) : Prop :=
  ∃ base, Extends f base ∧ baseFile w f.path base = .ok g.path ∧ content w g.path = .value (.obj g.fields)

/-- `f` names no base relative to itself, or one that is missing, unreadable or not an object. -/
def Ends (w : Workspace) (f : File) : Prop :=
  ∀ base, Extends f base → ∃ q, baseFile w f.path base = .ok q ∧ (content w q).Invalid

/-- The base of `f` cannot be looked for, or it is beyond the bounds of the reader. -/
def Obstructed (w : Workspace) (e : Failure) (f : File) : Prop :=
  ∃ base, Extends f base ∧
    (baseFile w f.path base = .error e ∨ ∃ q, baseFile w f.path base = .ok q ∧ (content w q).Exceeds e)

/-- The file at a path, if it counts as a base. -/
def found? (w : Workspace) (q : Path) : Outcome (Option File) :=
  match load w q with
  | .error e => if isInvalid e then .ok none else .error e
  | .ok fields => .ok (some ⟨q, fields⟩)

def base? (w : Workspace) (f : File) : Outcome (Option File) :=
  match relativeBase? f.fields with
  | none => .ok none
  | some base => baseFile w f.path base >>= found? w

section links

variable {w : Workspace} {f g : File} {e : Failure} {base : String}

theorem relativeBase?_eq_some_iff : relativeBase? f.fields = some base ↔ Extends f base := by
  unfold relativeBase? Extends
  split
  case h_1 b hb =>
    by_cases hdot : b.toList.head? = some '.'
    · simp +contextual [hb, hdot]
      grind
    · simp [hb, hdot]
      grind
  case h_2 h => simpa using fun hb => absurd hb (h base)

theorem base?_of_extends (h : Extends f base) : base? w f = baseFile w f.path base >>= found? w := by
  rw [base?, relativeBase?_eq_some_iff.mpr h]

theorem base?_of_ends (h : Ends w f) : base? w f = .ok none := by
  cases hbase : relativeBase? f.fields with
  | none => rw [base?, hbase]
  | some base =>
    have hextends := relativeBase?_eq_some_iff.mp hbase
    obtain ⟨q, hq, hinvalid⟩ := h base hextends
    obtain ⟨e, hload, he⟩ := load_of_invalid hinvalid
    rw [base?_of_extends hextends, Outcome.bind_of_ok hq, found?, hload]
    exact if_pos he

theorem base?_of_leadsTo (h : LeadsTo w f g) : base? w f = .ok (some g) := by
  obtain ⟨base, hextends, hq, hcontent⟩ := h
  rw [base?_of_extends hextends, Outcome.bind_of_ok hq, found?, load_of_object hcontent]

theorem base?_of_obstructed (h : Obstructed w e f) : base? w f = .error e := by
  obtain ⟨base, hextends, hq | ⟨q, hq, hexceeds⟩⟩ := h
  · rw [base?_of_extends hextends, Outcome.bind_of_error hq]
  · obtain ⟨hload, he⟩ := load_of_exceeds hexceeds
    rw [base?_of_extends hextends, Outcome.bind_of_ok hq, found?, hload]
    exact if_neg (Bool.eq_false_iff.mp he)

/-- Every file has one of the three. -/
theorem ends_or (w : Workspace) (f : File) : Ends w f ∨ (∃ g, LeadsTo w f g) ∨ ∃ e, Obstructed w e f := by
  by_cases hbase : ∃ base, Extends f base
  · obtain ⟨base, hbase⟩ := hbase
    cases hq : baseFile w f.path base with
    | error e => exact .inr (.inr ⟨e, base, hbase, .inl hq⟩)
    | ok q =>
      rcases (content w q).object_or with ⟨fields, hcontent⟩ | hinvalid | ⟨e, hexceeds⟩
      · exact .inr (.inl ⟨⟨q, fields⟩, base, hbase, hq, hcontent⟩)
      · refine .inl fun base' hbase' => ?_
        obtain rfl : base' = base := by
          have hboth := hbase'.1.symm.trans hbase.1
          simpa using hboth
        exact ⟨q, hq, hinvalid⟩
      · exact .inr (.inr ⟨e, base, hbase, .inr ⟨q, hq, hexceeds⟩⟩)
  · exact .inl fun base h => absurd ⟨base, h⟩ hbase

theorem resolve_zero : resolve w 0 f.path f.fields = own f.fields := by
  rw [resolve]
  cases own f.fields with
  | error e => rfl
  | ok options => cases relativeBase? f.fields <;> rfl

theorem resolve_succ (links : Nat) :
    resolve w (links + 1) f.path f.fields = own f.fields >>= fun options => base? w f >>= fun
      | none => .ok options
      | some g => resolve w links g.path g.fields >>= fun base => .ok (overlay base options) := by
  rw [resolve, base?]
  refine congrArg _ (funext fun options => ?_)
  cases relativeBase? f.fields with
  | none => rfl
  | some base =>
    dsimp only
    cases hq : baseFile w f.path base with
    | error e => rfl
    | ok q =>
      rw [Outcome.bind_of_ok rfl, Outcome.bind_of_ok rfl, found?]
      cases load w q with
      | error e =>
        dsimp only
        split <;> rfl
      | ok fields => rfl

theorem resolve_of_ends (h : Ends w f) (links : Nat) : resolve w (links + 1) f.path f.fields = own f.fields := by
  rw [resolve_succ, base?_of_ends h]
  cases own f.fields <;> rfl

theorem resolve_of_obstructed (h : Obstructed w e f) (links : Nat) :
    resolve w (links + 1) f.path f.fields = own f.fields >>= fun _ => .error e := by
  rw [resolve_succ, base?_of_obstructed h]
  rfl

theorem resolve_of_leadsTo (h : LeadsTo w f g) (links : Nat) :
    resolve w (links + 1) f.path f.fields = own f.fields >>= fun options =>
      resolve w links g.path g.fields >>= fun base => .ok (overlay base options) := by
  rw [resolve_succ, base?_of_leadsTo h]
  rfl

end links

/-! What a file sets itself. -/

/-- A list of two with a scalar in front, a text of two characters, or an object of two fields. -/
def IsPair : Json → Prop
  | .arr [.arr _, _] | .arr [.obj _, _] => False
  | .arr [_, _] => True
  | .str s => s.toList.length = 2
  | .obj fields => fields.length = 2
  | _ => False

/-- An object, or a list of pairs. -/
def Convertible : Json → Prop
  | .obj _ => True
  | .arr items => ∀ v ∈ items, IsPair v
  | _ => False

theorem exists_pairOf_iff (index : Nat) (v : Json) : (∃ p, pairOf index v = .ok p) ↔ IsPair v := by
  cases v with
  | arr items =>
    match items with
    | [] | [_] | _ :: _ :: _ :: _ => simp [pairOf, IsPair]
    | [name, value] =>
      refine (Outcome.exists_bind_ok_iff fun n => (n, value)).trans ?_
      cases name <;> simp [nameOf, IsPair]
  | str s =>
    simp only [pairOf, IsPair]
    match s.toList with
    | [] | [_] | _ :: _ :: _ :: _ => simp
    | [c, d] => exact iff_of_true ⟨_, rfl⟩ rfl
  | obj fs =>
    match fs with
    | [] | [_] | _ :: _ :: _ :: _ => simp [pairOf, IsPair]
    | [f, g] => exact iff_of_true ⟨_, rfl⟩ rfl
  | _ => simp [pairOf, IsPair]

theorem exists_pairsFrom_iff (index : Nat) (vs : List Json) :
    (∃ pairs, pairsFrom index vs = .ok pairs) ↔ ∀ v ∈ vs, IsPair v := by
  induction vs generalizing index with
  | nil => simp [pairsFrom]
  | cons v vs ih =>
    rw [List.forall_mem_cons, ← exists_pairOf_iff index v, ← ih (index + 1), pairsFrom]
    constructor
    · rintro ⟨pairs, h⟩
      obtain ⟨p, hp, hrest⟩ := Outcome.bind_eq_ok h
      obtain ⟨ps, hps, -⟩ := Outcome.bind_eq_ok hrest
      exact ⟨⟨p, hp⟩, ps, hps⟩
    · rintro ⟨⟨p, hp⟩, ps, hps⟩
      exact ⟨p :: ps, by rw [Outcome.bind_of_ok hp, Outcome.bind_of_ok hps]⟩

/-- If a file sets options that do not count as absent, they can be made out. -/
def File.Usable (f : File) : Prop :=
  ∀ v, (Json.obj f.fields).present? "compilerOptions" = some v → Convertible v

theorem isPresent_of_present? {name : String} {v w : Json} (h : v.present? name = some w) : w.isPresent = true :=
  (Option.filter_eq_some_iff.mp h).2

theorem exists_own_iff {f : File} : (∃ options, own f.fields = .ok options) ↔ f.Usable := by
  unfold own File.Usable
  cases hpresent : (Json.obj f.fields).present? "compilerOptions" with
  | none => simp
  | some v =>
    simp only [Option.some.injEq, forall_eq']
    cases v with
    | obj options => simp [Convertible]
    | arr items => exact (Outcome.exists_bind_ok_iff _).trans (exists_pairsFrom_iff 0 items)
    | str s =>
      have hs : s.toList ≠ [] := by
        have hpresent := isPresent_of_present? hpresent
        simpa [Json.isPresent] using hpresent
      refine iff_of_false (fun h => ?_) id
      obtain ⟨c, hc⟩ := List.exists_mem_of_ne_nil _ hs
      have hpair := (exists_pairsFrom_iff 0 _).mp ((Outcome.exists_bind_ok_iff _).mp h) _ (List.mem_map_of_mem hc)
      simp [IsPair] at hpair
    | _ => simp [Convertible]

theorem own_of_wellTyped {f : File} (h : f.WellTyped) : own f.fields = .ok f.options := by
  have hpresent : (Json.obj f.fields).present? "compilerOptions" =
    (f.fields.lookup "compilerOptions").filter Json.isPresent := rfl
  unfold own File.options
  rw [hpresent]
  cases hlookup : f.fields.lookup "compilerOptions" with
  | none => rfl
  | some v =>
    obtain ⟨options, rfl⟩ := h v hlookup
    cases options <;> rfl

/-! Chains. -/

/-- The files that are met from a file on in at most so many links, and the failure that stops this before its end. -/
inductive Chain (w : Workspace) : Nat → File → List File → Option Failure → Prop
  | limit (f : File) : Chain w 0 f [f] none
  | ends {links : Nat} {f : File} (h : Ends w f) : Chain w (links + 1) f [f] none
  | obstructed {links : Nat} {f : File} {e : Failure} (h : Obstructed w e f) : Chain w (links + 1) f [f] (some e)
  | link {links : Nat} {f g : File} {files : List File} {stop : Option Failure} (h : LeadsTo w f g)
    (rest : Chain w links g files stop) : Chain w (links + 1) f (f :: files) stop

namespace Chain

variable {w : Workspace} {links : Nat} {f g : File} {files files' : List File} {stop stop' : Option Failure}
  {fields options : Json.Fields}

theorem exists_of (w : Workspace) (links : Nat) (f : File) : ∃ files stop, Chain w links f files stop := by
  induction links generalizing f with
  | zero => exact ⟨_, _, .limit f⟩
  | succ links ih =>
    rcases ends_or w f with h | ⟨g, h⟩ | ⟨e, h⟩
    · exact ⟨_, _, .ends h⟩
    · obtain ⟨files, stop, hrest⟩ := ih g
      exact ⟨_, _, .link h hrest⟩
    · exact ⟨_, _, .obstructed h⟩

theorem unique (h : Chain w links f files stop) (h' : Chain w links f files' stop') : files' = files ∧ stop' = stop := by
  induction h generalizing files' stop' with
  | limit f =>
    cases h'
    exact ⟨rfl, rfl⟩
  | ends h =>
    have hbase := base?_of_ends h
    cases h' with
    | ends => exact ⟨rfl, rfl⟩
    | obstructed h' => cases hbase.symm.trans (base?_of_obstructed h')
    | link h' => cases hbase.symm.trans (base?_of_leadsTo h')
  | obstructed h =>
    have hbase := base?_of_obstructed h
    cases h' with
    | ends h' => cases hbase.symm.trans (base?_of_ends h')
    | obstructed h' =>
      cases hbase.symm.trans (base?_of_obstructed h')
      exact ⟨rfl, rfl⟩
    | link h' => cases hbase.symm.trans (base?_of_leadsTo h')
  | link h _ ih =>
    have hbase := base?_of_leadsTo h
    cases h' with
    | ends h' => cases hbase.symm.trans (base?_of_ends h')
    | obstructed h' => cases hbase.symm.trans (base?_of_obstructed h')
    | link h' hrest' =>
      cases hbase.symm.trans (base?_of_leadsTo h')
      obtain ⟨rfl, rfl⟩ := ih hrest'
      exact ⟨rfl, rfl⟩

theorem length_le (h : Chain w links f files stop) : files.length ≤ links + 1 := by
  induction h with
  | link _ _ ih => simpa using ih
  | _ => simp

/-- What stands further along a chain was read from its file. -/
theorem content_eq (h : Chain w links f files stop) (hf : content w f.path = .value (.obj f.fields)) :
    ∀ g ∈ files, content w g.path = .value (.obj g.fields) := by
  induction h with
  | link h _ ih =>
    obtain ⟨base, -, -, hg⟩ := h
    exact List.forall_mem_cons.mpr ⟨hf, ih hg⟩
  | _ => exact List.forall_mem_singleton.mpr hf

/-- Options can be put together unless the chain is stopped or a file sets options that are of no use. -/
theorem exists_resolve_iff (h : Chain w links f files stop) :
    (∃ options, resolve w links f.path f.fields = .ok options) ↔ stop = none ∧ ∀ g ∈ files, g.Usable := by
  induction h with
  | limit f => simp [resolve_zero, exists_own_iff]
  | ends h => simp [resolve_of_ends h, exists_own_iff]
  | obstructed h =>
    refine iff_of_false ?_ nofun
    rintro ⟨options, hoptions⟩
    rw [resolve_of_obstructed h] at hoptions
    obtain ⟨_, -, herror⟩ := Outcome.bind_eq_ok hoptions
    cases herror
  | @link links f g files stop h _ ih =>
    rw [List.forall_mem_cons, and_left_comm, ← ih, ← exists_own_iff, resolve_of_leadsTo h]
    constructor
    · rintro ⟨options, hoptions⟩
      obtain ⟨upper, hown, hrest⟩ := Outcome.bind_eq_ok hoptions
      obtain ⟨base, hbase, -⟩ := Outcome.bind_eq_ok hrest
      exact ⟨⟨upper, hown⟩, base, hbase⟩
    · rintro ⟨⟨upper, hown⟩, base, hbase⟩
      exact ⟨_, by rw [Outcome.bind_of_ok hown, Outcome.bind_of_ok hbase]⟩

end Chain

/-! What is set along a chain. -/

theorem lookup_overlay (base : Json.Fields) {upper : Json.Fields} (h : (upper.map Prod.fst).Nodup) (key : String) :
    (overlay base upper).lookup key = (upper.lookup key).or (base.lookup key) := by
  induction upper generalizing base with
  | nil => rfl
  | cons f upper ih =>
    obtain ⟨name, v⟩ := f
    obtain ⟨hfresh, hupper⟩ := List.nodup_cons.mp h
    rw [overlay, List.foldl_cons]
    refine (ih _ hupper).trans ?_
    by_cases hkey : key = name
    · subst hkey
      have hnone : upper.lookup key = none := List.lookup_eq_none_iff.mpr fun g hg => by
        have hne : key ≠ g.1 := fun he => hfresh (List.mem_map.mpr ⟨g, hg, he.symm⟩)
        simpa using hne
      rw [hnone, List.lookup_cons_self]
      exact lookup_insertKey_self base v
    · rw [List.lookup_cons, beq_false_of_ne hkey]
      exact congrArg _ (lookup_insertKey_of_ne base v hkey)

section options

variable {w : Workspace} {links : Nat} {f : File} {files : List File}

/-- A file gives each option one value. -/
def File.Distinct (f : File) : Prop := (f.options.map Prod.fst).Nodup

theorem distinct_of_content (h : content w f.path = .value (.obj f.fields)) : f.Distinct := by
  unfold content at h
  split at h
  case h_1 => cases h
  case h_2 text _ =>
    split at h
    case h_1 => cases h
    case h_2 v hv =>
      obtain rfl := Content.value.inj h
      unfold File.Distinct File.options
      split
      case h_1 options hoptions => exact Json.nodup_of_readCommented hv hoptions
      case h_2 => exact List.nodup_nil

/-- An option has the value that the first file with it gives it. -/
theorem Chain.lookup_resolve (h : Chain w links f files none) (hall : ∀ g ∈ files, g.WellTyped)
    (hdistinct : ∀ g ∈ files, g.Distinct) :
    ∃ options, resolve w links f.path f.fields = .ok options ∧
      ∀ key, options.lookup key = files.findSome? fun g => g.options.lookup key := by
  generalize hstop : (none : Option Failure) = stop at h
  induction h with
  | limit f =>
    rw [List.forall_mem_singleton] at hall
    exact ⟨f.options, by rw [resolve_zero, own_of_wellTyped hall], fun key => by simp⟩
  | @ends links f h =>
    rw [List.forall_mem_singleton] at hall
    exact ⟨f.options, by rw [resolve_of_ends h, own_of_wellTyped hall], fun key => by simp⟩
  | obstructed => cases hstop
  | @link links f g files stop h _ ih =>
    obtain ⟨hf, hall⟩ := List.forall_mem_cons.mp hall
    obtain ⟨hfirst, hdistinct⟩ := List.forall_mem_cons.mp hdistinct
    obtain ⟨base, hbase, hlookup⟩ := ih hall hdistinct hstop
    refine ⟨overlay base f.options, ?_, fun key => ?_⟩
    · rw [resolve_of_leadsTo h, own_of_wellTyped hf, Outcome.bind_of_ok rfl, Outcome.bind_of_ok hbase]
    · rw [lookup_overlay base hfirst, hlookup, List.findSome?_cons]
      cases f.options.lookup key <;> rfl

theorem Chain.resolve_stopped {e : Failure} (h : Chain w links f files (some e)) (hall : ∀ g ∈ files, g.WellTyped) :
    resolve w links f.path f.fields = .error e := by
  generalize hstop : some e = stop at h
  induction h with
  | limit | ends => cases hstop
  | obstructed h =>
    obtain rfl := Option.some.inj hstop
    rw [List.forall_mem_singleton] at hall
    rw [resolve_of_obstructed h, own_of_wellTyped hall, Outcome.bind_of_ok rfl]
  | link h _ ih =>
    obtain ⟨hf, hall⟩ := List.forall_mem_cons.mp hall
    rw [resolve_of_leadsTo h, own_of_wellTyped hf, Outcome.bind_of_ok rfl, Outcome.bind_of_error (ih hall hstop)]

end options

/-! Other contents. -/

/-- The files that are looked at after a file, in at most so many links. -/
inductive Consults (w : Workspace) : Nat → File → Path → Prop
  | base {links : Nat} {f : File} {base : String} {q : Path} (h : Extends f base) (hq : baseFile w f.path base = .ok q) :
    Consults w (links + 1) f q
  | further {links : Nat} {f g : File} {q : Path} (h : LeadsTo w f g) (hq : Consults w links g q) :
    Consults w (links + 1) f q

section agree

variable {places : List (List String)} {w w' : Workspace} {links : Nat} {f : File} {p q : Path}

theorem load_congr (h : w'.stat p = w.stat p) : load w' p = load w p := by
  have hbytes : w'.readBytes p = w.readBytes p := by rw [Workspace.readBytes, Workspace.readBytes, h]
  have hread : w'.readMarkedText p = w.readMarkedText p := by
    rw [Workspace.readMarkedText, Workspace.readMarkedText, hbytes]
  rw [load, load, hread]

theorem found?_of_missing {e : FileFault} (h : w.stat q = .error e) : found? w q = .ok none := by
  have hinvalid : (content w q).Invalid := by
    have hread : w.readMarkedText q = .error (.access e q.text) := by
      rw [Workspace.readMarkedText, Workspace.decoded, Workspace.readBytes, h]
      rfl
    rw [content, hread]
    trivial
  obtain ⟨e, hload, he⟩ := load_of_invalid hinvalid
  rw [found?, hload]
  exact if_pos he

theorem found?_congr (h : w.SameAt w' q) : found? w' q = found? w q := by
  rcases h with h | ⟨⟨e, he⟩, e', he'⟩
  · rw [found?, found?, load_congr h]
  · rw [found?_of_missing he, found?_of_missing he']

theorem meetsLongName_agree (h : Workspace.Agree places w w') (h' : Workspace.Agree places w' w)
    (dir path : List String) : meetsLongName w' dir path = meetsLongName w dir path := by
  induction path generalizing dir with
  | nil => rfl
  | cons name rest ih =>
    have hdirectory := Workspace.isDirectory_congr h h' (q := dir ++ [name])
    rw [meetsLongName, meetsLongName, ih]
    by_cases hq : w.entryAt (dir ++ [name]) = some .directory
    · rw [hq, hdirectory.mpr hq]
    · have hq' : w'.entryAt (dir ++ [name]) ≠ some .directory := fun he => hq (hdirectory.mp he)
      congr 1
      split
      · contradiction
      · rfl

theorem baseFile_agree (h : Workspace.Agree places w w') (h' : Workspace.Agree places w' w) (p : Path) (base : String) :
    baseFile w' p base = baseFile w p base := by
  simp only [baseFile, Workspace.resolve_agree h, meetsLongName_agree h h']

theorem base?_agree (h : Workspace.Agree places w w') (h' : Workspace.Agree places w' w)
    (hsame : ∀ q, Consults w (links + 1) f q → w.SameAt w' q) : base? w' f = base? w f := by
  cases hbase : relativeBase? f.fields with
  | none => rw [base?, base?, hbase]
  | some base =>
    have hextends := relativeBase?_eq_some_iff.mp hbase
    rw [base?_of_extends hextends, base?_of_extends hextends, baseFile_agree h h']
    cases hq : baseFile w f.path base with
    | error e => rfl
    | ok q => exact found?_congr (hsame q (.base hextends hq))

/-- Options depend on what is looked at for them. -/
theorem resolve_agree (h : Workspace.Agree places w w') (h' : Workspace.Agree places w' w)
    (hsame : ∀ q, Consults w links f q → w.SameAt w' q) :
    resolve w' links f.path f.fields = resolve w links f.path f.fields := by
  induction links generalizing f with
  | zero => rw [resolve_zero, resolve_zero]
  | succ links ih =>
    rw [resolve_succ, resolve_succ, base?_agree h h' hsame]
    rcases ends_or w f with hf | ⟨g, hg⟩ | ⟨e, he⟩
    · rw [base?_of_ends hf]
      rfl
    · rw [base?_of_leadsTo hg]
      have hrest : resolve w' links g.path g.fields = resolve w links g.path g.fields :=
        ih fun q hq => hsame q (.further hg hq)
      simp only [Outcome.bind_of_ok rfl, hrest]
    · rw [base?_of_obstructed he]
      rfl

end agree

end CompilerOptions

end QualityGate
