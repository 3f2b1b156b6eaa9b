import Mathlib
import QualityGate.Report.Text

/-! What a record is written as is read back as that record, whatever texts and
numbers it holds. -/

namespace QualityGate

open Schema

namespace Schema

section fields

variable {α : Type} {entries : Entries} {name preferred : String} {r : Reader α} {v : Input} {a : α}

theorem required_of_get (hget : entries.get? name = some v) (hread : r v = pure a) :
    required entries name r = pure a := by
  simp only [required, hget, hread]
  rfl

theorem optional_of_get {default : α} (hget : entries.get? name = some v) (hread : r v = pure a) :
    optional entries name default r = pure a := by
  simp only [optional, hget, hread]
  rfl

theorem aliased_of_get {default? : Option α} (hget : entries.get? preferred = some v) (hread : r v = pure a) :
    aliased entries preferred name default? r = pure a := by
  simp only [aliased, hget, hread]
  rfl

end fields

theorem atLeastZero_natCast (n : Nat) : atLeastZero (.int n) = pure n := by
  show (if (n : Int) < 0 then Checked.fail .belowMinimum else pure (n : Int).toNat) = pure n
  exact if_neg (by omega)

theorem nullable_string (o : Option String) : nullable string (.ofJson (o.elim .null .str)) = pure o := by
  cases o <;> rfl

theorem itemsFrom_strings (texts : List String) (start : Nat) :
    itemsFrom string start (Input.ofJsonItems (texts.map .str)) = pure texts := by
  induction texts generalizing start with
  | nil => rfl
  | cons s texts ih =>
    simp only [List.map_cons, Input.ofJsonItems, itemsFrom, ih]
    rfl

end Schema

namespace Labelled

variable {α : Type} [Labelled α]

/-- No two members have one label. -/
def Distinct (α : Type) [Labelled α] : Prop := ∀ a : α, ofLabel? (label a) = some a

theorem Distinct.injective (h : Distinct α) {a b : α} (hab : label a = label b) : a = b := by
  have ha := h a
  rw [hab, h b] at ha
  exact (Option.some.inj ha).symm

theorem read_label (h : Distinct α) (a : α) : Labelled.reader (.text (label a)) = pure a := by
  show ((ofLabel? (label a)).map pure).getD (Checked.fail .unknownMember) = pure a
  rw [h a]
  rfl

end Labelled

theorem Severity.distinct : Labelled.Distinct Severity := fun s => by cases s <;> rfl

theorem Source.distinct : Labelled.Distinct Source := fun s => by cases s <;> rfl

theorem SuppressionKind.distinct : Labelled.Distinct SuppressionKind := fun k => by cases k <;> rfl

theorem Issue.read_toJson (i : Issue) : reader (.ofJson i.toJson) = pure i := by
  simp only [toJson, reader, Input.ofJson, Input.ofJsonFields, record]
  rw [optional_of_get (r := string) rfl rfl, optional_of_get (r := atLeastZero) rfl (atLeastZero_natCast i.line),
    optional_of_get (r := atLeastZero) rfl (atLeastZero_natCast i.column),
    required_of_get (r := Labelled.reader) rfl (Labelled.read_label Source.distinct i.source),
    required_of_get (r := Labelled.reader) rfl (Labelled.read_label Severity.distinct i.severity),
    required_of_get (r := string) rfl rfl, aliased_of_get (r := string) rfl rfl,
    optional_of_get rfl (nullable_string i.code)]
  rfl

theorem Suppression.read_toJson (s : Suppression) : reader (.ofJson s.toJson) = pure s := by
  simp only [toJson, reader, Input.ofJson, Input.ofJsonFields, record]
  rw [required_of_get (r := string) rfl rfl, required_of_get (r := atLeastZero) rfl (atLeastZero_natCast s.line),
    required_of_get (r := Labelled.reader) rfl (Labelled.read_label SuppressionKind.distinct s.kind),
    required_of_get (r := string) rfl rfl, optional_of_get rfl (nullable_string s.rule),
    aliased_of_get (r := bool) rfl rfl, optional_of_get (r := string) rfl rfl]
  rfl

theorem Summary.read_toJson (s : Summary) : reader (.ofJson s.toJson) = pure s := rfl

end QualityGate
