import QualityGate.Json.Commented
import QualityGate.Proofs.Json.RoundTrip
import QualityGate.Proofs.Lookup

/-! How values are written: the tokens, and which texts may stand between them. Three
dialects differ in the latter. A text first spells a tree, in which the names of an object
may repeat; the value it stands for keeps the last value of each name. -/

namespace QualityGate.Json

/-! Numbers and words. -/

/-- The text of a fraction, and its digits. -/
inductive Fraction : List Char → List Char → Prop where
  | absent : Fraction [] []
  | present {ds : List Char} (hne : ds ≠ []) (h : ∀ c ∈ ds, isAsciiDigit c = true) : Fraction ('.' :: ds) ds

/-- The text of an exponent, and its value. -/
inductive Exponent : List Char → Int → Prop where
  | absent : Exponent [] 0
  | present {mark : Char} {signText ds : List Char} {sign : Int} (hmark : mark = 'e' ∨ mark = 'E')
    (hsign : (signText, sign) ∈ [([], 1), (['+'], 1), (['-'], -1)]) (hne : ds ≠ [])
    (h : ∀ c ∈ ds, isAsciiDigit c = true) : Exponent (mark :: (signText ++ ds)) (sign * asciiNat ds)

def minusText (negative : Bool) : List Char := if negative then ['-'] else []

/-- Numbers and words. A number with a fraction or an exponent is a float. -/
inductive Token {σ : Type} : Json σ → List Char → Prop where
  | word {w : String} {v : Json σ} (h : (w, v) ∈ words) : Token v w.toList
  | int (negative : Bool) (n : Nat) :
    Token (int (Numeral.withSign negative n)) (minusText negative ++ Nat.toDigits 10 n)
  | float (negative : Bool) (n : Nat) {fraction ds exponent : List Char} {e : Int} (hf : Fraction fraction ds)
    (he : Exponent exponent e) (h : fraction ++ exponent ≠ []) :
    Token (float (Decimal.nearest negative (asciiNat (Nat.toDigits 10 n ++ ds)) (e - ds.length)))
      (minusText negative ++ (Nat.toDigits 10 n ++ (fraction ++ exponent)))

/-! Strings. -/

inductive Piece where
  | plain (c : Char)
  | escape (mark c : Char)
  /-- Four hexadecimal digits and their value. -/
  | unit (a b c d : Char) (n : Nat)

namespace Piece

def chars : Piece → List Char
  | plain c => [c]
  | escape mark _ => ['\\', mark]
  | unit a b c d _ => ['\\', 'u', a, b, c, d]

def Valid : Piece → Prop
  | plain c => 32 ≤ c.toNat ∧ c ≠ '"' ∧ c ≠ '\\'
  | escape mark c => simpleEscape? mark = some c
  | unit a b c d n => codeUnit? a b c d = some n

end Piece

/-- The code points that some pieces stand for. The two halves of a pair, one after the other, are one. -/
def meaning : List Piece → List Nat
  | .unit _ _ _ _ high :: .unit a b c d low :: ps =>
    if isHighSurrogate high && isLowSurrogate low then pairPoint high low :: meaning ps
    else high :: meaning (.unit a b c d low :: ps)
  | .unit _ _ _ _ n :: ps => n :: meaning ps
  | .escape _ c :: ps => c.toNat :: meaning ps
  | .plain c :: ps => c.toNat :: meaning ps
  | [] => []

/-- A string between its quotes. -/
inductive Quoted {σ : Type} [OfPoints σ] : σ → List Char → Prop where
  | intro {ps : List Piece} (h : ∀ p ∈ ps, p.Valid) :
    Quoted (ofPoints (meaning ps)) ('"' :: (ps.flatMap Piece.chars ++ ['"']))

/-! Comments. -/

/-- A comment that has its end. -/
inductive Comment : List Char → Prop where
  | line {body : List Char} (h : '\n' ∉ body) : Comment ('/' :: '/' :: (body ++ ['\n']))
  | block {body : List Char} (h : ¬ ['*', '/'] <:+: body) : Comment ('/' :: '*' :: (body ++ ['*', '/']))

/-- Blanks and comments. -/
inductive Gap : List Char → Prop where
  | nil : Gap []
  | blank {c : Char} {g : List Char} (hc : isSpace c = true) (hg : Gap g) : Gap (c :: g)
  | comment {k g : List Char} (hk : Comment k) (hg : Gap g) : Gap (k ++ g)

/-- A line comment may end with the text. -/
inductive FinalGap : List Char → Prop where
  | gap {g : List Char} (hg : Gap g) : FinalGap g
  | line {g body : List Char} (hg : Gap g) (h : '\n' ∉ body) : FinalGap (g ++ '/' :: '/' :: body)

/-- Block comments that are all on one line. -/
inductive Inline : List Char → Prop where
  | nil : Inline []
  | comment {body g : List Char} (h : ¬ ['*', '/'] <:+: body) (hline : '\n' ∉ body) (hg : Inline g) :
    Inline ('/' :: '*' :: (body ++ '*' :: '/' :: g))

/-- A token with such comments between its characters. -/
inductive Woven : List Char → List Char → Prop where
  | single (c : Char) : Woven [c] [c]
  | cons (c : Char) {k w t : List Char} (hk : Inline k) (h : Woven w t) : Woven (c :: w) (c :: (k ++ t))

/-! Dialects. -/

structure Dialect where
  /-- What may stand between two tokens. -/
  gap : List Char → Prop
  /-- What may stand between the brackets of an empty array or object. -/
  hollow : List Char → Prop
  /-- What may stand between the gap after the last part of an array or object and its closing bracket. -/
  closing : List Char → Prop
  /-- What may stand after the value. -/
  ending : List Char → Prop
  /-- How a number or a word may be written. -/
  token : List Char → List Char → Prop

namespace Dialect

def plain : Dialect where
  gap := AllBlank
  hollow := AllBlank
  closing t := t = []
  ending := AllBlank
  token w t := t = w

/-- With comments, and with a comma after the last part of an array or object. -/
def commented : Dialect where
  gap := Gap
  hollow := Gap
  closing t := t = [] ∨ ∃ g, Gap g ∧ t = ',' :: g
  ending := FinalGap
  token w t := t = w

/-- Beyond that, one-line comments may stand inside of a token, a comma in an empty array or object, and
the text may end in a block comment. -/
def lenient : Dialect where
  gap := Gap
  hollow t := Gap t ∨ ∃ g g', Gap g ∧ Gap g' ∧ t = g ++ ',' :: g'
  closing t := t = [] ∨ ∃ g, Gap g ∧ t = ',' :: g
  ending t := FinalGap t ∨ ∃ g body, Gap g ∧ ¬ ['*', '/'] <:+: body ∧ t = g ++ '/' :: '*' :: body
  token := Woven

end Dialect

/-- An item of an array, with the gaps around it. -/
structure Item (σ : Type := String) where
  before : List Char
  value : Json σ
  text : List Char
  after : List Char

def Item.chars {σ : Type} (i : Item σ) : List Char := i.before ++ (i.text ++ i.after)

/-- A field of an object: its name, with the gaps around it, and its value. -/
structure Entry (σ : Type := String) where
  before : List Char
  name : σ
  nameText : List Char
  after : List Char
  item : Item σ

namespace Entry

variable {σ : Type}

def chars (e : Entry σ) : List Char := e.before ++ (e.nameText ++ (e.after ++ ':' :: e.item.chars))

def field (e : Entry σ) : σ × Json σ := (e.name, e.item.value)

end Entry

/-- Parts of an array or object with commas between them. -/
def joined (parts : List (List Char)) : List Char := [','].intercalate parts

/-- The texts of a tree, from its first character to its last. -/
inductive Spelling {σ : Type} [OfPoints σ] (d : Dialect) : Json σ → List Char → Prop where
  | scalar {v : Json σ} {w t : List Char} (h : Token v w) (ht : d.token w t) : Spelling d v t
  | str {s : σ} {t : List Char} (h : Quoted s t) : Spelling d (str s) t
  | emptyArray {g : List Char} (hg : d.hollow g) : Spelling d (arr []) ('[' :: (g ++ [']']))
  | array {items : List (Item σ)} {c : List Char} (hne : items ≠ [])
    (hgaps : ∀ i ∈ items, d.gap i.before ∧ d.gap i.after) (hitems : ∀ i ∈ items, Spelling d i.value i.text)
    (hc : d.closing c) :
    Spelling d (arr (items.map Item.value)) ('[' :: (joined (items.map Item.chars) ++ (c ++ [']'])))
  | emptyObject {g : List Char} (hg : d.hollow g) : Spelling d (obj []) ('\x7b' :: (g ++ ['\x7d']))
  | object {entries : List (Entry σ)} {c : List Char} (hne : entries ≠ [])
    (hnames : ∀ e ∈ entries, d.gap e.before ∧ Quoted e.name e.nameText ∧ d.gap e.after)
    (hgaps : ∀ e ∈ entries, d.gap e.item.before ∧ d.gap e.item.after)
    (hitems : ∀ e ∈ entries, Spelling d e.item.value e.item.text) (hc : d.closing c) :
    Spelling d (obj (entries.map Entry.field))
      ('\x7b' :: (joined (entries.map Entry.chars) ++ (c ++ ['\x7d'])))

/-- Whether a whole text spells a tree. -/
def Spelled {σ : Type} [OfPoints σ] (d : Dialect) (v : Json σ) (text : List Char) : Prop :=
  ∃ front t back, text = front ++ (t ++ back) ∧ d.gap front ∧ Spelling d v t ∧ d.ending back

/-! What a tree stands for, and whether it is within the bounds of the reader. -/

section trees

variable {σ : Type}

section merged

variable [DecidableEq σ]

mutual

/-- Of several fields with one name, the last counts. -/
def merged : Json σ → Json σ
  | arr items => arr (mergedItems items)
  | obj fields => obj (Fields.ofPairs (mergedFields fields))
  | v => v

def mergedItems : List (Json σ) → List (Json σ)
  | [] => []
  | v :: vs => merged v :: mergedItems vs

def mergedFields : List (σ × Json σ) → List (σ × Json σ)
  | [] => []
  | (name, v) :: fs => (name, merged v) :: mergedFields fs

end

theorem mergedItems_eq_map (items : List (Json σ)) : mergedItems items = items.map merged := by
  induction items with
  | nil => rfl
  | cons v vs ih => simp [mergedItems, ih]

theorem mergedFields_eq_map (fields : List (σ × Json σ)) :
    mergedFields fields = fields.map fun f => (f.1, merged f.2) := by
  induction fields with
  | nil => rfl
  | cons f fs ih => simp [mergedFields, ih]

end merged

mutual

/-- There is `room` for the brackets of a tree. -/
def Nested (room : Nat) : Json σ → Prop
  | null | bool _ | int _ | float _ | str _ => True
  | arr items => 0 < room ∧ NestedItems (room - 1) items
  | obj fields => 0 < room ∧ NestedFields (room - 1) fields

def NestedItems (room : Nat) : List (Json σ) → Prop
  | [] => True
  | v :: vs => Nested room v ∧ NestedItems room vs

def NestedFields (room : Nat) : List (σ × Json σ) → Prop
  | [] => True
  | (_, v) :: fs => Nested room v ∧ NestedFields room fs

end

/-- No whole number is too long, and brackets do not stand too deep in each other. -/
def InBounds [Limits] (v : Json σ) : Prop := Nested mostNested v ∧ Short v

theorem nestedItems_iff {room : Nat} {items : List (Json σ)} : NestedItems room items ↔ ∀ v ∈ items, Nested room v := by
  induction items with
  | nil => simp [NestedItems]
  | cons v vs ih => simp [NestedItems, ih]

theorem nestedFields_iff {room : Nat} {fields : List (σ × Json σ)} :
    NestedFields room fields ↔ ∀ f ∈ fields, Nested room f.2 := by
  induction fields with
  | nil => simp [NestedFields]
  | cons f fs ih => simp [NestedFields, ih]

end trees

/-! No name stands twice in an object that was read. -/

section names

variable {tree v : Json} {fields options pairs : Fields} {name : String}

theorem nodup_ofPairs : ((Fields.ofPairs pairs).map Prod.fst).Nodup :=
  List.foldlRecOn (motive := fun fields : Fields => (fields.map Prod.fst).Nodup) pairs _ List.nodup_nil
    fun fields h f _ => nodup_insertKey fields f.2 h

theorem mem_of_mem_ofPairs {f : String × Json} (h : f ∈ Fields.ofPairs pairs) : f ∈ pairs := by
  refine List.foldlRecOn (motive := fun fields : Fields => ∀ g ∈ fields, g ∈ pairs) pairs _
    (fun _ h => absurd h List.not_mem_nil) ?_ f h
  intro fields ih p hp g hg
  rcases mem_insertKey fields p.2 hg with ⟨hg, -⟩ | rfl
  · exact ih g hg
  · exact hp

theorem nodup_of_merged (h : merged tree = obj fields) : (fields.map Prod.fst).Nodup := by
  cases tree with
  | obj fs =>
    rw [merged, obj.injEq] at h
    rw [← h]
    exact nodup_ofPairs
  | _ => simp [merged] at h

theorem nodup_of_merged_field (h : merged tree = v) (hname : v.field? name = some (obj options)) :
    (options.map Prod.fst).Nodup := by
  subst h
  cases tree with
  | obj fs =>
    rw [merged, mergedFields_eq_map] at hname
    obtain ⟨before, after, hsplit, -⟩ := List.lookup_eq_some_iff.mp hname
    have hmem : (name, obj options) ∈ Fields.ofPairs (fs.map fun f => (f.1, merged f.2)) := by simp [hsplit]
    obtain ⟨f, -, hf⟩ := List.mem_map.mp (mem_of_mem_ofPairs hmem)
    exact nodup_of_merged (Prod.ext_iff.mp hf).2
  | _ => simp [merged, field?] at hname

end names

/-! The characters of numbers and words. -/

def isTokenChar (c : Char) : Bool := c.isAlphanum || c == '-' || c == '+' || c == '.'

section tokens

variable {σ : Type} {c : Char} {v : Json σ} {w : List Char}

theorem ne_of_isTokenChar {b : Char} (h : isTokenChar c = true) (hb : isTokenChar b = false) : c ≠ b := by
  rintro rfl
  simp [hb] at h

theorem isTokenChar_of_isAsciiDigit (h : isAsciiDigit c = true) : isTokenChar c = true := by
  have hdigit : c.isDigit = true := by simpa [isAsciiDigit, Char.isDigit, Char.le_def] using h
  simp [isTokenChar, Char.isAlphanum, hdigit]

/-- Such a character is neither a blank nor a mark. -/
theorem toNat_of_isTokenChar (h : isTokenChar c = true) : 33 ≤ c.toNat ∧ c.toNat < 127 := by
  simp only [isTokenChar, Char.isAlphanum, Char.isAlpha, Char.isUpper, Char.isLower, Char.isDigit, Bool.or_eq_true,
    Bool.and_eq_true, decide_eq_true_eq, beq_iff_eq, ge_iff_le, UInt32.le_iff_toNat_le] at h
  have hval : c.val.toNat = c.toNat := rfl
  rcases h with (((((h | h) | h) | rfl) | rfl) | rfl)
  · have := h.1; have := h.2; simp at *; omega
  · have := h.1; have := h.2; simp at *; omega
  · have := h.1; have := h.2; simp at *; omega
  all_goals decide

theorem Token.ne_nil (h : Token v w) : w ≠ [] := by
  cases h with
  | word h =>
    obtain ⟨c, cs, htext, -⟩ := word_heads _ h
    rw [htext]
    exact List.cons_ne_nil c cs
  | int negative n => simp [Nat.toDigits_ne_nil]
  | float negative n => simp [Nat.toDigits_ne_nil]

theorem Token.isTokenChar (h : Token v w) : ∀ c ∈ w, isTokenChar c = true := by
  have hminus (negative : Bool) : ∀ c ∈ minusText negative, Json.isTokenChar c = true := by
    cases negative <;> simp [minusText, Json.isTokenChar]
  have hdigits (n : Nat) : ∀ c ∈ Nat.toDigits 10 n, Json.isTokenChar c = true :=
    fun c hc => isTokenChar_of_isAsciiDigit (isAsciiDigit_of_mem_toDigits hc)
  cases h with
  | word h =>
    simp only [words, List.mem_cons, List.not_mem_nil, or_false, Prod.mk.injEq] at h
    rcases h with ⟨rfl, -⟩ | ⟨rfl, -⟩ | ⟨rfl, -⟩ | ⟨rfl, -⟩ | ⟨rfl, -⟩ | ⟨rfl, -⟩ <;> simp [Json.isTokenChar]
  | int negative n => exact List.forall_mem_append.mpr ⟨hminus negative, hdigits n⟩
  | float negative n hf he =>
    simp only [List.forall_mem_append]
    refine ⟨hminus negative, hdigits n, ?_, ?_⟩
    · cases hf with
      | absent => simp
      | present _ hds => exact List.forall_mem_cons.mpr ⟨rfl, fun c hc => isTokenChar_of_isAsciiDigit (hds c hc)⟩
    · cases he with
      | absent => simp
      | present hmark hsign _ hds =>
        simp only [List.forall_mem_cons, List.forall_mem_append]
        refine ⟨?_, ?_, fun c hc => isTokenChar_of_isAsciiDigit (hds c hc)⟩
        · rcases hmark with rfl | rfl <;> rfl
        · simp only [List.mem_cons, List.not_mem_nil, or_false, Prod.mk.injEq] at hsign
          rcases hsign with ⟨rfl, -⟩ | ⟨rfl, -⟩ | ⟨rfl, -⟩ <;> simp [Json.isTokenChar]

theorem Token.starts (h : Token v w) : Starts w := by
  obtain ⟨c, cs, rfl⟩ := List.exists_cons_of_ne_nil h.ne_nil
  have hc := h.isTokenChar c List.mem_cons_self
  have hspace : isSpace c = false := by
    simp [isSpace, ne_of_isTokenChar (b := ' ') hc rfl, ne_of_isTokenChar (b := '\t') hc rfl,
      ne_of_isTokenChar (b := '\n') hc rfl, ne_of_isTokenChar (b := '\r') hc rfl]
  exact ⟨c, cs, rfl, hspace, ne_of_isTokenChar hc rfl, ne_of_isTokenChar hc rfl, ne_of_isTokenChar hc rfl⟩

end tokens

/-! One dialect within another. -/

structure Dialect.Le (d e : Dialect) : Prop where
  gap : ∀ t, d.gap t → e.gap t
  hollow : ∀ t, d.hollow t → e.hollow t
  closing : ∀ t, d.closing t → e.closing t
  ending : ∀ t, d.ending t → e.ending t
  token : ∀ w t, w ≠ [] → d.token w t → e.token w t

theorem gap_of_allBlank {g : List Char} (h : AllBlank g) : Gap g := by
  induction g with
  | nil => exact .nil
  | cons c g ih => exact .blank (h c List.mem_cons_self) (ih fun b hb => h b (List.mem_cons_of_mem c hb))

theorem woven_self {w : List Char} (h : w ≠ []) : Woven w w := by
  induction w with
  | nil => exact absurd rfl h
  | cons c w ih =>
    cases w with
    | nil => exact .single c
    | cons b w => exact .cons c .nil (ih (by simp))

theorem Dialect.plain_le_commented : plain.Le commented where
  gap _ := gap_of_allBlank
  hollow _ := gap_of_allBlank
  closing _ h := .inl h
  ending _ h := .gap (gap_of_allBlank h)
  token _ _ _ h := h

theorem Dialect.commented_le_lenient : commented.Le lenient where
  gap _ h := h
  hollow _ h := .inl h
  closing _ h := h
  ending _ h := .inl h
  token w t hne h := by
    obtain rfl : t = w := h
    exact woven_self hne

variable {σ : Type} [OfPoints σ] {d e : Dialect} {v : Json σ} {t : List Char}

theorem Spelling.mono (hde : d.Le e) (h : Spelling d v t) : Spelling e v t := by
  induction h with
  | scalar h ht => exact .scalar h (hde.token _ _ h.ne_nil ht)
  | str h => exact .str h
  | emptyArray hg => exact .emptyArray (hde.hollow _ hg)
  | array hne hgaps _ hc ih =>
    exact .array hne (fun i hi => (hgaps i hi).imp (hde.gap _) (hde.gap _)) ih (hde.closing _ hc)
  | emptyObject hg => exact .emptyObject (hde.hollow _ hg)
  | object hne hnames hgaps _ hc ih =>
    refine .object hne (fun i hi => ?_) (fun i hi => (hgaps i hi).imp (hde.gap _) (hde.gap _)) ih (hde.closing _ hc)
    obtain ⟨hbefore, hname, hafter⟩ := hnames i hi
    exact ⟨hde.gap _ hbefore, hname, hde.gap _ hafter⟩

theorem Spelled.mono (hde : d.Le e) (h : Spelled d v t) : Spelled e v t := by
  obtain ⟨front, text, back, rfl, hfront, htext, hback⟩ := h
  exact ⟨front, text, back, rfl, hde.gap _ hfront, htext.mono hde, hde.ending _ hback⟩

end QualityGate.Json
