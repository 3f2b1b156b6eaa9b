import Mathlib
import QualityGate.Proofs.Text.Lines
import QualityGate.Workspace.Path

/-! The ways to spell a path. Between slashes stand names, single dots and
nothing at all; only the names count. -/

namespace QualityGate

namespace Path

/-- A segment of a path that counts. -/
def IsName (seg : List Char) : Prop := seg ≠ [] ∧ seg ≠ ['.'] ∧ '/' ∉ seg

/-- Names with segments among them that do not count. -/
inductive Segments : List (List Char) → List String → Prop
  | nil : Segments [] []
  | silent {seg segs names} (hseg : seg = [] ∨ seg = ['.']) (h : Segments segs names) : Segments (seg :: segs) names
  | name {seg segs names} (hseg : IsName seg) (h : Segments segs names) : Segments (seg :: segs) (String.ofList seg :: names)

/-- The text of some segments, which begins with no slash. -/
inductive Tail : List Char → List String → Prop
  | intro {segs names} (h : Segments segs names) (hhead : segs.head? ≠ some []) : Tail (['/'].intercalate segs) names

/-- What a path's text begins with: more than two slashes are as one. -/
def slashes (n : Nat) : String := if n = 0 then "" else if n = 2 then "//" else "/"

/-- A text spells a path. -/
inductive Spells : String → Path → Prop
  | intro {t names} (n : Nat) (h : Tail t names) : Spells (String.ofList (List.replicate n '/' ++ t)) ⟨slashes n, names⟩

section segments

variable {segs : List (List Char)} {names : List String} {t : List Char}

theorem Segments.slash_notMem (h : Segments segs names) : ∀ seg ∈ segs, '/' ∉ seg := by
  induction h with
  | nil => nofun
  | silent hseg _ ih => exact List.forall_mem_cons.mpr ⟨by rcases hseg with rfl | rfl <;> decide, ih⟩
  | name hseg _ ih => exact List.forall_mem_cons.mpr ⟨hseg.2.2, ih⟩

theorem Segments.isName (h : Segments segs names) : ∀ name ∈ names, IsName name.toList := by
  induction h with
  | nil => nofun
  | silent _ _ ih => exact ih
  | name hseg _ ih => exact List.forall_mem_cons.mpr ⟨by rwa [String.toList_ofList], ih⟩

/-- The components of a path's text are those of its segments that count. -/
def counted (segs : List (List Char)) : List String :=
  segs.filterMap fun part => if part.isEmpty || part == ['.'] then none else some (String.ofList part)

theorem components_eq (s : List Char) : components s = counted (s.splitOn '/') := by
  rw [components, Text.splitAtChar_eq_splitOn, counted]

theorem Segments.counted_eq (h : Segments segs names) : counted segs = names := by
  induction h with
  | nil => rfl
  | silent hseg _ ih => rcases hseg with rfl | rfl <;> simpa [counted] using ih
  | name hseg _ ih =>
    obtain ⟨hempty, hdot, -⟩ := hseg
    simpa [counted, hempty, hdot] using ih

theorem segments_counted (h : ∀ seg ∈ segs, '/' ∉ seg) : Segments segs (counted segs) := by
  induction segs with
  | nil => exact .nil
  | cons seg segs ih =>
    obtain ⟨hseg, hsegs⟩ := List.forall_mem_cons.mp h
    by_cases hsilent : seg = [] ∨ seg = ['.']
    · have hcounted : counted (seg :: segs) = counted segs := by rcases hsilent with rfl | rfl <;> simp [counted]
      exact hcounted ▸ .silent hsilent (ih hsegs)
    · obtain ⟨hempty, hdot⟩ := not_or.mp hsilent
      have hcounted : counted (seg :: segs) = String.ofList seg :: counted segs := by simp [counted, hempty, hdot]
      exact hcounted ▸ .name ⟨hempty, hdot, hseg⟩ (ih hsegs)

theorem segments_names (h : ∀ name ∈ names, IsName name.toList) : Segments (names.map String.toList) names := by
  induction names with
  | nil => exact .nil
  | cons name names ih =>
    obtain ⟨hname, hnames⟩ := List.forall_mem_cons.mp h
    simpa using Segments.name hname (ih hnames)

theorem Tail.components_eq (h : Tail t names) : components t = names := by
  obtain ⟨h, -⟩ := h
  rename_i segs
  rw [Path.components_eq]
  cases segs with
  | nil => simpa [counted] using h.counted_eq
  | cons seg segs => rw [List.splitOn_intercalate '/' h.slash_notMem (List.cons_ne_nil seg segs), h.counted_eq]

theorem Tail.head?_ne (h : Tail t names) : t.head? ≠ some '/' := by
  obtain ⟨h, hhead⟩ := h
  rename_i segs
  match segs with
  | [] => simp
  | [] :: _ => exact absurd rfl hhead
  | (c :: seg) :: segs =>
    have hc : c ≠ '/' := by
      rintro rfl
      exact h.slash_notMem _ List.mem_cons_self List.mem_cons_self
    cases segs <;> simpa [List.intercalate_cons_cons] using hc

theorem components_slashes (n : Nat) (t : List Char) : components (List.replicate n '/' ++ t) = components t := by
  induction n with
  | zero => rfl
  | succ n ih =>
    rw [← ih, Path.components_eq, Path.components_eq, List.replicate_succ, List.cons_append,
      List.splitOn_cons_eq_if_modifyHead, if_pos (beq_self_eq_true '/')]
    rfl

theorem tail_of_head?_ne (h : t.head? ≠ some '/') : Tail t (components t) := by
  cases t with
  | nil => exact .intro Segments.nil nofun
  | cons c t =>
    have hhead : ((c :: t).splitOn '/').head? ≠ some [] := by
      rw [List.splitOn_cons_eq_if_modifyHead, if_neg (by simpa using h)]
      cases ht : t.splitOn '/' with
      | nil => simp
      | cons first rest => simp
    have hsegments := segments_counted fun seg hseg => Text.notMem_of_mem_splitOn (s := c :: t) hseg
    simpa [Path.components_eq] using Tail.intro hsegments hhead

end segments

section spells

variable {s : String} {p q : Path}

theorem head?_dropWhile_slashes (t : List Char) : (t.dropWhile (· == '/')).head? ≠ some '/' := by
  intro h
  have hfalse := List.head?_dropWhile_not (· == '/') t
  rw [h] at hfalse
  simp at hfalse

theorem takeWhile_slashes {n : Nat} {t : List Char} (h : t.head? ≠ some '/') :
    (List.replicate n '/' ++ t).takeWhile (· == '/') = List.replicate n '/' := by
  rw [List.takeWhile_append_of_pos (by simp)]
  cases t with
  | nil => simp
  | cons c t => simp [show (c == '/') = false by simpa using h]

theorem rootText_eq (n : Nat) : (if n == 0 then "" else if n == 2 then "//" else "/") = slashes n := by
  simp only [beq_iff_eq, slashes]

/-- What a text spells is the path that is read from it. -/
theorem Spells.ofText_eq (h : Spells s p) : ofText s = p := by
  obtain ⟨n, h⟩ := h
  rename_i t names
  have hlength : ((List.replicate n '/' ++ t).takeWhile (· == '/')).length = n := by
    rw [takeWhile_slashes h.head?_ne, List.length_replicate]
  rw [ofText, String.toList_ofList, hlength, rootText_eq, components_slashes, h.components_eq]

/-- Every text spells a path. -/
theorem spells_ofText (s : String) : Spells s (ofText s) := by
  obtain ⟨n, hn⟩ : ∃ n, n = (s.toList.takeWhile (· == '/')).length := ⟨_, rfl⟩
  have hslashes : s.toList.takeWhile (· == '/') = List.replicate n '/' :=
    List.eq_replicate_iff.mpr ⟨hn.symm, fun c hc => by simpa using List.mem_takeWhile_imp hc⟩
  have htext : s.toList = List.replicate n '/' ++ s.toList.dropWhile (· == '/') := by
    rw [← hslashes, List.takeWhile_append_dropWhile]
  have hspells := Spells.intro n (tail_of_head?_ne (head?_dropWhile_slashes s.toList))
  rw [ofText, ← hn, rootText_eq]
  conv in components s.toList => rw [htext, components_slashes]
  rwa [← htext, String.ofList_toList] at hspells

theorem spells_iff : Spells s p ↔ ofText s = p :=
  ⟨Spells.ofText_eq, fun h => h ▸ spells_ofText s⟩

/-- A path as texts spell it. -/
structure Valid (p : Path) : Prop where
  root : ∃ n, p.root = slashes n
  names : ∀ name ∈ p.parts, IsName name.toList

theorem valid_ofText (s : String) : Valid (ofText s) := by
  generalize h : ofText s = p
  obtain ⟨n, ⟨hsegments, -⟩⟩ := spells_iff.mpr h
  exact ⟨⟨n, rfl⟩, hsegments.isName⟩

theorem exists_slashes (n : Nat) : ∃ m, slashes m = slashes n ∧ (slashes m).toList = List.replicate m '/' := by
  by_cases h : n ≤ 2
  · exact ⟨n, rfl, by interval_cases n <;> rfl⟩
  · exact ⟨1, by rw [slashes, slashes, if_neg (by omega), if_neg (by omega), if_neg (by omega), if_neg (by omega)], rfl⟩

/-- The text of a path spells it. -/
theorem spells_text (h : Valid p) : Spells p.text p := by
  obtain ⟨root, names⟩ := p
  obtain ⟨⟨n, hroot⟩, hnames⟩ := h
  dsimp only at hroot hnames
  obtain ⟨m, hm, hslashes⟩ := exists_slashes n
  have hsegments := segments_names hnames
  by_cases hnone : root = "" ∧ names = []
  · obtain ⟨rfl, rfl⟩ := hnone
    exact .intro 0 (.intro (Segments.silent (.inr rfl) .nil : Segments [['.']] []) nofun)
  · have hhead : (names.map String.toList).head? ≠ some [] := by
      cases names with
      | nil => simp
      | cons name names => simpa using (hnames name List.mem_cons_self).1
    have htext : text ⟨root, names⟩ = String.ofList (List.replicate m '/' ++ ['/'].intercalate (names.map String.toList)) := by
      rw [text, if_neg (by simpa using hnone), hroot, ← hm, String.ext_iff]
      simp [hslashes]
    rw [htext, hroot, ← hm]
    exact .intro m (.intro hsegments hhead)

theorem text_injective (hp : Valid p) (hq : Valid q) (h : p.text = q.text) : p = q :=
  (spells_text hp).ofText_eq.symm.trans ((congrArg ofText h).trans (spells_text hq).ofText_eq)

end spells

section below

variable {root p q : Path} {s t : String}

/-- The part of a path that says where it lies under a root, or all of it where it lies elsewhere. -/
def below (root p : Path) : Path := if p.isAbsolute then (p.relativeTo? root).getD p else p

theorem normalized_eq (root : Path) (s : String) : normalized (some root) s = (below root (ofText s)).text := by
  rw [normalized, below]
  split <;> rfl

theorem relativeTo?_eq_some : p.relativeTo? root = some q ↔ q.root = "" ∧ p = { root with parts := root.parts ++ q.parts } := by
  obtain ⟨proot, pparts⟩ := p
  obtain ⟨qroot, qparts⟩ := q
  simp only [relativeTo?, Bool.and_eq_true, beq_iff_eq, List.isPrefixOf_iff_prefix, Option.ite_none_right_eq_some,
    Option.some.injEq, mk.injEq]
  constructor
  · rintro ⟨⟨rfl, rest, rfl⟩, rfl, h⟩
    exact ⟨rfl, rfl, by rw [← h, List.drop_left]⟩
  · rintro ⟨rfl, rfl, rfl⟩
    exact ⟨⟨rfl, List.prefix_append _ _⟩, rfl, List.drop_left⟩

theorem join_of_relative (h : q.root = "") : root.join q = { root with parts := root.parts ++ q.parts } := by
  rw [join, isAbsolute, h]
  rfl

theorem join_of_absolute (h : q.isAbsolute = true) : root.join q = q := if_pos h

theorem below_of_relative (h : p.root = "") : below root p = p := by
  rw [below, isAbsolute, h]
  rfl

theorem join_below : root.join (below root p) = root.join p := by
  cases h : p.isAbsolute with
  | false => rw [below, h, if_neg Bool.false_ne_true]
  | true =>
    rw [below, h, if_pos rfl]
    cases hq : p.relativeTo? root with
    | none => rfl
    | some q =>
      obtain ⟨hrelative, hp⟩ := relativeTo?_eq_some.mp hq
      rw [Option.getD_some, join_of_relative hrelative, join_of_absolute h, hp]

/-- A relative path lies under the root where it leads to from there. -/
theorem below_join_of_relative (h : q.root = "") (habsolute : (root.join q).isAbsolute = true) :
    below root (root.join q) = q := by
  have hrelative : (root.join q).relativeTo? root = some q := relativeTo?_eq_some.mpr ⟨h, join_of_relative h⟩
  rw [below, if_pos habsolute, hrelative, Option.getD_some]

theorem isAbsolute_eq_false : p.isAbsolute = false ↔ p.root = "" := by
  simp [isAbsolute]

/-- Paths are below a root in the same way exactly where they lead to the same place from there. -/
theorem below_eq_iff : below root p = below root q ↔ root.join p = root.join q := by
  refine ⟨fun h => by rw [← join_below, h, join_below], fun h => ?_⟩
  cases hp : p.isAbsolute with
  | true =>
    cases hq : q.isAbsolute with
    | true => rw [join_of_absolute hp, join_of_absolute hq] at h; rw [h]
    | false =>
      rw [join_of_absolute hp] at h
      have hq := isAbsolute_eq_false.mp hq
      rw [below_of_relative hq, h, below_join_of_relative hq (h ▸ hp)]
  | false =>
    have hp := isAbsolute_eq_false.mp hp
    cases hq : q.isAbsolute with
    | true =>
      rw [join_of_absolute hq] at h
      rw [below_of_relative hp, ← h, below_join_of_relative hp (h ▸ hq)]
    | false =>
      have hq := isAbsolute_eq_false.mp hq
      rw [join_of_relative hp, join_of_relative hq, mk.injEq] at h
      have hparts := List.append_cancel_left h.2
      rw [below_of_relative hp, below_of_relative hq]
      exact Path.mk.injEq _ _ _ _ ▸ ⟨hp.trans hq.symm, hparts⟩

theorem valid_below (h : Valid p) : Valid (below root p) := by
  cases hp : p.isAbsolute with
  | false => rwa [below_of_relative (isAbsolute_eq_false.mp hp)]
  | true =>
    rw [below, if_pos hp]
    cases hq : p.relativeTo? root with
    | none => exact h
    | some q =>
      obtain ⟨hrelative, rfl⟩ := relativeTo?_eq_some.mp hq
      exact ⟨⟨0, hrelative⟩, fun name hname => h.names name (List.mem_append_right _ hname)⟩

/-- Texts are normalized to the same text exactly where they lead to the same place from the root. -/
theorem normalized_eq_iff :
    normalized (some root) s = normalized (some root) t ↔ root.join (ofText s) = root.join (ofText t) := by
  rw [normalized_eq, normalized_eq, ← below_eq_iff]
  exact ⟨text_injective (valid_below (valid_ofText s)) (valid_below (valid_ofText t)), congrArg text⟩

end below

end Path

end QualityGate
