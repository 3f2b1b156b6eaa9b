import Mathlib
import QualityGate.Proofs.Lookup
import QualityGate.Proofs.Policy.Classification
import QualityGate.Proofs.Workspace.Walk
import QualityGate.Workspace.Discovery

/-! Which files are found below a directory. A directory that is not entered hides all below it, whatever the patterns say
of what stands there. What is found does not depend on the order of the entries. -/

namespace QualityGate.Discovery

/-- No place holds two entries, and below the root the directory of every entry is an entry too. -/
structure IsTree (w : Workspace) (root : List String) : Prop where
  places : (w.entries.map Prod.fst).Nodup
  parents : ∀ dir name e, dir ≠ [] → (root ++ (dir ++ [name]), e) ∈ w.entries → (root ++ dir, .directory) ∈ w.entries

/-- A file stands at a place, or a link that leads to no directory. -/
def HoldsFile (w : Workspace) (place : List String) : Prop :=
  (∃ data executable, (place, .file data executable) ∈ w.entries) ∨
    ∃ target, (place, .link target) ∈ w.entries ∧ w.isDirectory ⟨"/", place⟩ = false

/-- The file that the components lead to from the root is selected, and no directory on the way to it is left out. -/
structure Chosen (w : Workspace) (f : Filter) (root below : List String) : Prop where
  file : HoldsFile w (root ++ below)
  inside : below ≠ []
  included : Glob.selects f.included (pathOf below) = true
  kept : Glob.selects f.excluded (pathOf below) = false
  entered : ∀ dir name rest, below = dir ++ name :: rest → rest ≠ [] →
    name ∉ alwaysExcluded ∧ Glob.selects f.excluded (pathOf (dir ++ [name]) ++ "/") = false

/-- How the scan of a directory comes to a file. -/
inductive Finds (w : Workspace) (f : Filter) (root : List String) : List String → List String → Prop
  | file {dir : List String} {name : String} (hfile : HoldsFile w (root ++ (dir ++ [name])))
      (htakes : f.takes (pathOf (dir ++ [name])) = true) : Finds w f root dir (dir ++ [name])
  | directory {dir own : List String} {name : String} (hdir : (root ++ (dir ++ [name]), .directory) ∈ w.entries)
      (henters : f.enters (pathOf (dir ++ [name])) name = true) (hfinds : Finds w f root (dir ++ [name]) own) :
      Finds w f root dir own

/-- What the scan of a directory finds at and below one of its entries. -/
def scanChild (w : Workspace) (f : Filter) (root : List String) (depth : Nat) (dir : List String)
    (child : String × Entry) : List (List String) :=
  match child.2 with
  | .directory =>
    if f.enters (pathOf (dir ++ [child.1])) child.1 then scan w f root depth (dir ++ [child.1]) else []
  | .file .. => if f.takes (pathOf (dir ++ [child.1])) then [dir ++ [child.1]] else []
  | .link _ =>
    if !w.isDirectory ⟨"/", root ++ (dir ++ [child.1])⟩ && f.takes (pathOf (dir ++ [child.1])) then [dir ++ [child.1]]
    else []

variable {w w' : Workspace} {f : Filter} {s : FileSelection} {root dir own below : List String} {name : String} {e : Entry}
  {depth : Nat}

/-- A tree is told by its entries. -/
theorem IsTree.of_entries (hplaces : (w.entries.map Prod.fst).Nodup)
    (hparents : ∀ e ∈ w.entries, e.1.length ≤ root.length + 1 ∨ (e.1.dropLast, .directory) ∈ w.entries) :
    IsTree w root where
  places := hplaces
  parents dir name e hdir hmem := by
    have hlength : root.length + 1 < (root ++ (dir ++ [name])).length := by
      have := List.length_pos_of_ne_nil hdir
      simp only [List.length_append, List.length_singleton]
      omega
    have hparent := (hparents _ hmem).resolve_left (not_le.mpr hlength)
    rwa [← List.append_assoc, List.dropLast_concat] at hparent

theorem enters_iff {path : String} :
    f.enters path name = true ↔ name ∉ alwaysExcluded ∧ Glob.selects f.excluded (path ++ "/") = false := by
  simp [Filter.enters]

theorem takes_iff {path : String} :
    f.takes path = true ↔ Glob.selects f.included path = true ∧ Glob.selects f.excluded path = false := by
  simp [Filter.takes]

/-! The scan of a directory. -/

theorem child_eq_some_iff {place : List String} {child : String × Entry} :
    (match place.getLast? with
      | some name => if place.dropLast == dir then some (name, e) else none
      | none => none) = some child ↔ place = dir ++ [child.1] ∧ e = child.2 := by
  induction place using List.reverseRecOn with
  | nil => simp
  | append_singleton place name =>
    obtain ⟨name', e'⟩ := child
    simp [and_assoc]

theorem mem_children_iff : (name, e) ∈ w.children dir ↔ (dir ++ [name], e) ∈ w.entries := by
  simp only [Workspace.children, List.mem_filterMap, Prod.exists]
  constructor
  · rintro ⟨place, e', hmem, h⟩
    obtain ⟨rfl, rfl⟩ := child_eq_some_iff.mp h
    exact hmem
  · intro h
    exact ⟨_, e, h, child_eq_some_iff.mpr ⟨rfl, rfl⟩⟩

theorem mem_scan_succ_iff : own ∈ scan w f root (depth + 1) dir ↔
    (∃ name, HoldsFile w (root ++ (dir ++ [name])) ∧ f.takes (pathOf (dir ++ [name])) = true ∧ own = dir ++ [name]) ∨
      ∃ name, (root ++ (dir ++ [name]), .directory) ∈ w.entries ∧ f.enters (pathOf (dir ++ [name])) name = true ∧
        own ∈ scan w f root depth (dir ++ [name]) := by
  simp only [scan, List.mem_flatMap, Prod.exists, mem_children_iff, List.append_assoc, HoldsFile]
  constructor
  · rintro ⟨name, e, hmem, h⟩
    cases e with
    | file data executable =>
      obtain ⟨htakes, rfl⟩ : f.takes (pathOf (dir ++ [name])) = true ∧ own = dir ++ [name] := by simpa using h
      exact .inl ⟨name, .inl ⟨data, executable, hmem⟩, htakes, rfl⟩
    | directory => exact .inr ⟨name, hmem, by simpa using h⟩
    | link target =>
      obtain ⟨⟨hdir, htakes⟩, rfl⟩ : (w.isDirectory ⟨"/", root ++ (dir ++ [name])⟩ = false ∧
          f.takes (pathOf (dir ++ [name])) = true) ∧ own = dir ++ [name] := by simpa using h
      exact .inl ⟨name, .inr ⟨target, hmem, hdir⟩, htakes, rfl⟩
  · rintro (⟨name, ⟨data, executable, hmem⟩ | ⟨target, hmem, hdir⟩, htakes, rfl⟩ | ⟨name, hmem, henters, h⟩)
    · exact ⟨name, .file data executable, hmem, by simp [htakes]⟩
    · exact ⟨name, .link target, hmem, by simp [htakes, hdir]⟩
    · exact ⟨name, .directory, hmem, by simp [henters, h]⟩

theorem finds_of_mem_scan (h : own ∈ scan w f root depth dir) : Finds w f root dir own := by
  induction depth generalizing dir with
  | zero => cases h
  | succ depth ih =>
    rcases mem_scan_succ_iff.mp h with ⟨name, hfile, htakes, rfl⟩ | ⟨name, hdir, henters, hscan⟩
    · exact .file hfile htakes
    · exact .directory hdir henters (ih hscan)

theorem Finds.length_lt (h : Finds w f root dir own) : dir.length < own.length := by
  induction h with
  | file => simp
  | directory _ _ _ ih =>
    rw [List.length_append, List.length_singleton] at ih
    omega

theorem Finds.mem_scan (h : Finds w f root dir own) (hdepth : own.length ≤ dir.length + depth) :
    own ∈ scan w f root depth dir := by
  -- A directory that is entered takes one level of the depth and is one component nearer to the file.
  induction h generalizing depth with
  | @file dir name hfile htakes =>
    cases depth with
    | zero => simp at hdepth
    | succ depth => exact mem_scan_succ_iff.mpr (.inl ⟨name, hfile, htakes, rfl⟩)
  | @directory dir own name hdir henters hfinds ih =>
    have hlt := hfinds.length_lt
    rw [List.length_append, List.length_singleton] at hlt
    cases depth with
    | zero => omega
    | succ depth =>
      refine mem_scan_succ_iff.mpr (.inr ⟨name, hdir, henters, ih ?_⟩)
      rw [List.length_append, List.length_singleton]
      omega

/-! What the scan comes to. -/

theorem IsTree.above {rest : List String} (h : IsTree w root) (hdir : dir ≠ []) (hrest : rest ≠ [])
    (hmem : (root ++ (dir ++ rest), e) ∈ w.entries) : (root ++ dir, .directory) ∈ w.entries := by
  induction rest using List.reverseRecOn generalizing e with
  | nil => exact absurd rfl hrest
  | append_singleton rest name ih =>
    rw [← List.append_assoc dir] at hmem
    have hparent := h.parents (dir ++ rest) name e (by simp [hdir]) hmem
    by_cases hnil : rest = []
    · simpa [hnil] using hparent
    · exact ih hnil hparent

theorem HoldsFile.exists_entry {place : List String} (h : HoldsFile w place) : ∃ e, (place, e) ∈ w.entries := by
  rcases h with ⟨data, executable, h⟩ | ⟨target, h, -⟩
  · exact ⟨_, h⟩
  · exact ⟨_, h⟩

theorem Finds.holdsFile (h : Finds w f root dir own) :
    HoldsFile w (root ++ own) ∧ f.takes (pathOf own) = true := by
  induction h with
  | file hfile htakes => exact ⟨hfile, htakes⟩
  | directory _ _ _ ih => exact ih

/-- Every directory between the one that is scanned and the file was entered. -/
theorem Finds.entered (h : Finds w f root dir own) :
    ∃ below, own = dir ++ below ∧ ∀ up name rest, below = up ++ name :: rest → rest ≠ [] →
      f.enters (pathOf (dir ++ (up ++ [name]))) name = true := by
  induction h with
  | @file dir name =>
    refine ⟨[name], rfl, fun up name' rest hbelow hrest => ?_⟩
    cases up with
    | nil => exact absurd (List.cons.inj hbelow).2.symm hrest
    | cons first up => simp at hbelow
  | @directory dir own name hdir henters hfinds ih =>
    obtain ⟨below, rfl, hentered⟩ := ih
    refine ⟨name :: below, by simp, fun up name' rest hbelow hrest => ?_⟩
    cases up with
    | nil =>
      obtain ⟨rfl, -⟩ := List.cons.inj hbelow
      exact henters
    | cons first up =>
      obtain ⟨rfl, rfl⟩ := List.cons.inj hbelow
      simpa using hentered up name' rest rfl hrest

theorem finds_of_entered (htree : IsTree w root) (hfile : HoldsFile w (root ++ (dir ++ below))) (hinside : below ≠ [])
    (htakes : f.takes (pathOf (dir ++ below)) = true)
    (hentered : ∀ up name rest, below = up ++ name :: rest → rest ≠ [] →
      f.enters (pathOf (dir ++ (up ++ [name]))) name = true) : Finds w f root dir (dir ++ below) := by
  -- The induction goes down from the directory; what it comes to next is an entry, as the file stands below it.
  induction below generalizing dir with
  | nil => exact absurd rfl hinside
  | cons name rest ih =>
    by_cases hrest : rest = []
    · subst hrest
      exact .file hfile htakes
    · have hsplit : dir ++ name :: rest = (dir ++ [name]) ++ rest := by simp
      rw [hsplit] at hfile htakes ⊢
      obtain ⟨e, hmem⟩ := hfile.exists_entry
      refine .directory (htree.above (by simp) hrest hmem) (hentered [] name rest rfl hrest) ?_
      refine ih hfile hrest htakes fun up name' rest' hbelow hrest' => ?_
      simpa using hentered (name :: up) name' rest' (congrArg (name :: ·) hbelow) hrest'

theorem finds_iff_chosen (htree : IsTree w root) : Finds w f root [] below ↔ Chosen w f root below := by
  constructor
  · intro h
    obtain ⟨hfile, htakes⟩ := h.holdsFile
    obtain ⟨below', rfl, hentered⟩ := h.entered
    obtain ⟨hincluded, hkept⟩ := takes_iff.mp htakes
    exact ⟨hfile, List.ne_nil_of_length_pos h.length_lt, hincluded, hkept, fun up name rest hbelow hrest =>
      enters_iff.mp (hentered up name rest hbelow hrest)⟩
  · intro h
    exact finds_of_entered htree h.file h.inside (takes_iff.mpr ⟨h.included, h.kept⟩) fun up name rest hbelow hrest =>
      enters_iff.mpr (h.entered up name rest hbelow hrest)

theorem length_le_depthOf {place : List String} (h : (place, e) ∈ w.entries) : place.length ≤ depthOf w := by
  suffices hfold : ∀ (entries : List (List String × Entry)) (n : Nat),
      n ≤ entries.foldl (fun n e => max n e.1.length) n ∧
        ∀ e ∈ entries, e.1.length ≤ entries.foldl (fun n e => max n e.1.length) n from (hfold w.entries 0).2 _ h
  intro entries
  induction entries with
  | nil => simp
  | cons e entries ih =>
    intro n
    obtain ⟨hstart, hall⟩ := ih (max n e.1.length)
    rw [List.foldl_cons, List.forall_mem_cons]
    exact ⟨by omega, by omega, hall⟩

theorem mem_scan_iff_chosen (htree : IsTree w root) :
    below ∈ scan w f root (depthOf w + 1) [] ↔ Chosen w f root below := by
  rw [← finds_iff_chosen htree]
  refine ⟨finds_of_mem_scan, fun h => h.mem_scan ?_⟩
  obtain ⟨e, hmem⟩ := h.holdsFile.1.exists_entry
  have hle := length_le_depthOf hmem
  rw [List.length_append] at hle
  rw [List.length_nil]
  omega

/-! Nothing is found twice. -/

theorem scan_succ : scan w f root (depth + 1) dir = (w.children (root ++ dir)).flatMap (scanChild w f root depth dir) := rfl

theorem prefix_of_mem_scanChild {child : String × Entry} (h : own ∈ scanChild w f root depth dir child) :
    dir ++ [child.1] <+: own := by
  obtain ⟨name, e⟩ := child
  cases e with
  | directory =>
    obtain ⟨below, rfl, -⟩ := (finds_of_mem_scan (List.mem_ite_nil_right.mp h).2).entered
    exact List.prefix_append _ below
  | file data executable =>
    obtain rfl := List.mem_singleton.mp (List.mem_ite_nil_right.mp h).2
    exact List.prefix_rfl
  | link target =>
    obtain rfl := List.mem_singleton.mp (List.mem_ite_nil_right.mp h).2
    exact List.prefix_rfl

theorem nodup_scanChild {child : String × Entry} (h : (scan w f root depth (dir ++ [child.1])).Nodup) :
    (scanChild w f root depth dir child).Nodup := by
  have hite {own : List (List String)} (hown : own.Nodup) (c : Bool) : (if c then own else []).Nodup := by
    cases c
    · exact List.nodup_nil
    · exact hown
  obtain ⟨name, e⟩ := child
  cases e with
  | directory => exact hite h _
  | file data executable => exact hite (List.nodup_singleton _) _
  | link target => exact hite (List.nodup_singleton _) _

theorem children_names (htree : IsTree w root) (dir : List String) :
    (w.children dir).Pairwise fun x y => x.1 ≠ y.1 := by
  refine List.pairwise_filterMap.mpr ((List.pairwise_map.mp htree.places).imp fun hne x hx y hy hname => hne ?_)
  rw [(child_eq_some_iff.mp hx).1, (child_eq_some_iff.mp hy).1, hname]

theorem nodup_scan (htree : IsTree w root) (depth : Nat) (dir : List String) : (scan w f root depth dir).Nodup := by
  induction depth generalizing dir with
  | zero => exact List.nodup_nil
  | succ depth ih =>
    rw [scan_succ, List.nodup_flatMap]
    refine ⟨fun child _ => nodup_scanChild (ih _), (children_names htree _).imp fun hne own hx hy => hne ?_⟩
    -- What is found at both entries would have both their paths in front.
    have hprefix := List.prefix_of_prefix_length_le (prefix_of_mem_scanChild hx) (prefix_of_mem_scanChild hy) (by simp)
    simpa using hprefix.eq_of_length (by simp)

/-! The order of paths. -/

theorem comesBefore_iff {a b : List String} : comesBefore a b = true ↔ a ≤ b := by
  fun_induction comesBefore a b with
  | case1 b => exact iff_of_true rfl (not_lt.mp (List.not_lt_nil b))
  | case2 a as => exact iff_of_false Bool.false_ne_true (not_le.mpr (List.nil_lt_cons a as))
  | case3 a as b bs h ih =>
    obtain rfl := beq_iff_eq.mp h
    rw [ih, ← not_lt, ← not_lt, List.cons_lt_cons_iff]
    simp only [lt_self_iff_false, true_and, false_or]
  | case4 a as b bs h =>
    have hne : a ≠ b := fun hab => h (beq_iff_eq.mpr hab)
    rw [decide_eq_true_iff, ← not_lt, List.cons_lt_cons_iff]
    simp only [hne.symm, false_and, or_false, not_lt]
    exact ⟨le_of_lt, fun hle => lt_of_le_of_ne hle hne⟩

/-- The components of the chosen files, in order. -/
def ordered (w : Workspace) (f : Filter) (root : List String) : List (List String) :=
  (scan w f root (depthOf w + 1) []).mergeSort comesBefore

theorem mem_ordered_iff (htree : IsTree w root) : below ∈ ordered w f root ↔ Chosen w f root below := by
  rw [ordered, List.mem_mergeSort, mem_scan_iff_chosen htree]

theorem ordered_increasing (htree : IsTree w root) (f : Filter) : (ordered w f root).SortedLT := by
  have hsorted : (ordered w f root).Pairwise (· ≤ ·) := by
    have htrans (a b c : List String) (hab : comesBefore a b = true) (hbc : comesBefore b c = true) :
        comesBefore a c = true :=
      comesBefore_iff.mpr (le_trans (comesBefore_iff.mp hab) (comesBefore_iff.mp hbc))
    have htotal (a b : List String) : (comesBefore a b || comesBefore b a) = true := by
      rw [Bool.or_eq_true, comesBefore_iff, comesBefore_iff]
      exact le_total a b
    exact (List.pairwise_mergeSort htrans htotal _).imp comesBefore_iff.mp
  have hnodup : (ordered w f root).Nodup := (List.mergeSort_perm _ _).nodup_iff.mpr (nodup_scan htree _ _)
  exact hsorted.sortedLE.sortedLT_of_nodup hnodup

/-! The order of the entries. -/

section perm

variable (hroot : w'.root = w.root) (hperm : w'.entries.Perm w.entries) (htree : IsTree w root)

include hperm htree in
theorem IsTree.of_perm : IsTree w' root where
  places := (hperm.map Prod.fst).nodup_iff.mpr htree.places
  parents dir name e hdir hmem := hperm.mem_iff.mpr (htree.parents dir name e hdir (hperm.mem_iff.mp hmem))

include hroot hperm htree in
theorem walk_of_perm (followLast : Bool) (links : Nat) (dir path : List String) :
    w'.walk followLast links dir path = w.walk followLast links dir path := by
  refine Workspace.walk_of_same (funext fun place => ?_) followLast links dir path
  rw [Workspace.entryAt, Workspace.entryAt, hroot,
    lookup_of_perm hperm ((hperm.map Prod.fst).nodup_iff.mpr htree.places) place]

include hroot hperm htree in
theorem locate_of_perm (p : Path) : w'.locate p = w.locate p := by
  rw [Workspace.locate, Workspace.locate, Workspace.absolute, Workspace.absolute, hroot,
    walk_of_perm hroot hperm htree]

include hroot hperm htree in
theorem chosen_of_perm : Chosen w' f root below ↔ Chosen w f root below := by
  have hdirectory (p : Path) : w'.isDirectory p = w.isDirectory p := by
    rw [Workspace.isDirectory, Workspace.isDirectory, Workspace.stat, Workspace.stat, locate_of_perm hroot hperm htree]
  have hfile : HoldsFile w' (root ++ below) ↔ HoldsFile w (root ++ below) := by
    simp only [HoldsFile, hperm.mem_iff, hdirectory]
  exact ⟨fun h => ⟨hfile.mp h.file, h.inside, h.included, h.kept, h.entered⟩,
    fun h => ⟨hfile.mpr h.file, h.inside, h.included, h.kept, h.entered⟩⟩

include hroot hperm htree in
theorem ordered_of_perm (f : Filter) : ordered w' f root = ordered w f root := by
  have htree' := htree.of_perm hperm
  refine (ordered_increasing htree' f).eq_of_mem_iff (ordered_increasing htree f) fun below => ?_
  rw [mem_ordered_iff htree', mem_ordered_iff htree, chosen_of_perm hroot hperm htree]

end perm

/-! The files of a selection. -/

theorem files_eq {p : Path} (hlocate : w.locate p = .ok ⟨root, some .directory⟩) (hfilter : Filter.ofSelection s = .ok f) :
    files w p s = .ok ((ordered w f root).map fun below => p.join ⟨"", below⟩) := by
  rw [files, Outcome.bind_of_ok hfilter, hlocate, ordered]

theorem exists_filter (h : s.Compiles) : ∃ f, Filter.ofSelection s = .ok f := by
  rcases Filter.ofSelection_cases s with ⟨-, hfilter⟩ | ⟨e, -, pattern, hmem, he⟩
  · exact hfilter
  · obtain ⟨glob, hglob⟩ := h pattern hmem
    cases hglob.symm.trans he

/-- Just the files are found that the selection takes and that no directory on the way to them hides, each once and in the
order of their paths; the order of the entries plays no part. -/
theorem files_exactly {p : Path} (htree : IsTree w root) (hlocate : w.locate p = .ok ⟨root, some .directory⟩)
    (hs : s.Compiles) :
    ∃ f found, Filter.ofSelection s = .ok f ∧ files w p s = .ok found ∧
      (∀ q, q ∈ found ↔ ∃ below, q = p.join ⟨"", below⟩ ∧ Chosen w f root below) ∧
      found.Pairwise (fun q r => q.parts < r.parts) ∧
      (∀ q ∈ found, ∀ name ∈ (q.parts.drop p.parts.length).dropLast, name ∉ alwaysExcluded) ∧
      ∀ w' : Workspace, w'.root = w.root → w'.entries.Perm w.entries → files w' p s = .ok found := by
  obtain ⟨f, hfilter⟩ := exists_filter hs
  have hmem (q : Path) : q ∈ (ordered w f root).map (fun below => p.join ⟨"", below⟩) ↔
      ∃ below, q = p.join ⟨"", below⟩ ∧ Chosen w f root below := by
    simp only [List.mem_map, mem_ordered_iff htree, eq_comm, and_comm]
  refine ⟨f, _, hfilter, files_eq hlocate hfilter, hmem, ?_, fun q hq name hname => ?_, fun w' hroot hperm => ?_⟩
  · exact List.pairwise_map.mpr ((ordered_increasing htree f).pairwise.imp fun h => List.append_left_lt h)
  · obtain ⟨below, rfl, hchosen⟩ := (hmem q).mp hq
    have hbelow : (p.join ⟨"", below⟩).parts.drop p.parts.length = below := List.drop_left
    rw [hbelow] at hname
    obtain ⟨dir, rest, hsplit⟩ := List.append_of_mem hname
    refine (hchosen.entered dir name (rest ++ [below.getLast hchosen.inside]) ?_ (by simp)).1
    rw [← List.cons_append, ← List.append_assoc, ← hsplit, List.dropLast_append_getLast]
  · rw [files_eq ((locate_of_perm hroot hperm htree p).trans hlocate) hfilter, ordered_of_perm hroot hperm htree]

/-- A project with its build output, and links to a directory and to a file. -/
def bundled : Workspace where
  root := ⟨"/", ["p"]⟩
  entries :=
    [(["p", "src"], .directory), (["p", "src", "b.js"], .file .empty false), (["p", "src", "dist"], .directory),
      (["p", "src", "dist", "a.js"], .file .empty false), (["p", "all"], .link "src"), (["p", "a.js"], .link "src/b.js")]

/-- The selection takes all, and yet nothing below the build output is found. -/
theorem files_exactly_bundled :
    IsTree bundled ["p"] ∧ ∃ found, files bundled ⟨"/", ["p"]⟩ ⟨["*"], []⟩ = .ok found ∧
      ⟨"/", ["p", "src", "b.js"]⟩ ∈ found ∧ ⟨"/", ["p", "src", "dist", "a.js"]⟩ ∉ found ∧
        files { bundled with entries := bundled.entries.reverse } ⟨"/", ["p"]⟩ ⟨["*"], []⟩ = .ok found := by
  have htree : IsTree bundled ["p"] := .of_entries (by decide) (by simp [bundled])
  have hlocate : bundled.locate ⟨"/", ["p"]⟩ = .ok ⟨["p"], some .directory⟩ := by cbv
  have hcompiles : FileSelection.Compiles ⟨["*"], []⟩ := by
    rintro pattern (_ | ⟨_, ⟨⟩⟩)
    exact ⟨_, rfl⟩
  obtain ⟨f, found, hfilter, hfiles, hmem, -, hhidden, hperm⟩ := files_exactly htree hlocate hcompiles
  obtain rfl : f = ⟨[.matcher false (Glob.somewhere Text.Pattern.anyChar).pattern], []⟩ := (Except.ok.inj hfilter).symm
  refine ⟨htree, found, hfiles, (hmem _).mpr ⟨["src", "b.js"], rfl, ?_⟩, fun h => ?_, hperm _ rfl (List.reverse_perm _)⟩
  · refine ⟨.inl ⟨.empty, false, by simp [bundled]⟩, by simp, by cbv, by cbv, fun dir name rest hbelow hrest => ?_⟩
    obtain ⟨rfl, rfl⟩ : dir = [] ∧ name = "src" := by
      cases dir with
      | nil => exact ⟨rfl, (List.cons.inj hbelow).1.symm⟩
      | cons first dir =>
        have hlength := congrArg List.length hbelow
        have hpos := List.length_pos_of_ne_nil hrest
        simp only [List.length_cons, List.length_nil, List.length_append] at hlength
        omega
    exact ⟨by decide, by cbv⟩
  · exact hhidden _ h "dist" (by simp) (by decide)

end QualityGate.Discovery
