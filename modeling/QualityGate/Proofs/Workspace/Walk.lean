import Mathlib
import QualityGate.Workspace.Tree

/-! Where a path leads depends on directories and links alone. Files that change,
come or go leave every walk as it was, save that what stands at its end may be
another file. -/

namespace QualityGate

namespace Workspace

/-- Nothing is found below or through what is neither a directory nor a link. -/
def Plain : Option Entry → Prop
  | none | some (.file ..) => True
  | some .directory | some (.link _) => False

@[simp]
theorem plain_none : Plain none := trivial

@[simp]
theorem plain_file (data : ByteArray) (executable : Bool) : Plain (some (.file data executable)) := trivial

@[simp]
theorem not_plain_directory : ¬ Plain (some .directory) := id

@[simp]
theorem not_plain_link (target : String) : ¬ Plain (some (.link target)) := id

theorem Plain.unlinked {e : Option Entry} (h : Plain e) (target : String) : e ≠ some (.link target) := by
  rintro rfl
  exact not_plain_link target h

theorem Plain.ne_directory {e : Option Entry} (h : Plain e) : e ≠ some .directory := by
  rintro rfl
  exact not_plain_directory h

/-! One step of a walk. -/

section step

variable {w : Workspace} {followLast : Bool} {links : Nat} {dir rest : List String} {name : String}

theorem walk_nil : w.walk followLast links dir [] = .ok ⟨dir, some .directory⟩ := by
  rw [walk]

theorem walk_up : w.walk followLast links dir (".." :: rest) = w.walk followLast links dir.dropLast rest := by
  rw [walk]

theorem walk_cons (hname : name ≠ "..") :
    w.walk followLast links dir (name :: rest) =
      match w.entryAt (dir ++ [name]) with
      | some .directory => w.walk followLast links (dir ++ [name]) rest
      | some (.link target) =>
        if rest.isEmpty && !followLast then .ok ⟨dir ++ [name], some (.link target)⟩
        else match links with
          | 0 => .error .tooManyLinks
          | links + 1 => w.walk followLast links (if (Path.ofText target).isAbsolute then [] else dir)
              ((Path.ofText target).parts ++ rest)
      | some entry => if rest.isEmpty then .ok ⟨dir ++ [name], some entry⟩ else .error .notDirectory
      | none => if rest.isEmpty then .ok ⟨dir ++ [name], none⟩ else .error .notFound :=
  walk.eq_3 w followLast links dir name rest hname

theorem walk_directory (hname : name ≠ "..") (h : w.entryAt (dir ++ [name]) = some .directory) :
    w.walk followLast links dir (name :: rest) = w.walk followLast links (dir ++ [name]) rest := by
  rw [walk_cons hname]
  simp only [h]

theorem walk_link {target : String} (hname : name ≠ "..") (h : w.entryAt (dir ++ [name]) = some (.link target))
    (hgo : (rest.isEmpty && !followLast) = false) :
    w.walk followLast (links + 1) dir (name :: rest) =
      w.walk followLast links (if (Path.ofText target).isAbsolute then [] else dir)
        ((Path.ofText target).parts ++ rest) := by
  rw [walk_cons hname]
  simp only [h, hgo, Bool.false_eq_true, if_false]

theorem walk_link_last {target : String} (hname : name ≠ "..")
    (h : w.entryAt (dir ++ [name]) = some (.link target)) :
    w.walk false links dir [name] = .ok ⟨dir ++ [name], some (.link target)⟩ := by
  rw [walk_cons hname]
  simp [h]

theorem walk_last (hname : name ≠ "..") (h : ∀ target, w.entryAt (dir ++ [name]) ≠ some (.link target)) :
    w.walk followLast links dir [name] = .ok ⟨dir ++ [name], w.entryAt (dir ++ [name])⟩ := by
  rw [walk_cons hname]
  cases he : w.entryAt (dir ++ [name]) with
  | none => simp
  | some e =>
    cases e with
    | file data executable => simp
    | directory => simp [walk_nil]
    | link target => exact absurd he (h target)

end step

/-- A walk goes by what stands where. -/
theorem walk_of_same {w w' : Workspace} (h : w'.entryAt = w.entryAt) (followLast : Bool) (links : Nat)
    (dir path : List String) : w'.walk followLast links dir path = w.walk followLast links dir path := by
  match path with
  | [] => rw [walk_nil, walk_nil]
  | name :: rest =>
    by_cases hname : name = ".."
    · rw [hname, walk_up, walk_up, walk_of_same h]
    rw [walk_cons hname, walk_cons hname, h]
    cases hat : w.entryAt (dir ++ [name]) with
    | none => rfl
    | some e =>
      cases e with
      | file data executable => rfl
      | directory => exact walk_of_same h followLast links _ rest
      | link target =>
        dsimp only
        split
        · rfl
        · cases links with
          | zero => rfl
          | succ links => exact walk_of_same h followLast links _ _
termination_by (links, path.length)

/-- A workspace and what becomes of it when nothing changes but some plain entries, which do not turn into links. -/
structure Agree (places : List (List String)) (w w' : Workspace) : Prop where
  root : w.root = w'.root
  outside : ∀ q ∉ places, w.entryAt q = w'.entryAt q
  plain : ∀ q ∈ places, Plain (w.entryAt q)
  unlinked : ∀ q ∈ places, ∀ target, w'.entryAt q ≠ some (.link target)

theorem Agree.refl (w : Workspace) : Agree [] w w := ⟨rfl, fun _ _ => rfl, nofun, nofun⟩

section agree

variable {places : List (List String)} {w w' : Workspace} {followLast : Bool} {links : Nat}
  {dir path place : List String} {e : Option Entry} {p : Path}

theorem Agree.entryAt_of_not_plain (h : Agree places w w') {q : List String} (hq : ¬ Plain (w.entryAt q)) :
    w'.entryAt q = w.entryAt q :=
  (h.outside q fun hmem => hq (h.plain q hmem)).symm

theorem Agree.stays_unlinked (h : Agree places w w') {q : List String}
    (hq : ∀ target, w.entryAt q ≠ some (.link target)) (target : String) : w'.entryAt q ≠ some (.link target) := by
  by_cases hmem : q ∈ places
  · exact h.unlinked q hmem target
  · rw [← h.outside q hmem]
    exact hq target

/-- What a walk finds at its end is a directory, or what stands there. -/
theorem walk_agree (h : Agree places w w') (hw : w.walk followLast links dir path = .ok ⟨place, e⟩) :
    e = some .directory ∧ w'.walk followLast links dir path = .ok ⟨place, e⟩ ∨
      w.entryAt place = e ∧ w'.walk followLast links dir path = .ok ⟨place, w'.entryAt place⟩ := by
  fun_induction walk w followLast links dir path with
  | case1 =>
    cases hw
    exact .inl ⟨rfl, walk_nil⟩
  | case2 links dir rest ih =>
    rw [walk_up]
    exact ih hw
  | case3 links dir name rest hname at' hat ih =>
    have hsame := h.entryAt_of_not_plain (q := at') (by simp [hat])
    rw [walk_directory hname (hsame.trans hat)]
    exact ih hw
  | case4 links dir name rest hname at' target hat hstop =>
    obtain ⟨hplace, rfl⟩ := Located.mk.inj (Except.ok.inj hw)
    subst hplace
    simp only [Bool.and_eq_true, List.isEmpty_iff, Bool.not_eq_true'] at hstop
    obtain ⟨rfl, rfl⟩ := hstop
    have hsame := h.entryAt_of_not_plain (q := at') (by simp [hat])
    refine .inr ⟨hat, ?_⟩
    rw [walk_link_last hname (hsame.trans hat), hsame, hat]
  | case5 => cases hw
  | case6 dir name rest hname at' target hat hgo links t ih =>
    have hsame := h.entryAt_of_not_plain (q := at') (by simp [hat])
    rw [walk_link hname (hsame.trans hat) (by simpa using hgo)]
    exact ih hw
  | case7 links dir name rest hname at' entry hdir hlink hat hrest =>
    obtain ⟨hplace, rfl⟩ := Located.mk.inj (Except.ok.inj hw)
    subst hplace
    obtain rfl := List.isEmpty_iff.mp hrest
    have hplain : Plain (w.entryAt at') := by
      rw [hat]
      cases entry <;> simp_all
    exact .inr ⟨hat, walk_last hname (h.stays_unlinked hplain.unlinked)⟩
  | case8 => cases hw
  | case9 links dir name rest hname at' hat hrest =>
    obtain ⟨hplace, rfl⟩ := Located.mk.inj (Except.ok.inj hw)
    subst hplace
    obtain rfl := List.isEmpty_iff.mp hrest
    have hplain : Plain (w.entryAt at') := by
      rw [hat]
      exact plain_none
    exact .inr ⟨hat, walk_last hname (h.stays_unlinked hplain.unlinked)⟩
  | case10 => cases hw

theorem locate_agree (h : Agree places w w') (hw : w.locate p = .ok ⟨place, e⟩) :
    e = some .directory ∧ w'.locate p = .ok ⟨place, e⟩ ∨
      w.entryAt place = e ∧ w'.locate p = .ok ⟨place, w'.entryAt place⟩ := by
  have habsolute : w'.absolute p = w.absolute p := by rw [absolute, absolute, h.root]
  rw [locate, habsolute]
  exact walk_agree h hw

theorem resolve_go_link {name target : String} {rest : List String} (hname : name ≠ "..")
    (h : w.entryAt (dir ++ [name]) = some (.link target)) (links : Nat) :
    resolve.go w (links + 1) dir (name :: rest) = resolve.go w links
      (if (Path.ofText target).isAbsolute then [] else dir) ((Path.ofText target).parts ++ rest) := by
  rw [resolve.go]
  · simp only [h]
  · exact hname

theorem resolve_go_unlinked {name : String} {rest : List String} (hname : name ≠ "..")
    (h : ∀ target, w.entryAt (dir ++ [name]) ≠ some (.link target)) (links : Nat) :
    resolve.go w links dir (name :: rest) = resolve.go w links (dir ++ [name]) rest := by
  rw [resolve.go]
  · cases hat : w.entryAt (dir ++ [name]) with
    | none => rfl
    | some e =>
      cases e with
      | link target => exact absurd hat (h target)
      | file data executable => rfl
      | directory => rfl
  · exact hname

theorem resolve_go_agree (h : Agree places w w') (links : Nat) (dir path : List String) :
    resolve.go w' links dir path = resolve.go w links dir path := by
  cases path with
  | nil => rw [resolve.go, resolve.go]
  | cons name rest =>
    by_cases hname : name = ".."
    · rw [hname, resolve.go, resolve.go, resolve_go_agree h]
    by_cases hlink : ∃ target, w.entryAt (dir ++ [name]) = some (.link target)
    · obtain ⟨target, hat⟩ := hlink
      have hat' := (h.entryAt_of_not_plain (q := dir ++ [name]) (by simp [hat])).trans hat
      cases links with
      | zero =>
        rw [resolve.go, resolve.go]
        · simp only [hat, hat']
        all_goals exact hname
      | succ links => rw [resolve_go_link hname hat, resolve_go_link hname hat', resolve_go_agree h]
    · have hunlinked (target : String) : w.entryAt (dir ++ [name]) ≠ some (.link target) :=
        fun hat => hlink ⟨target, hat⟩
      rw [resolve_go_unlinked hname hunlinked, resolve_go_unlinked hname (h.stays_unlinked hunlinked),
        resolve_go_agree h]
termination_by (links, path.length)

theorem resolve_agree (h : Agree places w w') (p : Path) : w'.resolve p = w.resolve p := by
  rw [resolve, resolve, absolute, absolute, h.root]
  exact resolve_go_agree h _ _ _

theorem isDirectory_iff : w.isDirectory p = true ↔ ∃ place, w.locate p = .ok ⟨place, some .directory⟩ := by
  simp only [isDirectory, stat]
  split
  · rename_i hstat
    split at hstat <;> simp_all
  · rename_i hstat
    simp only [Bool.false_eq_true, false_iff, not_exists]
    intro place hlocate
    simp [hlocate] at hstat

theorem isFile_iff : w.isFile p = true ↔
    ∃ place data executable, w.locate p = .ok ⟨place, some (.file data executable)⟩ := by
  simp only [isFile, stat]
  split
  · rename_i hstat
    split at hstat <;> simp_all
  · rename_i hstat
    simp only [Bool.false_eq_true, false_iff, not_exists]
    intro place data executable hlocate
    simp [hlocate] at hstat

theorem isDirectory_agree (h : Agree places w w') (hp : w.isDirectory p = true) : w'.isDirectory p = true := by
  obtain ⟨place, hlocate⟩ := isDirectory_iff.mp hp
  refine isDirectory_iff.mpr ⟨place, ?_⟩
  rcases locate_agree h hlocate with ⟨-, hsame⟩ | ⟨hentry, hfound⟩
  · exact hsame
  · rw [hfound, h.entryAt_of_not_plain (by simp [hentry]), hentry]

/-- A path leads to none of the places. -/
def Misses (places : List (List String)) (w : Workspace) (p : Path) : Prop :=
  ∀ place e, w.locate p = .ok ⟨place, e⟩ → place ∉ places

/-- The same entry is found at a path, or none in both. -/
def SameAt (w w' : Workspace) (p : Path) : Prop :=
  w'.stat p = w.stat p ∨ (∃ f, w.stat p = .error f) ∧ ∃ f, w'.stat p = .error f

theorem sameAt_agree (h : Agree places w w') (h' : Agree places w' w) (hp : Misses places w p) : SameAt w w' p := by
  cases hlocate : w.locate p with
  | ok l =>
    obtain ⟨place, e⟩ := l
    refine .inl ?_
    rcases locate_agree h hlocate with ⟨-, hsame⟩ | ⟨hentry, hfound⟩
    · rw [stat, stat, hsame, hlocate]
    · rw [stat, stat, hfound, hlocate, ← h.outside place (hp place e hlocate), hentry]
  | error f =>
    have hstat : w.stat p = .error f := by rw [stat, hlocate]
    cases hlocate' : w'.locate p with
    | ok l =>
      obtain ⟨place, e⟩ := l
      rcases locate_agree h' hlocate' with ⟨-, hsame⟩ | ⟨-, hfound⟩
      · cases hlocate.symm.trans hsame
      · cases hlocate.symm.trans hfound
    | error f' => exact .inr ⟨⟨f, hstat⟩, f', by rw [stat, hlocate']⟩

theorem SameAt.contains (h : SameAt w w' p) : w'.contains p = w.contains p := by
  rw [Workspace.contains, Workspace.contains]
  rcases h with h | ⟨⟨f, hf⟩, f', hf'⟩
  · rw [h]
  · rw [hf, hf']
    rfl

theorem isDirectory_congr (h : Agree places w w') (h' : Agree places w' w) {q : List String} :
    w'.entryAt q = some .directory ↔ w.entryAt q = some .directory := by
  constructor
  · intro hq
    rw [h'.entryAt_of_not_plain (by simp [hq]), hq]
  · intro hq
    rw [h.entryAt_of_not_plain (by simp [hq]), hq]

end agree

theorem entryAt_of_locate {w : Workspace} {p : Path} {place : List String} {e : Option Entry}
    (h : w.locate p = .ok ⟨place, e⟩) (he : e ≠ some .directory) : w.entryAt place = e := by
  rcases locate_agree (Agree.refl w) h with ⟨hdir, -⟩ | ⟨hentry, -⟩
  · exact absurd hdir he
  · exact hentry

/-- Where a path leads somewhere, it does so up to its last component, which may be a link. -/
theorem walk_to_link {w : Workspace} {links : Nat} {dir path place : List String} {e : Option Entry}
    (h : w.walk true links dir path = .ok ⟨place, e⟩) :
    w.walk false links dir path = .ok ⟨place, e⟩ ∨
      ∃ q target, w.walk false links dir path = .ok ⟨q, some (.link target)⟩ := by
  fun_induction walk w true links dir path with
  | case1 => exact .inl (walk_nil.trans h)
  | case2 links dir rest ih =>
    rw [walk_up]
    exact ih h
  | case3 links dir name rest hname at' hat ih =>
    rw [walk_directory hname hat]
    exact ih h
  | case4 links dir name rest hname at' target hat hstop => simp at hstop
  | case5 => cases h
  | case6 dir name rest hname at' target hat hgo links t ih =>
    by_cases hrest : rest = []
    · subst hrest
      exact .inr ⟨_, target, walk_link_last hname hat⟩
    · rw [walk_link hname hat (by simp [hrest])]
      exact ih h
  | case7 links dir name rest hname at' entry hdir hlink hat hrest =>
    obtain rfl := List.isEmpty_iff.mp hrest
    refine .inl ?_
    rw [walk_last hname fun target he => hlink target (Option.some.inj (hat.symm.trans he)), hat, h]
  | case8 => cases h
  | case9 links dir name rest hname at' hat hrest =>
    obtain rfl := List.isEmpty_iff.mp hrest
    refine .inl ?_
    rw [walk_last hname (fun target he => nomatch hat.symm.trans he), hat, h]
  | case10 => cases h

/-- A path that goes on from a directory is walked on from there. -/
theorem walk_on {w : Workspace} {links : Nat} {dir path place : List String}
    (h : w.walk true links dir path = .ok ⟨place, some .directory⟩) :
    ∃ left, ∀ followLast rest, rest ≠ [] →
      w.walk followLast links dir (path ++ rest) = w.walk followLast left place rest := by
  fun_induction walk w true links dir path with
  | case1 links dir =>
    cases h
    exact ⟨links, fun _ _ _ => rfl⟩
  | case2 links dir path ih =>
    obtain ⟨left, hon⟩ := ih h
    refine ⟨left, fun followLast rest hrest => ?_⟩
    rw [List.cons_append, walk_up]
    exact hon followLast rest hrest
  | case3 links dir first path hfirst at' hat ih =>
    obtain ⟨left, hon⟩ := ih h
    refine ⟨left, fun followLast rest hrest => ?_⟩
    rw [List.cons_append, walk_directory hfirst hat]
    exact hon followLast rest hrest
  | case4 links dir first path hfirst at' target hat hstop => simp at hstop
  | case5 => cases h
  | case6 dir first path hfirst at' target hat hgo links t ih =>
    obtain ⟨left, hon⟩ := ih h
    refine ⟨left, fun followLast rest hrest => ?_⟩
    rw [List.cons_append, walk_link hfirst hat (by simp [hrest]), ← List.append_assoc]
    exact hon followLast rest hrest
  | case7 links dir first path hfirst at' entry hdir =>
    exact absurd (Option.some.inj (Located.mk.inj (Except.ok.inj h)).2) hdir
  | case8 => cases h
  | case9 => simp at h
  | case10 => cases h

/-- What stands directly in a directory is found behind every path to the directory. -/
theorem walk_child {w : Workspace} {links : Nat} {dir path place : List String} {name : String} (followLast : Bool)
    (hname : name ≠ "..") (hlink : ∀ target, w.entryAt (place ++ [name]) ≠ some (.link target))
    (h : w.walk true links dir path = .ok ⟨place, some .directory⟩) :
    w.walk followLast links dir (path ++ [name]) = .ok ⟨place ++ [name], w.entryAt (place ++ [name])⟩ := by
  obtain ⟨left, hon⟩ := walk_on h
  rw [hon followLast [name] (List.cons_ne_nil _ _)]
  exact walk_last hname hlink

/-- Below a place that is free nothing is found. -/
theorem walk_child_of_free {w : Workspace} {links : Nat} {dir path place : List String} (name : String)
    (followLast : Bool) (h : w.walk true links dir path = .ok ⟨place, none⟩) :
    w.walk followLast links dir (path ++ [name]) = .error .notFound := by
  fun_induction walk w true links dir path with
  | case1 => simp at h
  | case2 links dir rest ih =>
    rw [List.cons_append, walk_up]
    exact ih h
  | case3 links dir first rest hfirst at' hat ih =>
    rw [List.cons_append, walk_directory hfirst hat]
    exact ih h
  | case4 links dir first rest hfirst at' target hat hstop => simp at hstop
  | case5 => cases h
  | case6 dir first rest hfirst at' target hat hgo links t ih =>
    rw [List.cons_append, walk_link hfirst hat (by simp), ← List.append_assoc]
    exact ih h
  | case7 => simp at h
  | case8 => cases h
  | case9 links dir first rest hfirst at' hat hrest =>
    rw [List.cons_append, walk_cons hfirst]
    simp [show w.entryAt (dir ++ [first]) = none from hat]
  | case10 => cases h

end Workspace

end QualityGate
