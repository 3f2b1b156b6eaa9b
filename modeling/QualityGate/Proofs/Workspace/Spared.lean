import Mathlib
import QualityGate.Proofs.Run
import QualityGate.Proofs.Workspace.Change
import QualityGate.Proofs.Workspace.Edit

/-! Changes that spare a file. Where no link leads to a file of its name, what is
written, moved or removed under other names is neither the file nor a directory
above it. -/

namespace QualityGate.Workspace

section names

variable {w : Workspace} {followLast : Bool} {links : Nat} {dir path place : List String} {e : Option Entry}

theorem mem_entries_of_link {q : List String} {target : String} (h : w.entryAt q = some (.link target)) :
    (q, .link target) ∈ w.entries := by
  rw [entryAt] at h
  split at h
  · cases h
  · obtain ⟨before, after, he, -⟩ := List.lookup_eq_some_iff.mp h
    simp [he]

/-- Where the last component is not followed if it is a link, what is found is named by it. -/
theorem getLast?_of_walk {name : String} (hname : name ≠ "..") (hlast : path.getLast? = some name)
    (h : w.walk false links dir path = .ok ⟨place, e⟩) : place.getLast? = some name := by
  have htail {first : String} {rest : List String} (hrest : rest ≠ []) (hlast : (first :: rest).getLast? = some name) :
      rest.getLast? = some name := by rwa [List.getLast?_cons_of_ne_nil hrest] at hlast
  have hsingle {first : String} {rest : List String} (hrest : rest = []) (hlast : (first :: rest).getLast? = some name) :
      first = name := by
    subst hrest
    exact Option.some.inj hlast
  fun_induction walk w false links dir path with
  | case1 => cases hlast
  | case2 links dir rest ih =>
    by_cases hrest : rest = []
    · exact absurd (hsingle hrest hlast).symm hname
    · exact ih (htail hrest hlast) h
  | case3 links dir first rest hfirst at' hat ih =>
    by_cases hrest : rest = []
    · obtain rfl := hsingle hrest hlast
      subst hrest
      rw [walk_nil] at h
      rw [← (Located.mk.inj (Except.ok.inj h)).1]
      exact List.getLast?_concat
    · exact ih (htail hrest hlast) h
  | case4 links dir first rest hfirst at' target hat hstop =>
    obtain rfl := hsingle (by simpa using hstop) hlast
    rw [← (Located.mk.inj (Except.ok.inj h)).1]
    exact List.getLast?_concat
  | case5 => cases h
  | case6 dir first rest hfirst at' target hat hgo links t ih =>
    have hrest : rest ≠ [] := by simpa using hgo
    exact ih (by rw [List.getLast?_append_of_ne_nil _ hrest, htail hrest hlast]) h
  | case7 links dir first rest hfirst at' entry hdir hlink hat hrest =>
    obtain rfl := hsingle (List.isEmpty_iff.mp hrest) hlast
    rw [← (Located.mk.inj (Except.ok.inj h)).1]
    exact List.getLast?_concat
  | case8 => cases h
  | case9 links dir first rest hfirst at' hat hrest =>
    obtain rfl := hsingle (List.isEmpty_iff.mp hrest) hlast
    rw [← (Located.mk.inj (Except.ok.inj h)).1]
    exact List.getLast?_concat
  | case10 => cases h

/-- What is found at the end of a path, if it is no directory, is named by the path or by a link. -/
theorem getLast?_of_walk_follow (he : e ≠ some .directory) (h : w.walk true links dir path = .ok ⟨place, e⟩) :
    place.getLast? = path.getLast? ∨
      ∃ x ∈ w.entries, ∃ target, x.2 = .link target ∧ place.getLast? = (Path.ofText target).parts.getLast? := by
  fun_induction walk w true links dir path with
  | case1 =>
    cases h
    exact absurd rfl he
  | case2 links dir rest ih =>
    by_cases hrest : rest = []
    · rw [hrest, walk_nil] at h
      exact absurd (Located.mk.inj (Except.ok.inj h)).2.symm he
    · rw [List.getLast?_cons_of_ne_nil hrest]
      exact ih h
  | case3 links dir first rest hfirst at' hat ih =>
    by_cases hrest : rest = []
    · rw [hrest, walk_nil] at h
      exact absurd (Located.mk.inj (Except.ok.inj h)).2.symm he
    · rw [List.getLast?_cons_of_ne_nil hrest]
      exact ih h
  | case4 links dir first rest hfirst at' target hat hstop => simp at hstop
  | case5 => cases h
  | case6 dir first rest hfirst at' target hat hgo links t ih =>
    by_cases hrest : rest = []
    · rcases ih h with hlast | hlink
      · exact .inr ⟨_, mem_entries_of_link hat, target, rfl, by simpa [hrest, t] using hlast⟩
      · exact .inr hlink
    · rw [List.getLast?_cons_of_ne_nil hrest, ← List.getLast?_append_of_ne_nil t.parts hrest]
      exact ih h
  | case7 links dir first rest hfirst at' entry hdir hlink hat hrest =>
    obtain rfl := List.isEmpty_iff.mp hrest
    refine .inl ?_
    rw [← (Located.mk.inj (Except.ok.inj h)).1]
    exact List.getLast?_concat
  | case8 => cases h
  | case9 links dir first rest hfirst at' hat hrest =>
    obtain rfl := List.isEmpty_iff.mp hrest
    refine .inl ?_
    rw [← (Located.mk.inj (Except.ok.inj h)).1]
    exact List.getLast?_concat
  | case10 => cases h

end names

/-! A path with no link on it leads where it says. -/

section unlinked

variable {w : Workspace} {followLast : Bool} {links : Nat} {dir path place : List String} {e : Option Entry}

/-- There is no link at a place or above it. -/
def Unlinked (w : Workspace) (place : List String) : Prop :=
  ∀ q, q <+: place → ∀ target, w.entryAt q ≠ some (.link target)

/-- All that is above a place is a directory. -/
def Reached (w : Workspace) (place : List String) : Prop :=
  ∀ q, q <+: place → q ≠ place → w.entryAt q = some .directory

theorem walk_unlinked (hdots : ".." ∉ path) (hunlinked : Unlinked w (dir ++ path))
    (h : w.walk followLast links dir path = .ok ⟨place, e⟩) :
    place = dir ++ path ∧ (path ≠ [] → e = w.entryAt place) ∧
      ∀ rest, rest <+: path → rest ≠ [] → rest ≠ path → w.entryAt (dir ++ rest) = some .directory := by
  induction path generalizing dir with
  | nil =>
    rw [walk_nil] at h
    cases h
    exact ⟨by simp, fun h => absurd rfl h, fun rest hrest hne => absurd (List.prefix_nil.mp hrest) hne⟩
  | cons name path ih =>
    obtain ⟨hname, hdots⟩ := List.ne_and_not_mem_of_not_mem_cons hdots
    have happend : dir ++ name :: path = dir ++ [name] ++ path := by simp
    have hnolink : ∀ target, w.entryAt (dir ++ [name]) ≠ some (.link target) :=
      hunlinked _ (by rw [happend]; exact List.prefix_append _ _)
    by_cases hpath : path = []
    · subst hpath
      rw [walk_last (Ne.symm hname) hnolink] at h
      cases h
      refine ⟨rfl, fun _ => rfl, fun rest hrest hnonempty hne => ?_⟩
      rcases List.prefix_cons_iff.mp hrest with rfl | ⟨t, rfl, ht⟩
      · exact absurd rfl hnonempty
      · exact absurd (by rw [List.prefix_nil.mp ht]) hne
    · cases hat : w.entryAt (dir ++ [name]) with
      | none =>
        rw [walk_cons (Ne.symm hname)] at h
        simp [hat, hpath] at h
      | some entry =>
        cases entry with
        | directory =>
          rw [walk_directory (Ne.symm hname) hat] at h
          obtain ⟨hplace, he, habove⟩ := ih hdots (happend ▸ hunlinked) h
          refine ⟨by rw [happend, hplace], fun _ => he hpath, fun rest hrest hnonempty hne => ?_⟩
          rcases List.prefix_cons_iff.mp hrest with rfl | ⟨t, rfl, ht⟩
          · exact absurd rfl hnonempty
          · by_cases htail : t = []
            · rw [htail, hat]
            · rw [← habove t ht htail fun he => hne (by rw [he])]
              simp
        | file data executable =>
          rw [walk_cons (Ne.symm hname)] at h
          simp [hat, hpath] at h
        | link target => exact absurd hat (hnolink target)

/-- The last component may name a link that is not followed. -/
theorem walk_unlinked_child {name : String} (hdots : ".." ∉ path) (hname : name ≠ "..") (hunlinked : Unlinked w (dir ++ path))
    (h : w.walk false links dir (path ++ [name]) = .ok ⟨place, e⟩) : place = dir ++ path ++ [name] := by
  induction path generalizing dir with
  | nil =>
    rw [List.nil_append] at h
    rw [List.append_nil]
    by_cases hlink : ∃ target, w.entryAt (dir ++ [name]) = some (.link target)
    · obtain ⟨target, hlink⟩ := hlink
      rw [walk_link_last hname hlink] at h
      cases h
      rfl
    · rw [walk_last hname fun target htarget => hlink ⟨target, htarget⟩] at h
      cases h
      rfl
  | cons first path ih =>
    obtain ⟨hfirst, hdots⟩ := List.ne_and_not_mem_of_not_mem_cons hdots
    have happend : dir ++ first :: path = dir ++ [first] ++ path := by simp
    have hnolink : ∀ target, w.entryAt (dir ++ [first]) ≠ some (.link target) :=
      hunlinked _ (by rw [happend]; exact List.prefix_append _ _)
    rw [List.cons_append] at h
    by_cases hat : w.entryAt (dir ++ [first]) = some .directory
    · rw [walk_directory (Ne.symm hfirst) hat] at h
      rw [happend]
      exact ih hdots (happend ▸ hunlinked) h
    · rw [walk_cons (Ne.symm hfirst)] at h
      cases he : w.entryAt (dir ++ [first]) with
      | none => simp [he] at h
      | some entry =>
        cases entry with
        | directory => exact absurd he hat
        | link target => exact absurd he (hnolink target)
        | file data executable => simp [he] at h

/-- Below directories a path leads to its place. -/
theorem walk_reached (hdots : ".." ∉ path) (hpath : path ≠ []) (hreached : Reached w (dir ++ path))
    (hlast : ∀ target, w.entryAt (dir ++ path) ≠ some (.link target)) :
    w.walk followLast links dir path = .ok ⟨dir ++ path, w.entryAt (dir ++ path)⟩ := by
  induction path generalizing dir with
  | nil => exact absurd rfl hpath
  | cons name path ih =>
    obtain ⟨hname, hdots⟩ := List.ne_and_not_mem_of_not_mem_cons hdots
    have happend : dir ++ name :: path = dir ++ [name] ++ path := by simp
    by_cases hnil : path = []
    · subst hnil
      exact walk_last (Ne.symm hname) hlast
    · have hat : w.entryAt (dir ++ [name]) = some .directory :=
        hreached _ (by rw [happend]; exact List.prefix_append _ _) (by simpa using Ne.symm hnil)
      rw [walk_directory (Ne.symm hname) hat, happend]
      exact ih hdots hnil (happend ▸ hreached) (happend ▸ hlast)

/-- A path along directories leads to the last of them. -/
theorem walk_directories (hdots : ".." ∉ path)
    (h : ∀ rest, rest <+: path → rest ≠ [] → w.entryAt (dir ++ rest) = some .directory) :
    w.walk followLast links dir path = .ok ⟨dir ++ path, some .directory⟩ := by
  induction path generalizing dir with
  | nil => rw [walk_nil, List.append_nil]
  | cons name path ih =>
    obtain ⟨hname, hdots⟩ := List.ne_and_not_mem_of_not_mem_cons hdots
    have hat : w.entryAt (dir ++ [name]) = some .directory :=
      h [name] (List.prefix_cons_iff.mpr (.inr ⟨[], rfl, List.nil_prefix⟩)) (List.cons_ne_nil _ _)
    rw [walk_directory (Ne.symm hname) hat, ih hdots fun rest hrest _ => ?_]
    · simp
    · simpa using h (name :: rest) (List.prefix_cons_iff.mpr (.inr ⟨rest, rfl, hrest⟩)) (List.cons_ne_nil _ _)

end unlinked

/-- A change that leaves the directories on the way to some places where they are, and makes no links. -/
structure KeepsWays (ways : List (List String)) (w w' : Workspace) : Prop where
  root : w'.root = w.root
  above : ∀ p ∈ ways, ∀ q, q <+: p → w.entryAt q = some .directory → w'.entryAt q = some .directory
  unlinked : ∀ p ∈ ways, ∀ q, q <+: p → ∀ target, w'.entryAt q = some (.link target) → w.entryAt q = some (.link target)
  links : ∀ x ∈ w'.entries, ∀ target, x.2 = .link target → ∃ y ∈ w.entries, y.2 = .link target

/-- A change that also leaves what stands at a place. -/
structure Spares (ways : List (List String)) (place : List String) (w w' : Workspace) : Prop extends
    KeepsWays ways w w' where
  file : w'.entryAt place = w.entryAt place

/-- No link leads to a file of the name. -/
def Unaimed (name : String) (w : Workspace) : Prop :=
  ∀ x ∈ w.entries, ∀ target, x.2 = .link target → (Path.ofText target).parts.getLast? ≠ some name

section way

variable {w w' v : Workspace} {ways : List (List String)} {place q : List String} {e : Entry} {name : String}

theorem KeepsWays.refl (ways : List (List String)) (w : Workspace) : KeepsWays ways w w :=
  ⟨rfl, fun _ _ _ _ => id, fun _ _ _ _ _ => id, fun x hx _ h => ⟨x, hx, h⟩⟩

theorem KeepsWays.trans (h : KeepsWays ways w v) (h' : KeepsWays ways v w') : KeepsWays ways w w' where
  root := h'.root.trans h.root
  above p hp q hq hdir := h'.above p hp q hq (h.above p hp q hq hdir)
  unlinked p hp q hq target hlink := h.unlinked p hp q hq target (h'.unlinked p hp q hq target hlink)
  links x hx target hlink := by
    obtain ⟨y, hy, hlink'⟩ := h'.links x hx target hlink
    exact h.links y hy target hlink'

theorem KeepsWays.unaimed (h : KeepsWays ways w w') (hw : Unaimed name w) : Unaimed name w' := by
  intro x hx target hlink
  obtain ⟨y, hy, hlink'⟩ := h.links x hx target hlink
  exact hw y hy target hlink'

theorem KeepsWays.unlinked_place (h : KeepsWays ways w w') (hplace : place ∈ ways) (hw : Unlinked w place) :
    Unlinked w' place := fun q hq target hlink => hw q hq target (h.unlinked place hplace q hq target hlink)

theorem KeepsWays.reached (h : KeepsWays ways w w') (hplace : place ∈ ways) (hw : Reached w place) : Reached w' place :=
  fun q hq hne => h.above place hplace q hq (hw q hq hne)

theorem keepsWays_put (hplain : w.entryAt q ≠ some .directory) (he : ∀ target, e ≠ .link target) :
    KeepsWays ways w (w.put q e) where
  root := rfl
  above _ _ q' _ hdir := by
    rw [entryAt_put hplain, Function.update_of_ne fun h => hplain (by rw [← h, hdir]), hdir]
  unlinked _ _ q' _ target hlink := by
    by_cases hself : q' = q
    · rw [hself, entryAt_put hplain, Function.update_self] at hlink
      exact absurd (Option.some.inj hlink) (he target)
    · rwa [entryAt_put hplain, Function.update_of_ne hself] at hlink
  links x hx target hlink := by
    rcases mem_insertKey w.entries e hx with ⟨hx, -⟩ | rfl
    · exact ⟨x, hx, hlink⟩
    · exact absurd hlink (he target)

theorem keepsWays_drop (hplain : w.entryAt q ≠ some .directory) : KeepsWays ways w (w.drop q) where
  root := rfl
  above _ _ q' _ hdir := by
    rw [entryAt_drop hplain, Function.update_of_ne fun h => hplain (by rw [← h, hdir]), hdir]
  unlinked _ _ q' _ target hlink := by
    by_cases hself : q' = q
    · rw [hself, entryAt_drop hplain, Function.update_self] at hlink
      cases hlink
    · rwa [entryAt_drop hplain, Function.update_of_ne hself] at hlink
  links x hx target hlink := ⟨x, (List.mem_filter.mp hx).1, hlink⟩

end way

section spares

variable {w w' v : Workspace} {ways : List (List String)} {place q source target : List String} {e : Entry} {p : Path}
  {name : String}

theorem Spares.refl (ways : List (List String)) (place : List String) (w : Workspace) : Spares ways place w w :=
  ⟨.refl ways w, rfl⟩

theorem Spares.trans (h : Spares ways place w v) (h' : Spares ways place v w') : Spares ways place w w' :=
  ⟨h.toKeepsWays.trans h'.toKeepsWays, h'.file.trans h.file⟩

theorem spares_put (hplain : w.entryAt q ≠ some .directory) (he : ∀ target, e ≠ .link target) (hq : q ≠ place) :
    Spares ways place w (w.put q e) :=
  ⟨keepsWays_put hplain he, by rw [entryAt_put hplain, Function.update_of_ne hq.symm]⟩

theorem spares_drop (hplain : w.entryAt q ≠ some .directory) (hq : q ≠ place) : Spares ways place w (w.drop q) :=
  ⟨keepsWays_drop hplain, by rw [entryAt_drop hplain, Function.update_of_ne hq.symm]⟩

theorem spares_rename (hsource : ∀ p ∈ ways, ¬ source <+: p) (htarget : ∀ p ∈ ways, ¬ target <+: p) (hplace : place ∈ ways) :
    Spares ways place w
      { w.drop target with entries := (w.drop target).entries.map fun x => (rebase source target x.1, x.2) } := by
  have hsame (p : List String) (hp : p ∈ ways) (q : List String) (hq : q <+: p) :
      ({ w.drop target with entries := (w.drop target).entries.map fun x => (rebase source target x.1, x.2) } :
        Workspace).entryAt q = w.entryAt q := by
    have hnot : ¬ source <+: q := fun h => hsource p hp (h.trans hq)
    have hne : q ≠ target := fun h => htarget p hp (h ▸ hq)
    have hlookup : ((w.drop target).entries.map fun x => (rebase source target x.1, x.2)).lookup q =
        (w.drop target).entries.lookup q := by
      refine lookup_map_key fun x _ => ?_
      by_cases hunder : source <+: x.1
      · obtain ⟨rest, hrest⟩ := hunder
        rw [← hrest, rebase_append]
        refine iff_of_false (fun h => ?_) fun h => hnot (h ▸ List.prefix_append source rest)
        exact htarget p hp ((List.prefix_append target rest).trans (h ▸ hq))
      · rw [rebase_of_not_under target hunder]
    simp only [entryAt, hlookup]
    rw [show (w.drop target).entries.lookup q = w.entries.lookup q from lookup_filter_of_ne w.entries hne]
    rfl
  refine ⟨⟨rfl, fun p hp q hq hdir => (hsame p hp q hq).trans hdir,
    fun p hp q hq target hlink => (hsame p hp q hq).symm.trans hlink, fun x hx target hlink => ?_⟩,
    hsame place hplace place (List.prefix_refl place)⟩
  obtain ⟨y, hy, rfl⟩ := List.mem_map.mp hx
  exact ⟨y, (List.mem_filter.mp hy).1, hlink⟩

/-! What is done under another name spares the file. -/

variable {dir : Path} {other other' : String} {data : ByteArray} {found : Option Entry}

theorem ne_place_of_getLast? (hplace : place.getLast? = some name) (h : q.getLast? ≠ some name) : q ≠ place := by
  rintro rfl
  exact h hplace

theorem ne_place_of_located (hplace : place.getLast? = some name) (hw : Unaimed name w) (hother : other ≠ name)
    (hfound : found ≠ some .directory) (h : w.locate (dir.child other) = .ok ⟨q, found⟩) : q ≠ place := by
  refine ne_place_of_getLast? hplace ?_
  rw [locate, absolute_child] at h
  rcases getLast?_of_walk_follow hfound h with hlast | ⟨x, hx, target, hlink, hlast⟩
  · rw [hlast, List.getLast?_concat]
    simpa using hother
  · rw [hlast]
    exact hw x hx target hlink

theorem getLast?_of_locateLink (hother : other ≠ "..") (h : w.locateLink (dir.child other) = .ok ⟨q, found⟩) :
    q.getLast? = some other := by
  rw [locateLink, absolute_child] at h
  exact getLast?_of_walk hother List.getLast?_concat h

/-- What a path leads to is not on the way to any of the places. -/
def OffWays (ways : List (List String)) (w : Workspace) (p : Path) : Prop :=
  ∀ q found, w.locateLink p = .ok ⟨q, found⟩ → ∀ way ∈ ways, ¬ q <+: way

theorem offWays_of_named (hother : other ≠ "..") (h : ∀ way ∈ ways, other ∉ way) : OffWays ways w (dir.child other) :=
  fun _ _ hlocate way hway hway' =>
    h way hway (hway'.subset (List.mem_of_getLast? (getLast?_of_locateLink hother hlocate)))

theorem offWays_of_unlinked (hdots : ".." ∉ (w.absolute dir).parts) (hother : other ≠ "..")
    (hunlinked : Unlinked w (w.absolute dir).parts) (h : ∀ way ∈ ways, ¬ (w.absolute dir).parts ++ [other] <+: way) :
    OffWays ways w (dir.child other) := by
  intro q found hlocate
  rw [locateLink, absolute_child] at hlocate
  have hq : q = [] ++ (w.absolute dir).parts ++ [other] :=
    walk_unlinked_child hdots hother (by simpa using hunlinked) hlocate
  rw [hq, List.nil_append]
  exact h

theorem entryAt_of_locateLink (h : w.locateLink p = .ok ⟨q, found⟩) (hfound : found ≠ some .directory) :
    w.entryAt q = found := by
  rcases walk_agree (Agree.refl w) h with ⟨hdir, -⟩ | ⟨hentry, -⟩
  · exact absurd hdir hfound
  · exact hentry

theorem spares_write (hplace : place.getLast? = some name) (hw : Unaimed name w) (hother : other ≠ name)
    (h : w.write (dir.child other) data = .ok w') : Spares ways place w w' := by
  unfold write at h
  split at h
  case h_1 q old executable hlocate =>
    have hentry := entryAt_of_locate hlocate nofun
    cases h
    exact spares_put (by simp [hentry]) nofun (ne_place_of_located hplace hw hother (by simp) hlocate)
  case h_2 q hlocate =>
    have hentry := entryAt_of_locate hlocate nofun
    cases h
    exact spares_put (by simp [hentry]) nofun (ne_place_of_located hplace hw hother (by simp) hlocate)
  all_goals cases h

theorem spares_makeExecutable (hplace : place.getLast? = some name) (hw : Unaimed name w) (hother : other ≠ name)
    (h : w.makeExecutable (dir.child other) = .ok w') : Spares ways place w w' := by
  unfold makeExecutable at h
  split at h
  case h_1 q old executable hlocate =>
    have hentry := entryAt_of_locate hlocate nofun
    cases h
    exact spares_put (by simp [hentry]) nofun (ne_place_of_located hplace hw hother (by simp) hlocate)
  case h_2 =>
    cases h
    exact .refl ways place w
  all_goals cases h

theorem spares_remove (hplace : place.getLast? = some name) (hother : other ≠ name) (hdots : other ≠ "..")
    (h : w.remove (dir.child other) = .ok w') : Spares ways place w w' := by
  unfold remove at h
  split at h
  case h_2 q found hdir hlocate =>
    have hentry := entryAt_of_locateLink hlocate fun he => hdir (Option.some.inj he)
    cases h
    refine spares_drop (by simpa [hentry] using hdir) (ne_place_of_getLast? hplace ?_)
    rw [getLast?_of_locateLink hdots hlocate]
    simpa using hother
  all_goals cases h

/-- What is moved, and where it is moved to, is not on the way to any of the places. -/
theorem spares_renamed {p' : Path} (hp : OffWays ways w p) (hp' : OffWays ways w p') (hplace : place ∈ ways)
    (h : w.rename p p' = .ok w') : Spares ways place w w' := by
  unfold rename at h
  split at h
  case h_1 source e target found hsource htarget =>
    obtain rfl : { w.drop target with
        entries := (w.drop target).entries.map fun x => (rebase source target x.1, x.2) } = w' := by
      rw [← rename_entries]
      exact Except.ok.inj h
    exact spares_rename (hp _ _ hsource) (hp' _ _ htarget) hplace
  all_goals cases h

/-- A directory that is made directly in another one. -/
theorem spares_createDirectories (hplace : place.getLast? = some name) (hother : other ≠ name) (hdots : other ≠ "..")
    (hdir : w.isDirectory dir = true) (h : w.createDirectories (dir.child other) = .ok w') : Spares ways place w w' := by
  obtain ⟨q, hlocate⟩ := isDirectory_iff.mp hdir
  have hchild := locateLink_child hdots hlocate
  rw [createDirectories_of_located hchild] at h
  cases hfree : w.entryAt (q ++ [other]) with
  | none =>
    rw [hfree, createDirectoryAt] at h
    cases h
    refine spares_put (by simp [hfree]) (by rintro _ ⟨⟩) (ne_place_of_getLast? hplace ?_)
    simpa using hother
  | some e =>
    rw [hfree, createDirectoryAt] at h
    · split at h
      · cases h
        exact .refl ways place w
      · cases h
    · rintro _ ⟨⟩

/-! The directories above the file are made. -/

theorem absolute_parent (w : Workspace) (p : Path) : (w.absolute p.parent).parts <+: (w.absolute p).parts := by
  by_cases habsolute : p.isAbsolute = true
  · have hparent : p.parent.isAbsolute = true := habsolute
    rw [absolute, absolute, Path.join, Path.join, if_pos habsolute, if_pos hparent]
    exact List.dropLast_prefix _
  · have hparent : ¬ p.parent.isAbsolute = true := habsolute
    rw [absolute, absolute, Path.join, Path.join, if_neg habsolute, if_neg hparent]
    exact (List.prefix_append_right_inj _).mpr (List.dropLast_prefix _)

section above

variable (hdots : ".." ∉ place) (hunlinked : Unlinked w place) (hp : (w.absolute p).parts <+: place)

include hdots hunlinked hp

/-- On a way without links a path leads to its place, past directories. -/
theorem walk_above {followLast : Bool} {found : Option Entry}
    (h : w.walk followLast linkLimit [] (w.absolute p).parts = .ok ⟨q, found⟩) :
    q = (w.absolute p).parts ∧ found = w.entryAt q ∧ Reached w q := by
  have hway : Unlinked w ([] ++ (w.absolute p).parts) := fun r hr => hunlinked r (hr.trans hp)
  obtain ⟨hq, hfound, habove⟩ := walk_unlinked (fun hmem => hdots (hp.subset hmem)) hway h
  rw [List.nil_append] at hq
  subst hq
  have hroot : w.entryAt [] = some .directory := by simp [entryAt]
  refine ⟨rfl, ?_, fun r hr hne => ?_⟩
  · by_cases hnil : (w.absolute p).parts = []
    · rw [hnil, walk_nil] at h
      rw [hnil, hroot]
      exact (Located.mk.inj (Except.ok.inj h)).2.symm
    · exact hfound hnil
  · by_cases hnil : r = []
    · rw [hnil, hroot]
    · exact habove r hr hnil hne

theorem createDirectoryAt_above (hne : (w.absolute p).parts ≠ place)
    (hplace : place ∈ ways) (h : w.createDirectoryAt p (w.locateLink p) = .ok w') :
    Spares ways place w w' ∧ ∀ r, r <+: (w.absolute p).parts → w'.entryAt r = some .directory := by
  cases hlocate : w.locateLink p with
  | error f =>
    rw [hlocate] at h
    cases h
  | ok l =>
    obtain ⟨q, found⟩ := l
    obtain ⟨rfl, rfl, hreached⟩ := walk_above hdots hunlinked hp hlocate
    rw [hlocate] at h
    cases hat : w.entryAt (w.absolute p).parts with
    | none =>
      rw [hat, createDirectoryAt] at h
      cases h
      have hfree : w.entryAt (w.absolute p).parts ≠ some .directory := by simp [hat]
      have hspares : Spares ways place w (w.put (w.absolute p).parts .directory) := spares_put hfree (by rintro _ ⟨⟩) hne
      refine ⟨hspares, fun r hr => ?_⟩
      by_cases hself : r = (w.absolute p).parts
      · rw [hself, entryAt_put hfree, Function.update_self]
      · exact hspares.above place hplace r (hr.trans hp) (hreached r hr hself)
    | some e =>
      rw [hat, createDirectoryAt] at h
      · split at h
        case isFalse => cases h
        case isTrue hdir =>
          cases h
          refine ⟨.refl ways place w, fun r hr => ?_⟩
          obtain ⟨q, hfollowed⟩ := isDirectory_iff.mp hdir
          obtain ⟨rfl, hfound, -⟩ := walk_above hdots hunlinked hp hfollowed
          by_cases hself : r = (w.absolute p).parts
          · rw [hself, ← hfound]
          · exact hreached r hr hself
      · rintro _ ⟨⟩

end above

/-- Directories on the way to the file are made, and no file of the name. -/
theorem createDirectories_above (hdots : ".." ∉ place) (hunlinked : Unlinked w place)
    (hp : (w.absolute p).parts <+: place) (hne : (w.absolute p).parts ≠ place) (hplace : place ∈ ways)
    (h : w.createDirectories p = .ok w') :
    Spares ways place w w' ∧ ∀ r, r <+: (w.absolute p).parts → w'.entryAt r = some .directory := by
  rw [createDirectories] at h
  generalize p.parts.length = n at h
  induction n generalizing p w' with
  | zero =>
    rw [createDirectories.go] at h
    exact createDirectoryAt_above hdots hunlinked hp hne hplace h
  | succ n ih =>
    rw [createDirectories.go] at h
    split at h
    case h_2 => exact createDirectoryAt_above hdots hunlinked hp hne hplace h
    case h_1 =>
      obtain ⟨v, hmade, h⟩ := Outcome.bind_eq_ok h
      have hparent := absolute_parent w p
      have hparentNe : (w.absolute p.parent).parts ≠ place := fun he =>
        hne (hp.eq_of_length (hp.length_le.antisymm (he ▸ hparent.length_le)))
      obtain ⟨hspares, -⟩ := ih (hparent.trans hp) hparentNe hmade
      have hsame : v.absolute p = w.absolute p := by rw [absolute, absolute, hspares.root]
      obtain ⟨hspares', hdirs⟩ := createDirectoryAt_above hdots (hspares.unlinked_place hplace hunlinked)
        (hsame ▸ hp) (hsame ▸ hne) hplace h
      exact ⟨hspares.trans hspares', hsame ▸ hdirs⟩

end spares

end QualityGate.Workspace
