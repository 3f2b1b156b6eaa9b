import Mathlib
import QualityGate.Proofs.Lookup
import QualityGate.Proofs.Text.Utf8
import QualityGate.Proofs.Workspace.Walk

/-! What writing, moving and removing a file does to the entries of a workspace:
what stands at the places concerned is replaced, and nothing else changes. -/

namespace QualityGate

/-- Where something at `place` is once all at and below `source` is moved to `target`. -/
def rebase (source target place : List String) : List String :=
  if source.isPrefixOf place then target ++ place.drop source.length else place

theorem rebase_append (source target rest : List String) : rebase source target (source ++ rest) = target ++ rest := by
  simp [rebase]

theorem rebase_of_not_under {source place : List String} (target : List String) (h : ¬ source <+: place) :
    rebase source target place = place := by
  simp [rebase, h]

theorem rebase_eq_target {source target place : List String} (hplace : place ≠ target) :
    rebase source target place = target ↔ place = source := by
  by_cases hunder : source <+: place
  · obtain ⟨rest, rfl⟩ := hunder
    rw [rebase_append]
    simp
  · rw [rebase_of_not_under target hunder]
    exact iff_of_false hplace fun he => hunder (by rw [he])

theorem rebase_ne_source {source target place : List String} (hapart : ¬ target <+: source) :
    rebase source target place ≠ source := by
  by_cases hunder : source <+: place
  · obtain ⟨rest, rfl⟩ := hunder
    rw [rebase_append]
    exact fun he => hapart ⟨rest, he⟩
  · rw [rebase_of_not_under target hunder]
    exact fun he => hunder (by rw [he])

namespace Workspace

section change

variable {w : Workspace} {place q : List String} {e : Entry}

theorem not_above_root (h : w.entryAt place ≠ some .directory) : place.isPrefixOf w.root.parts = false := by
  by_contra habove
  exact h (by simp [entryAt, habove])

theorem entryAt_put (h : w.entryAt place ≠ some .directory) (e : Entry) :
    (w.put place e).entryAt = Function.update w.entryAt place (some e) := by
  funext q
  by_cases hq : q = place
  · subst hq
    simp [entryAt, put, not_above_root h, lookup_insertKey_self]
  · rw [Function.update_of_ne hq]
    simp [entryAt, put, lookup_insertKey_of_ne _ _ hq]

theorem entryAt_drop (h : w.entryAt place ≠ some .directory) :
    (w.drop place).entryAt = Function.update w.entryAt place none := by
  funext q
  by_cases hq : q = place
  · subst hq
    have hnone : (w.entries.filter fun x => x.1 != q).lookup q = none := by
      refine List.lookup_eq_none_iff.mpr fun x hx => ?_
      have hkey : x.1 ≠ q := by simpa using (List.mem_filter.mp hx).2
      simpa using hkey.symm
    simp [entryAt, drop, not_above_root h, hnone]
  · rw [Function.update_of_ne hq]
    simp only [entryAt, drop, lookup_filter_of_ne w.entries hq]

/-- One place changes, the others stay as they are. -/
structure Replaced (w w' : Workspace) (place : List String) (e : Option Entry) : Prop where
  root : w'.root = w.root
  entryAt : w'.entryAt = Function.update w.entryAt place e

theorem replaced_put (h : Plain (w.entryAt place)) (e : Entry) : Replaced w (w.put place e) place (some e) :=
  ⟨rfl, entryAt_put h.ne_directory e⟩

theorem replaced_drop (h : Plain (w.entryAt place)) : Replaced w (w.drop place) place none :=
  ⟨rfl, entryAt_drop h.ne_directory⟩

theorem Replaced.self {w' : Workspace} {e : Option Entry} (h : Replaced w w' place e) : w'.entryAt place = e := by
  rw [h.entryAt, Function.update_self]

theorem Replaced.of_ne {w' : Workspace} {e : Option Entry} (h : Replaced w w' place e) (hq : q ≠ place) :
    w'.entryAt q = w.entryAt q := by
  rw [h.entryAt, Function.update_of_ne hq]

theorem Replaced.trans {w' w'' : Workspace} {e e' : Option Entry} (h : Replaced w w' place e)
    (h' : Replaced w' w'' place e') : Replaced w w'' place e' :=
  ⟨h'.root.trans h.root, by rw [h'.entryAt, h.entryAt, Function.update_idem]⟩

theorem Replaced.agree {w' : Workspace} {e : Option Entry} (h : Replaced w w' place e) (hold : Plain (w.entryAt place))
    (hnew : ∀ target, e ≠ some (.link target)) : Agree [place] w w' where
  root := h.root.symm
  outside q hq := (h.of_ne (by simpa using hq)).symm
  plain q hq := by rwa [List.mem_singleton.mp hq]
  unlinked q hq := by
    obtain rfl := List.mem_singleton.mp hq
    rwa [h.self]

end change

theorem rename_entries (w : Workspace) (source target : List String) :
    (w.entries.map fun (parts, e) =>
      if source.isPrefixOf parts then (target ++ parts.drop source.length, e) else (parts, e)) =
    w.entries.map fun x => (rebase source target x.1, x.2) := by
  refine List.map_congr_left fun (place, e) _ => ?_
  simp only [rebase]
  split <;> rfl

theorem lookup_none_below {w : Workspace} {source : List String} {x : List String × Entry} (hx : x ∈ w.entries)
    (halone : ∀ rest ≠ [], w.entryAt (source ++ rest) = none) (hunder : source <+: x.1) : x.1 = source := by
  obtain ⟨rest, hrest⟩ := hunder
  by_contra hlonger
  have hnone : w.entryAt x.1 = none := by
    rw [← hrest]
    exact halone rest fun he => hlonger (by rw [← hrest, he, List.append_nil])
  have habove : x.1.isPrefixOf w.root.parts = false := not_above_root (by simp [hnone])
  rw [entryAt, habove, if_neg Bool.false_ne_true] at hnone
  have hother := List.lookup_eq_none_iff.mp hnone x hx
  simp at hother

/-- What stands at `source`, with nothing below it, is moved to `target`. -/
theorem entryAt_rename {w : Workspace} {source target : List String} (hsource : w.entryAt source ≠ some .directory)
    (htarget : w.entryAt target ≠ some .directory) (hapart : ¬ target <+: source)
    (halone : ∀ rest ≠ [], w.entryAt (source ++ rest) = none) :
    ({ w.drop target with entries := (w.drop target).entries.map fun x => (rebase source target x.1, x.2) } :
        Workspace).entryAt =
      Function.update (Function.update w.entryAt source none) target (w.entryAt source) := by
  have hstored {q : List String} (hq : q ≠ target) : (w.drop target).entries.lookup q = w.entries.lookup q :=
    lookup_filter_of_ne w.entries hq
  have hgone (x : List String × Entry) (hx : x ∈ (w.drop target).entries) : x.1 ≠ target := by
    simpa using (List.mem_filter.mp hx).2
  have hbelow (x : List String × Entry) (hx : x ∈ (w.drop target).entries) (hunder : source <+: x.1) :
      x.1 = source :=
    lookup_none_below (List.mem_filter.mp hx).1 halone hunder
  have hroot : (w.drop target).root = w.root := rfl
  have hself : rebase source target source = target := by simpa using rebase_append source target []
  have hne : source ≠ target := fun he => hapart (by rw [he])
  funext q
  by_cases ht : q = target
  · subst ht
    have hlookup : ((w.drop q).entries.map fun x => (rebase source q x.1, x.2)).lookup q =
        (w.drop q).entries.lookup source := by
      refine lookup_map_key fun x hx => ?_
      by_cases hunder : source <+: x.1
      · simp [hbelow x hx hunder, hself]
      · have hx' : x.1 ≠ source := fun he => hunder (by rw [he])
        simp [rebase_of_not_under q hunder, hgone x hx, hx']
    simp [entryAt, hroot, not_above_root htarget, not_above_root hsource, hlookup, hstored hne]
  rw [Function.update_of_ne ht]
  by_cases hs : q = source
  · subst hs
    have hnone : ((w.drop target).entries.map fun x => (rebase q target x.1, x.2)).lookup q = none := by
      refine List.lookup_eq_none_iff.mpr fun y hy => ?_
      obtain ⟨x, hx, rfl⟩ := List.mem_map.mp hy
      have hmoved : q ≠ rebase q target x.1 := by
        by_cases hunder : q <+: x.1
        · rwa [hbelow x hx hunder, hself]
        · rw [rebase_of_not_under target hunder]
          exact fun he => hunder (by rw [← he])
      simpa using hmoved
    simp [entryAt, hroot, not_above_root hsource, hnone]
  · rw [Function.update_of_ne hs]
    have hlookup : ((w.drop target).entries.map fun x => (rebase source target x.1, x.2)).lookup q =
        (w.drop target).entries.lookup q := by
      refine lookup_map_key fun x hx => ?_
      by_cases hunder : source <+: x.1
      · simp [hbelow x hx hunder, hself, Ne.symm ht, Ne.symm hs]
      · rw [rebase_of_not_under target hunder]
    simp only [entryAt, hroot, hlookup, hstored ht]

/-- What is moved, be it a directory, is found at the new place and no longer at the old one. -/
theorem rename_moves {w : Workspace} {p q : Path} {source target : List String} {e : Entry} {t : Option Entry}
    (hsource : w.locateLink p = .ok ⟨source, some e⟩) (htarget : w.locateLink q = .ok ⟨target, t⟩)
    (he : w.entryAt source = some e) (hfree : w.entryAt target ≠ some .directory)
    (houtside : ¬ source <+: w.root.parts) (hapart : ¬ target <+: source) :
    ∃ w', w.rename p q = .ok w' ∧ w'.root = w.root ∧ w'.entryAt source = none ∧ w'.entryAt target = some e := by
  have habove : source.isPrefixOf w.root.parts = false := by
    rw [← Bool.not_eq_true, List.isPrefixOf_iff_prefix]
    exact houtside
  have hgone (x : List String × Entry) (hx : x ∈ (w.drop target).entries) : x.1 ≠ target := by
    simpa using (List.mem_filter.mp hx).2
  have hne : source ≠ target := fun h => hapart (by rw [h])
  refine ⟨{ w.drop target with entries := (w.drop target).entries.map fun x => (rebase source target x.1, x.2) },
    by rw [← rename_entries, rename, hsource, htarget], rfl, ?_, ?_⟩
  · have hnone : ((w.drop target).entries.map fun x => (rebase source target x.1, x.2)).lookup source = none := by
      refine List.lookup_eq_none_iff.mpr fun y hy => ?_
      obtain ⟨x, -, rfl⟩ := List.mem_map.mp hy
      simpa using (rebase_ne_source hapart).symm
    rw [entryAt, if_neg (by simpa [drop] using houtside), hnone]
  · have hmoved : ((w.drop target).entries.map fun x => (rebase source target x.1, x.2)).lookup target =
        w.entries.lookup source :=
      (lookup_map_key fun x hx => rebase_eq_target (hgone x hx)).trans (lookup_filter_of_ne w.entries hne)
    rw [entryAt, habove, if_neg Bool.false_ne_true] at he
    have hroot : ¬ target.isPrefixOf w.root.parts = true := Bool.not_eq_true _ ▸ not_above_root hfree
    exact (if_neg hroot).trans (hmoved.trans he)

/-- Everything stands where it stood. -/
structure Unchanged (w w' : Workspace) : Prop where
  root : w'.root = w.root
  entryAt : w'.entryAt = w.entryAt

theorem Unchanged.refl (w : Workspace) : Unchanged w w := ⟨rfl, rfl⟩

theorem Unchanged.trans {w w' w'' : Workspace} (h : Unchanged w w') (h' : Unchanged w' w'') : Unchanged w w'' :=
  ⟨h'.root.trans h.root, h'.entryAt.trans h.entryAt⟩

theorem Unchanged.contains {w w' : Workspace} (h : Unchanged w w') (p : Path) : w'.contains p = w.contains p := by
  have habsolute : w'.absolute p = w.absolute p := by rw [absolute, absolute, h.root]
  rw [Workspace.contains, Workspace.contains, stat, stat, locate, locate, habsolute, walk_of_same h.entryAt]

/-! Paths that lead to a file, or to a place that is free. -/

structure StandsAt (w : Workspace) (p : Path) (place : List String) : Prop where
  locate : w.locate p = .ok ⟨place, w.entryAt place⟩
  locateLink : w.locateLink p = .ok ⟨place, w.entryAt place⟩
  plain : Plain (w.entryAt place)

theorem absolute_child (w : Workspace) (dir : Path) (name : String) :
    (w.absolute (dir.child name)).parts = (w.absolute dir).parts ++ [name] := by
  by_cases habsolute : (dir.root != "") = true <;> simp [absolute, Path.join, Path.child, Path.isAbsolute, habsolute]

theorem standsAt_child {w : Workspace} {dir : Path} {place : List String} {name : String}
    (h : w.locate dir = .ok ⟨place, some .directory⟩) (hname : name ≠ "..")
    (hplain : Plain (w.entryAt (place ++ [name]))) :
    StandsAt w (dir.child name) (place ++ [name]) where
  locate := by
    rw [Workspace.locate, absolute_child]
    exact walk_child true hname hplain.unlinked h
  locateLink := by
    rw [Workspace.locateLink, absolute_child]
    exact walk_child false hname hplain.unlinked h
  plain := hplain

/-- What stands directly in a directory is found behind every path to the directory, also if it is a link. -/
theorem locateLink_child {w : Workspace} {dir : Path} {place : List String} {name : String} (hname : name ≠ "..")
    (h : w.locate dir = .ok ⟨place, some .directory⟩) :
    w.locateLink (dir.child name) = .ok ⟨place ++ [name], w.entryAt (place ++ [name])⟩ := by
  obtain ⟨left, hon⟩ := walk_on h
  rw [locateLink, absolute_child, hon false [name] (List.cons_ne_nil _ _)]
  by_cases hlink : ∃ target, w.entryAt (place ++ [name]) = some (.link target)
  · obtain ⟨target, hat⟩ := hlink
    rw [walk_link_last hname hat, hat]
  · exact walk_last hname fun target hat => hlink ⟨target, hat⟩

namespace StandsAt

variable {w : Workspace} {p q : Path} {place source target : List String}

theorem contains (h : StandsAt w p place) : w.contains p = (w.entryAt place).isSome := by
  simp only [Workspace.contains, stat, h.locate]
  cases w.entryAt place <;> rfl

theorem isLink (h : StandsAt w p place) : w.isLink p = false := by
  simp only [Workspace.isLink, h.locateLink]
  split
  · rename_i hlink
    exact absurd (Located.mk.inj (Except.ok.inj hlink)).2 (h.plain.unlinked _)
  · rfl

theorem isFile (h : StandsAt w p place) {data : ByteArray} {executable : Bool}
    (he : w.entryAt place = some (.file data executable)) : w.isFile p = true := by
  simp only [Workspace.isFile, stat, h.locate, he]

theorem isFile_free (h : StandsAt w p place) (he : w.entryAt place = none) : w.isFile p = false := by
  simp only [Workspace.isFile, stat, h.locate, he]

theorem readBytes (h : StandsAt w p place) {data : ByteArray} {executable : Bool}
    (he : w.entryAt place = some (.file data executable)) : w.readBytes p = .ok data := by
  simp only [Workspace.readBytes, stat, h.locate, he]

theorem writeText (h : StandsAt w p place) (s : String) :
    ∃ w' executable, w.writeText p s = .ok w' ∧ Replaced w w' place (some (.file s.toUTF8 executable)) := by
  have hplain := h.plain
  cases he : w.entryAt place with
  | none => exact ⟨_, false, by rw [Workspace.writeText, write, h.locate, he], replaced_put hplain _⟩
  | some e =>
    cases e with
    | file data executable =>
      exact ⟨_, executable, by rw [Workspace.writeText, write, h.locate, he], replaced_put hplain _⟩
    | directory => simp [he] at hplain
    | link t => simp [he] at hplain

theorem makeExecutable (h : StandsAt w p place) {data : ByteArray} {executable : Bool}
    (he : w.entryAt place = some (.file data executable)) :
    ∃ w', w.makeExecutable p = .ok w' ∧ Replaced w w' place (some (.file data true)) :=
  ⟨_, by rw [Workspace.makeExecutable, h.locate, he], replaced_put h.plain _⟩

theorem remove (h : StandsAt w p place) {e : Entry} (he : w.entryAt place = some e) :
    ∃ w', w.remove p = .ok w' ∧ Replaced w w' place none := by
  refine ⟨w.drop place, ?_, replaced_drop h.plain⟩
  rw [Workspace.remove, h.locateLink, he]
  cases e with
  | directory => exact absurd he h.plain.ne_directory
  | file data executable => rfl
  | link target => rfl

theorem rename (h : StandsAt w p source) (hq : StandsAt w q target) {e : Entry} (he : w.entryAt source = some e)
    (hapart : ¬ target <+: source) (halone : ∀ rest ≠ [], w.entryAt (source ++ rest) = none) :
    ∃ w', w.rename p q = .ok w' ∧ w'.root = w.root ∧
      w'.entryAt = Function.update (Function.update w.entryAt source none) target (some e) := by
  refine ⟨{ w.drop target with entries := (w.drop target).entries.map fun x => (rebase source target x.1, x.2) },
    ?_, rfl, ?_⟩
  · rw [← rename_entries, Workspace.rename, h.locateLink, hq.locateLink, he]
  · rw [entryAt_rename h.plain.ne_directory hq.plain.ne_directory hapart halone, he]

end StandsAt

/-! Making directories. -/

section createDirectories

variable {w : Workspace} {dir : Path} {place : List String}

theorem createDirectories_of_located {l : Located} (h : w.locateLink dir = .ok l) :
    w.createDirectories dir = w.createDirectoryAt dir (.ok l) := by
  rw [createDirectories]
  cases dir.parts.length with
  | zero => rw [createDirectories.go, h]
  | succ n =>
    rw [createDirectories.go]
    simp only [h]

theorem createDirectories_of_directory (h : w.locate dir = .ok ⟨place, some .directory⟩) :
    w.createDirectories dir = .ok w := by
  have hdir : w.isDirectory dir = true := isDirectory_iff.mpr ⟨place, h⟩
  rcases walk_to_link h with hlink | ⟨q, target, hlink⟩
  all_goals
    rw [createDirectories_of_located hlink, createDirectoryAt, if_pos hdir]
    exact nofun

theorem createDirectories_of_free (h : StandsAt w dir place) (hfree : w.entryAt place = none) :
    w.createDirectories dir = .ok (w.put place .directory) := by
  have hlink : w.locateLink dir = .ok ⟨place, none⟩ := hfree ▸ h.locateLink
  rw [createDirectories_of_located hlink, createDirectoryAt]

end createDirectories

/-- What is written to a path is read from it. -/
theorem readBytes_of_write {w w' : Workspace} {p : Path} {data : ByteArray} (h : w.write p data = .ok w') :
    w'.readBytes p = .ok data := by
  have hlocated {place : List String} {e : Option Entry} (executable : Bool) (hl : w.locate p = .ok ⟨place, e⟩)
      (he : Plain e) (hput : w' = w.put place (.file data executable)) : w'.readBytes p = .ok data := by
    have hplain : Plain (w.entryAt place) := by rwa [entryAt_of_locate hl he.ne_directory]
    have hreplaced : Replaced w w' place (some (.file data executable)) := hput ▸ replaced_put hplain _
    rcases locate_agree (hreplaced.agree hplain nofun) hl with ⟨hd, -⟩ | ⟨-, hfound⟩
    · exact absurd hd he.ne_directory
    · rw [hreplaced.self] at hfound
      simp only [readBytes, stat, hfound]
  unfold write at h
  split at h
  case h_1 place old executable hl => exact hlocated executable hl (plain_file old executable) (Except.ok.inj h).symm
  case h_2 place hl => exact hlocated false hl plain_none (Except.ok.inj h).symm
  all_goals cases h

/-! Reading the text of a file. -/

section read

variable {w : Workspace} {p : Path} {data : ByteArray}

theorem contains_of_readBytes (h : w.readBytes p = .ok data) : w.contains p = true := by
  unfold Workspace.readBytes at h
  split at h
  case h_1 hstat => rw [Workspace.contains, hstat, Except.isOk, Except.toBool]
  all_goals cases h

theorem readText_of_decoded {cs : List Char} (h : w.readBytes p = .ok data)
    (hd : Text.Utf8.decode data.data.toList = .ok cs) : w.readText p = .ok (Text.unifyNewlines cs) := by
  rw [Workspace.readText, Workspace.decoded, h]
  simp only [bind, Except.bind, hd, Except.mapError]

theorem readText_of_undecodable {f : EncodingFault} (h : w.readBytes p = .ok data)
    (hd : Text.Utf8.decode data.data.toList = .error f) : w.readText p = .error (.encoding f) := by
  rw [Workspace.readText, Workspace.decoded, h]
  simp only [bind, Except.bind, hd, Except.mapError]

/-- A text without returns is read from the bytes that encode it. -/
theorem readText_of_toUTF8 {s : String} (h : w.readBytes p = .ok s.toUTF8) (hs : '\r' ∉ s.toList) :
    w.readText p = .ok s.toList := by
  rw [readText_of_decoded h (Text.Utf8.decode_toUTF8 s), Text.unifyNewlines_of_notMem hs]

end read

end Workspace

end QualityGate
