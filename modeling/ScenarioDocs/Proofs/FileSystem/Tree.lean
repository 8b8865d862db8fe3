import ScenarioDocs.FileSystem.Tree
import ScenarioDocs.Proofs.FileSystem.Growth
import ScenarioDocs.Proofs.Lookup

/-!
# What is in a tree

The children of a directory are the entries whose locations are one name below
it, and no entry lies deeper than the depth of the file system.
-/

namespace ScenarioDocs

def Entry.file? : Entry → Option FileId
  | .file id => some id
  | _ => none

theorem Entry.file?_eq_some_iff {entry : Entry} {id : FileId} : entry.file? = some id ↔ entry = .file id := by
  cases entry <;> simp [file?]

namespace FileSystem

variable {fs : FileSystem} {dir loc : Location} {name : Text} {entry : Entry}

def Distinct (fs : FileSystem) : Prop := (fs.entries.map (·.1)).Nodup

section
variable (hd : fs.Distinct)
include hd

theorem Distinct.mem_entries_iff (hroot : loc ≠ .root) : (loc, entry) ∈ fs.entries ↔ fs.entry? loc = some entry := by
  rw [← lookup_eq_some_iff hd, entry?, if_neg hroot]

theorem Distinct.mem_children_iff : (name, entry) ∈ fs.children dir ↔ fs.entry? (dir.child name) = some entry := by
  unfold children
  rw [List.mem_mergeSort, List.mem_filterMap]
  constructor
  · rintro ⟨⟨loc, e⟩, hmem, h⟩
    obtain ⟨hparent, h⟩ := Option.ite_none_right_eq_some.1 h
    obtain ⟨name', hname, h⟩ := Option.map_eq_some_iff.1 h
    cases h
    rw [← Location.child_parent hname, hparent] at hmem
    exact (hd.mem_entries_iff Location.child_ne_root).1 hmem
  · intro h
    exact ⟨(dir.child name, entry), (hd.mem_entries_iff Location.child_ne_root).2 h, by simp⟩

end

namespace IsTree

variable (ht : fs.IsTree)
include ht

theorem mem_entries_iff : (loc, entry) ∈ fs.entries ↔ loc ≠ .root ∧ fs.entry? loc = some entry := by
  constructor
  · intro h
    obtain ⟨dir, name, hloc, -⟩ := ht.named _ h
    have hroot : loc ≠ .root := by
      rw [show loc = dir.child name from hloc]
      exact Location.child_ne_root
    exact ⟨hroot, (Distinct.mem_entries_iff ht.distinct hroot).1 h⟩
  · rintro ⟨hroot, h⟩
    exact (Distinct.mem_entries_iff ht.distinct hroot).2 h

theorem mem_children_iff : (name, entry) ∈ fs.children dir ↔ fs.entry? (dir.child name) = some entry :=
  Distinct.mem_children_iff ht.distinct

theorem directory_of_child (h : fs.entry? (dir.child name) = some entry) : fs.entry? dir = some .directory := by
  have hparent := ht.inDirectory _ (ht.mem_entries_iff.2 ⟨Location.child_ne_root, h⟩)
  rwa [Location.parent_child] at hparent

theorem directory_parent (h : fs.entry? dir = some .directory) : fs.entry? dir.parent = some .directory := by
  by_cases hroot : dir = .root
  · rw [hroot]
    exact entry?_root
  · exact ht.inDirectory _ (ht.mem_entries_iff.2 ⟨hroot, h⟩)

theorem isName (h : fs.entry? (dir.child name) = some entry) : IsName name := by
  obtain ⟨dir', name', hloc, hname⟩ := ht.named _ (ht.mem_entries_iff.2 ⟨Location.child_ne_root, h⟩)
  rw [(Location.child_inj.1 hloc).2]
  exact hname

theorem isName_of_isSome (h : (fs.entry? (dir.child name)).isSome) : IsName name :=
  ht.isName (Option.eq_some_of_isSome h)

end IsTree

theorem isTree_iff : fs.IsTree ↔ (fs.entries.map (·.1)).Nodup ∧
    (∀ p ∈ fs.entries, fs.entry? p.1.parent = some .directory) ∧
    (∀ p ∈ fs.entries, ∃ name ∈ p.1.name?, IsName name) ∧
    (∀ p ∈ fs.entries, ∀ id ∈ p.2.file?, id < fs.next) ∧ fs.entry? fs.current = some .directory := by
  constructor
  · intro h
    refine ⟨h.distinct, h.inDirectory, fun p hp => ?_, fun p hp id hid => ?_, h.current⟩
    · obtain ⟨dir, name, hloc, hname⟩ := h.named p hp
      exact ⟨name, by rw [hloc]; rfl, hname⟩
    · exact h.known p.1 id (by rw [← Entry.file?_eq_some_iff.1 hid]; exact hp)
  · rintro ⟨distinct, inDirectory, named, known, current⟩
    refine ⟨distinct, inDirectory, fun p hp => ?_, fun loc id h => known _ h id rfl, current⟩
    obtain ⟨name, hname, hok⟩ := named p hp
    exact ⟨p.1.parent, name, (Location.child_parent hname).symm, hok⟩

instance (fs : FileSystem) : Decidable fs.IsTree := decidable_of_iff _ isTree_iff.symm

theorem IsTree.isKnown (ht : fs.IsTree) : fs.Known := by
  intro loc id h
  by_cases hroot : loc = .root
  · rw [hroot, entry?_root] at h
    cases h
  · exact ht.known loc id (ht.mem_entries_iff.2 ⟨hroot, h⟩)

theorem IsStep.of_isName (h : IsName name) : IsStep name :=
  ⟨h.notCurrent, h.notParent, Nat.not_lt.2 h.short⟩

theorem le_foldl_max {l : List Nat} {n m : Nat} (h : n ∈ l ∨ n ≤ m) : n ≤ l.foldl max m := by
  induction l generalizing m with
  | nil => simpa using h
  | cons k l ih =>
    refine ih ?_
    rcases h with h | h
    · rcases List.mem_cons.1 h with rfl | h
      · exact .inr (Nat.le_max_right m n)
      · exact .inl h
    · exact .inr (Nat.le_trans h (Nat.le_max_left m k))

theorem Distinct.depth_le (hd : fs.Distinct) (h : fs.entry? loc = some entry) : loc.depth ≤ fs.depth := by
  unfold depth
  apply le_foldl_max
  by_cases hroot : loc = .root
  · rw [hroot]
    exact .inr (Nat.le_refl 0)
  · exact .inl (List.mem_map.2 ⟨(loc, entry), (hd.mem_entries_iff hroot).2 h, rfl⟩)

theorem IsTree.depth_le (ht : fs.IsTree) (h : fs.entry? loc = some entry) : loc.depth ≤ fs.depth :=
  Distinct.depth_le ht.distinct h

/-- A walk that starts in a directory and ends in one ends at a directory of the tree, also where it goes up. -/
theorem IsTree.directory_of_walk {mode : LastName} {links : Nat} {steps : List Text} {slash : Bool} {p : Place}
    {d : Location} (ht : fs.IsTree) (hdir : fs.entry? dir = some .directory)
    (h : fs.walk mode links dir steps slash = .ok p) (hd : p.directory? = some d) : fs.entry? d = some .directory := by
  fun_induction fs.walk mode links dir steps slash with
  | case1 =>
    cases h
    cases hd
    exact hdir
  | case2 _ _ _ _ ih => exact ih hdir h
  | case3 _ _ _ _ _ ih => exact ih (ht.directory_parent hdir) h
  | case4 | case5 | case7 | case11 | case13 => cases h
  | case6 | case10 | case12 =>
    cases h
    cases hd
  | case8 _ _ _ _ _ _ _ _ hentry =>
    cases h
    rw [← Option.some.inj hd]
    exact hentry
  | case9 _ _ _ _ _ _ _ _ _ _ hentry _ ih => exact ih hentry h
  | case14 _ dir _ _ _ _ _ _ target _ _ _ _ ih =>
    -- an absolute target is walked from the root
    refine ih ?_ h
    split
    · exact entry?_root
    · exact hdir

theorem IsTree.directory_of_find {path : Text} {d : Location} (ht : fs.IsTree)
    (h : fs.find path = .ok (d, .directory)) : fs.entry? d = some .directory := by
  obtain ⟨p, hp, hd⟩ := find_directory_iff.1 h
  obtain ⟨-, -, -, hwalk⟩ := resolve_eq_walk hp
  refine ht.directory_of_walk ?_ hwalk hd
  split
  · exact entry?_root
  · exact ht.current

/-! ## Opening -/

theorem entry?_of_find {path : Text} {id : FileId} (h : fs.find path = .ok (loc, .file id)) :
    fs.entry? loc = some (.file id) :=
  entry?_of_resolve (find_file_iff.1 h)

/-! ## Entries by their paths -/

section
variable {base : Text} (hdir : fs.directory? base = some dir) (hname : IsName name)
include hdir hname

theorem find_join (hentry : fs.entry? (dir.child name) = some entry) (hlink : ∀ target, entry ≠ .link target)
    (hshort : isTooLong (Path.join base name) = false) :
    fs.find (Path.join base name) = .ok (dir.child name, entry) := by
  obtain ⟨k, hleads⟩ := exists_leads hdir
  rw [find_eq_ok_iff]
  refine ⟨.taken (dir.child name) entry, ?_, .inl rfl⟩
  rw [hleads.resolve_join .follow hname.nonempty hname.noSlash hname.noNul, hshort, if_neg (by decide)]
  exact walk_end (.of_isName hname) rfl hentry hlink

/-- A file that can be opened from its directory can be opened by its path, unless that is too long or has
too many links. -/
theorem find_join_of_fileIn? {id : FileId} (hfile : fs.fileIn? dir name = some (loc, id)) :
    fs.find (Path.join base name) = .ok (loc, .file id) ∨ fs.find (Path.join base name) = .error .nameTooLong ∨
      fs.find (Path.join base name) = .error .tooManyLinks := by
  obtain ⟨k, hleads⟩ := exists_leads hdir
  have hresolve := hleads.resolve_join .follow hname.nonempty hname.noSlash hname.noNul
  by_cases hlong : isTooLong (Path.join base name) = true
  · rw [if_pos hlong] at hresolve
    simp [find, hresolve, bind, Except.bind]
  · rw [if_neg hlong] at hresolve
    rcases walk_fewer hleads.links hresolve.symm with hlinks | hwalk
    · simp [find, hlinks, bind, Except.bind]
    · unfold fileIn? at hfile
      rw [hwalk] at hfile
      rw [find_file_iff]
      split at hfile
      · rename_i loc' id' hplace
        cases hfile
        exact .inl hplace
      · cases hfile

theorem fileIn?_of_find_join {id : FileId} (h : fs.find (Path.join base name) = .ok (loc, .file id)) :
    fs.fileIn? dir name = some (loc, id) := by
  obtain ⟨k, hleads⟩ := exists_leads hdir
  have hresolve := hleads.resolve_join .follow hname.nonempty hname.noSlash hname.noNul
  rw [find_file_iff] at h
  rw [h] at hresolve
  split at hresolve
  · cases hresolve
  · rcases walk_fewer hleads.links hresolve.symm with hlinks | hwalk
    · cases hlinks
    · rw [fileIn?, hwalk]

end

theorem isTooLong_of_find {path : Text} (h : fs.find path = .ok (loc, entry)) : isTooLong path = false := by
  obtain ⟨p, hp, -⟩ := find_eq_ok_iff.1 h
  exact (resolve_eq_walk hp).2.2.1

end FileSystem

end ScenarioDocs
