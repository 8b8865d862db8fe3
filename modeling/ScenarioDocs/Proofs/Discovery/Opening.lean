import ScenarioDocs.Proofs.Discovery.Visits

/-!
# The files that are opened

A search reads the files of a directory by the way in which it first reaches
that directory.
-/

namespace ScenarioDocs

open FileSystem

variable {c : Collector} {refused : Refusals} {fs : FileSystem} {p : SourcePath} {paths : List SourcePath} {v w : Visit}
  {b : Batch} {loc : Location} {name path : Text} {entry : Entry} {id : FileId} {extensions : List Text}

/-! ## Directories -/

theorem isTooLong_parent (hname : IsName name) (h : isTooLong (v.child name).path = false) :
    isTooLong v.path = false := by
  obtain ⟨sep, -, hjoin⟩ := Path.exists_join_eq hname.noSlash v.path
  rw [Visit.child, hjoin, List.append_assoc] at h
  exact isTooLong_of_append h

theorem SourcePath.directory?_of_reaches (ht : fs.IsTree) (h : p.Reaches fs v) (hshort : isTooLong v.path = false) :
    fs.directory? v.path = some v.loc := by
  induction h with
  | root hfind => exact directory?_of_find hfind
  | child _ _ hentry _ ih =>
    have hname := ht.isName hentry
    have hdir := ih (isTooLong_parent hname hshort)
    exact directory?_of_find (find_join hdir hname hentry (by simp) hshort)

/-! ## The files of a directory -/

section
variable (hdir : fs.directory? v.path = some v.loc)
include hdir

theorem fileAt?_eq_some_iff (hname : IsName name) (hentry : fs.entry? (v.loc.child name) = some entry) :
    fs.fileAt? (v.child name) entry = some (loc, id) ↔ fs.find (Path.join v.path name) = .ok (loc, .file id) := by
  rw [Collector.fileAt?_iff]
  constructor
  · rintro (⟨rfl, hshort, rfl⟩ | ⟨target, -, hfind⟩)
    · exact find_join hdir hname hentry (by simp) hshort
    · exact hfind
  · intro hfind
    by_cases hlink : ∃ target, entry = .link target
    · obtain ⟨target, rfl⟩ := hlink
      exact .inr ⟨target, rfl, hfind⟩
    · have hshort := isTooLong_of_find hfind
      rw [find_join hdir hname hentry (by simpa using hlink) hshort] at hfind
      cases hfind
      exact .inl ⟨rfl, hshort, rfl⟩

theorem mem_sourceFiles_iff (ht : fs.IsTree) : (path, loc, id) ∈ fs.sourceFiles extensions v ↔
    ∃ name e, path = Path.join v.path name ∧ (fs.entry? (v.loc.child name)).isSome ∧
      fs.find (Path.join v.path name) = .ok (loc, .file id) ∧ Path.extension? name = some e ∧ e ∈ extensions := by
  unfold sourceFiles
  rw [List.mem_filterMap]
  constructor
  · rintro ⟨⟨name, entry⟩, hmem, h⟩
    have hentry := ht.mem_children_iff.1 hmem
    dsimp only at h
    split at h
    · rename_i file e hfile hext
      split at h
      · rename_i he
        cases h
        exact ⟨name, e, rfl, by simp [hentry], (fileAt?_eq_some_iff hdir (ht.isName hentry) hentry).1 hfile, hext,
          by simpa using he⟩
      · cases h
    · cases h
  · rintro ⟨name, e, rfl, hsome, hfind, hext, he⟩
    obtain ⟨entry, hentry⟩ := Option.isSome_iff_exists.1 hsome
    refine ⟨(name, entry), ht.mem_children_iff.2 hentry, ?_⟩
    have hfile := (fileAt?_eq_some_iff hdir (ht.isName hentry) hentry).2 hfind
    simp only [hfile, hext, List.contains_iff_mem, he, if_true]
    rfl

theorem mem_filesIn_iff (ht : fs.IsTree) : (path, loc, id) ∈ c.filesIn refused fs v ↔
    ∃ name e, path = Path.join v.path name ∧ (fs.entry? (v.loc.child name)).isSome ∧
      fs.find (Path.join v.path name) = .ok (loc, .file id) ∧ refused .look (Path.join v.path name) = none ∧
      Path.extension? name = some e ∧ e ∈ c.extensions := by
  rw [Collector.filesIn, List.mem_filter, mem_sourceFiles_iff hdir ht, Option.isNone_iff_eq_none]
  constructor
  · rintro ⟨⟨name, e, rfl, hsome, hfind, hext, he⟩, hlook⟩
    exact ⟨name, e, rfl, hsome, hfind, hlook, hext, he⟩
  · rintro ⟨name, e, rfl, hsome, hfind, hlook, hext, he⟩
    exact ⟨⟨name, e, rfl, hsome, hfind, hext, he⟩, hlook⟩

end

/-! ## Which batches are read -/

theorem mem_batches_iff (ht : fs.IsTree) : b ∈ c.batches refused fs p ↔
    (∃ loc id, fs.find p.root = .ok (loc, .file id) ∧ b = ⟨(Path.parent? p.root).getD [], none, [(p.root, loc, id)]⟩) ∨
      ∃ v, p.Reaches fs v ∧ b = c.batchOf refused fs v := by
  by_cases hfile : ∃ loc id, fs.find p.root = .ok (loc, .file id)
  · obtain ⟨loc, id, hfind⟩ := hfile
    have hno (v : Visit) : ¬p.Reaches fs v := by
      rw [← SourcePath.mem_visits_iff ht, Collector.visits_of_file hfind]
      exact List.not_mem_nil
    rw [Collector.batches_of_file hfind, List.mem_singleton]
    simp [hfind, hno]
  · simp only [not_exists] at hfile
    rw [Collector.batches_of_not_file hfile, List.mem_map]
    simp only [hfile, false_and, exists_false, false_or, SourcePath.mem_visits_iff ht, eq_comm]

theorem batchOf_injective (h : c.batchOf refused fs v = c.batchOf refused fs w) : v = w := by
  have hpath : v.path = w.path := congrArg Batch.scope h
  have hloc : v.loc = w.loc := Option.some.inj (congrArg Batch.directory? h)
  cases v
  cases w
  cases hpath
  cases hloc
  rfl

def Batch.isOf (loc : Location) (b : Batch) : Bool := b.directory? = some loc

theorem exists_visit_of_isOf (ht : fs.IsTree) (hb : b ∈ c.batches refused fs p) (hof : b.isOf loc = true) :
    ∃ v, p.Reaches fs v ∧ v.loc = loc ∧ b = c.batchOf refused fs v := by
  rcases (mem_batches_iff ht).1 hb with ⟨_, _, -, rfl⟩ | ⟨v, hv, rfl⟩
  · simp [Batch.isOf] at hof
  · exact ⟨v, hv, by simpa [Batch.isOf, Collector.batchOf] using hof, rfl⟩

theorem find?_batches_eq_none_iff (ht : fs.IsTree) :
    (c.batches refused fs p).find? (Batch.isOf loc) = none ↔ ¬p.CoversDirectory fs loc := by
  rw [List.find?_eq_none, SourcePath.coversDirectory_iff]
  constructor
  · rintro h ⟨path, hv⟩
    exact h _ ((mem_batches_iff ht).2 (.inr ⟨_, hv, rfl⟩)) (by simp [Batch.isOf, Collector.batchOf])
  · intro h b hb hof
    obtain ⟨v, hv, rfl, -⟩ := exists_visit_of_isOf ht hb hof
    exact h ⟨v.path, hv⟩

theorem find?_batches_eq_some_iff (ht : fs.IsTree) :
    (c.batches refused fs p).find? (Batch.isOf v.loc) = some (c.batchOf refused fs v) ↔ p.Reaches fs v := by
  constructor
  · intro h
    obtain ⟨w, hw, -, hb⟩ := exists_visit_of_isOf ht (List.mem_of_find?_eq_some h) (List.find?_some h)
    rw [batchOf_injective hb]
    exact hw
  · intro hv
    cases h : (c.batches refused fs p).find? (Batch.isOf v.loc) with
    | none => exact absurd (SourcePath.coversDirectory_iff.2 ⟨v.path, hv⟩) ((find?_batches_eq_none_iff ht).1 h)
    | some b =>
      obtain ⟨w, hw, hloc, hb⟩ := exists_visit_of_isOf ht (List.mem_of_find?_eq_some h) (List.find?_some h)
      rw [hb, SourcePath.reaches_unique hw hv hloc]

theorem find?_paths_eq_some_iff (ht : fs.IsTree) :
    (paths.flatMap (c.batches refused fs)).find? (Batch.isOf v.loc) = some (c.batchOf refused fs v) ↔
      SourcePath.FirstReaches fs paths v := by
  rw [List.find?_flatMap, List.findSome?_eq_some_iff]
  simp only [find?_batches_eq_some_iff ht, find?_batches_eq_none_iff ht]
  rfl

theorem firstReaches_unique (c : Collector) (ht : fs.IsTree) (hv : SourcePath.FirstReaches fs paths v)
    (hw : SourcePath.FirstReaches fs paths w) (h : v.loc = w.loc) : v = w := by
  have hfirst {u : Visit} (hu : SourcePath.FirstReaches fs paths u) :
      (paths.flatMap (c.batches .nothing fs)).find? (Batch.isOf u.loc) = some (c.batchOf .nothing fs u) :=
    (find?_paths_eq_some_iff ht).2 hu
  have hsame := hfirst hv
  rw [h, hfirst hw] at hsame
  exact (batchOf_injective (Option.some.inj hsame)).symm

theorem mem_opened_paths_iff (ht : fs.IsTree) :
    b ∈ Batch.opened [] (paths.flatMap (c.batches refused fs)) ↔
      (∃ p ∈ paths, ∃ loc id, fs.find p.root = .ok (loc, .file id) ∧
        b = ⟨(Path.parent? p.root).getD [], none, [(p.root, loc, id)]⟩) ∨
      ∃ v, SourcePath.FirstReaches fs paths v ∧ b = c.batchOf refused fs v := by
  -- a batch of one file is always read, one of a directory if it is the first
  cases hdir : b.directory? with
  | none =>
    have hne (v : Visit) : b ≠ c.batchOf refused fs v := by
      rintro rfl
      cases hdir
    rw [Collector.mem_opened_of_none hdir, List.mem_flatMap]
    simp only [mem_batches_iff ht, hne, and_false, exists_false, or_false]
  | some loc =>
    have hne (t : Text) (files : List SourceFile) : b ≠ ⟨t, none, files⟩ := by
      rintro rfl
      cases hdir
    simp only [hne, and_false, exists_false, false_or]
    rw [Collector.mem_opened_iff hdir]
    constructor
    · rintro ⟨-, h⟩
      obtain ⟨p, -, hb⟩ := List.mem_flatMap.1 (List.mem_of_find?_eq_some h)
      obtain ⟨v, -, rfl, rfl⟩ := exists_visit_of_isOf ht hb (by simpa [Batch.isOf] using hdir)
      exact ⟨v, (find?_paths_eq_some_iff ht).1 h, rfl⟩
    · rintro ⟨v, hv, rfl⟩
      cases hdir
      exact ⟨List.not_mem_nil, (find?_paths_eq_some_iff ht).2 hv⟩

section
variable (ht : fs.IsTree) (hshort : ∀ p ∈ paths, p.ShortWays fs)
include ht hshort

theorem directory?_of_firstReaches (hv : SourcePath.FirstReaches fs paths v) : fs.directory? v.path = some v.loc := by
  obtain ⟨before, p, after, rfl, hreach, -⟩ := hv
  exact p.directory?_of_reaches ht hreach (hshort p (by simp) v ((SourcePath.mem_visits_iff ht).2 hreach))

/-- A file that is read is opened by its path. -/
theorem opens_of_mem
    (h : (path, loc, id) ∈ (Batch.opened [] (paths.flatMap (c.batches refused fs))).flatMap (·.files)) :
    fs.find path = .ok (loc, .file id) ∧ SourcePath.Opens refused fs c.extensions paths loc id := by
  obtain ⟨b, hb, hmem⟩ := List.mem_flatMap.1 h
  rcases (mem_opened_paths_iff ht).1 hb with ⟨p, hp, loc', id', hfind, rfl⟩ | ⟨v, hv, rfl⟩
  · cases List.mem_singleton.1 hmem
    exact ⟨hfind, .itself hp hfind⟩
  · have hdir := directory?_of_firstReaches ht hshort hv
    obtain ⟨name, e, rfl, hsome, hfind, hlook, hext, he⟩ := (mem_filesIn_iff hdir ht).1 hmem
    exact ⟨hfind, .inside hv hsome hfind hlook hext he⟩

theorem exists_mem_of_opens (h : SourcePath.Opens refused fs c.extensions paths loc id) :
    ∃ path, (path, loc, id) ∈ (Batch.opened [] (paths.flatMap (c.batches refused fs))).flatMap (·.files) := by
  cases h with
  | @itself p _ _ hp hfind =>
    refine ⟨p.root, List.mem_flatMap.2 ⟨_, (mem_opened_paths_iff ht).2 (.inl ⟨p, hp, loc, id, hfind, rfl⟩), ?_⟩⟩
    exact List.mem_singleton_self _
  | @inside v _ name e _ hv hsome hfind hlook hext he =>
    refine ⟨Path.join v.path name, List.mem_flatMap.2 ⟨_, (mem_opened_paths_iff ht).2 (.inr ⟨v, hv, rfl⟩), ?_⟩⟩
    have hdir := directory?_of_firstReaches ht hshort hv
    exact (mem_filesIn_iff hdir ht).2 ⟨name, e, rfl, hsome, hfind, hlook, hext, he⟩

end

/-! ## What is covered -/

theorem exists_firstReaches {dir : Location} (hp : p ∈ paths) (h : p.CoversDirectory fs dir) :
    ∃ v, SourcePath.FirstReaches fs paths v ∧ v.loc = dir := by
  induction paths with
  | nil => cases hp
  | cons q paths ih =>
    by_cases hq : q.CoversDirectory fs dir
    · obtain ⟨path, hreach⟩ := SourcePath.coversDirectory_iff.1 hq
      exact ⟨⟨path, dir⟩, ⟨[], q, paths, rfl, hreach, nofun⟩, rfl⟩
    · rcases List.mem_cons.1 hp with rfl | hp
      · exact absurd h hq
      · obtain ⟨v, ⟨before, p', after, rfl, hreach, hbefore⟩, rfl⟩ := ih hp
        refine ⟨v, ⟨q :: before, p', after, rfl, hreach, ?_⟩, rfl⟩
        rw [List.forall_mem_cons]
        exact ⟨hq, hbefore⟩

section
variable (ht : fs.IsTree) (hshort : ∀ p ∈ paths, p.ShortWays fs)
include ht hshort

theorem exists_covers_of_opens (h : SourcePath.Opens refused fs extensions paths loc id) :
    ∃ p ∈ paths, p.Covers fs extensions loc id := by
  cases h with
  | itself hp hfind => exact ⟨_, hp, .itself hfind⟩
  | @inside v _ name e _ hv hsome hfind _ hext he =>
    have hdir := directory?_of_firstReaches ht hshort hv
    obtain ⟨entry, hentry⟩ := Option.isSome_iff_exists.1 hsome
    have hfile := fileIn?_of_find_join hdir (ht.isName hentry) hfind
    obtain ⟨before, p, after, rfl, hreach, -⟩ := hv
    refine ⟨p, by simp, .inside (SourcePath.coversDirectory_iff.2 ⟨v.path, hreach⟩) hsome hfile hext he⟩

/-- What is covered is opened, unless the system hides it. -/
theorem opens_of_covers (refused : Refusals) (hp : p ∈ paths) (h : p.Covers fs extensions loc id) :
    SourcePath.Opens refused fs extensions paths loc id ∨ ∃ v name, SourcePath.FirstReaches fs paths v ∧
      fs.fileIn? v.loc name = some (loc, id) ∧ refused.Hides fs (Path.join v.path name) := by
  cases h with
  | itself hfind => exact .inl (.itself hp hfind)
  | @inside dir _ name e _ hcover hsome hfile hext he =>
    obtain ⟨v, hv, rfl⟩ := exists_firstReaches hp hcover
    have hdir := directory?_of_firstReaches ht hshort hv
    obtain ⟨entry, hentry⟩ := Option.isSome_iff_exists.1 hsome
    cases hlook : refused .look (Path.join v.path name) with
    | some e => exact .inr ⟨v, name, hv, hfile, .inl ⟨e, hlook⟩⟩
    | none =>
      obtain hfind | hlost := find_join_of_fileIn? hdir (ht.isName hentry) hfile
      · exact .inl (.inside hv hsome hfind hlook hext he)
      · exact .inr ⟨v, name, hv, hfile, .inr hlost⟩

end

end ScenarioDocs
