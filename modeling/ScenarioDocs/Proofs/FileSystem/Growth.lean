import ScenarioDocs.Proofs.FileSystem.Directories

/-!
# File systems that grow

A walk that ends at something ends there as well when more has been put at
free places. What the single operations do to the entries is told apart here
from what they never touch.
-/

namespace ScenarioDocs.FileSystem

variable {fs fs' fs'' : FileSystem} {mode : LastName} {links : Nat} {dir loc d : Location} {step path base : Text}
  {rest steps : List Text} {slash : Bool} {entry : Entry} {id : FileId} {p : Place} {bs : Bytes}

def Grows (fs fs' : FileSystem) : Prop := ∀ loc entry, fs.entry? loc = some entry → fs'.entry? loc = some entry

theorem Grows.ways (h : fs.Grows fs') : fs.Ways fs' := fun loc entry hentry _ => h loc entry hentry

/-! ## Walking -/

theorem walk_of_grows (h : fs.Grows fs') (hw : fs.walk mode links dir steps slash = .ok p)
    (hfree : ∀ loc, p = .free loc → fs'.entry? loc = none) : fs'.walk mode links dir steps slash = .ok p := by
  fun_induction fs.walk mode links dir steps slash with
  | case1 =>
    rw [walk]
    exact hw
  | case2 _ _ _ _ ih => rw [walk_current, ih hw]
  | case3 _ _ _ _ _ ih => rw [walk_parent, ih hw]
  | case4 | case5 | case7 | case11 | case13 => cases hw
  | case6 _ _ _ _ hcurrent hparent hshort _ _ hopen =>
    cases hw
    rw [walk_missing ⟨hcurrent, hparent, hshort⟩ hopen (hfree _ rfl), if_pos rfl]
  | case8 _ _ _ _ hcurrent hparent hshort _ hdir hopen =>
    rw [walk_directory ⟨hcurrent, hparent, hshort⟩ hopen (h _ _ hdir), if_pos rfl]
    exact hw
  | case9 _ _ _ _ _ hcurrent hparent hopen hshort _ hdir hrest ih =>
    rw [walk_directory ⟨hcurrent, hparent, hshort⟩ hopen (h _ _ hdir), if_neg hrest, ih hw]
  | case10 _ _ _ _ _ hcurrent hparent hopen hshort _ _ hfile hlast =>
    rw [walk_file ⟨hcurrent, hparent, hshort⟩ hopen (h _ _ hfile), if_pos hlast]
    exact hw
  | case12 _ _ _ _ _ hcurrent hparent _ hshort _ _ hlink hlast =>
    obtain ⟨rfl, rfl⟩ := hlast
    rw [walk_last ⟨hcurrent, hparent, hshort⟩, placeAt_some (h _ _ hlink)]
    exact hw
  | case14 _ _ _ _ hcurrent hparent hopen hshort _ _ hlink hfollow _ ih =>
    rw [walk_link ⟨hcurrent, hparent, hshort⟩ hopen (h _ _ hlink) hfollow]
    exact ih hw

/-- The way to a directory goes through directories and links only. -/
theorem walk_directory_of_ways (h : fs.Ways fs') (hw : fs.walk .follow links dir steps slash = .ok p)
    (hd : p.directory? = some d) : fs'.walk .follow links dir steps slash = .ok p := by
  fun_induction fs.walk .follow links dir steps slash with
  | case1 =>
    rw [walk]
    exact hw
  | case2 _ _ _ _ ih => rw [walk_current, ih hw]
  | case3 _ _ _ _ _ ih => rw [walk_parent, ih hw]
  | case4 | case5 | case7 | case11 | case13 => cases hw
  | case6 | case10 =>
    cases hw
    cases hd
  | case8 _ _ _ _ hcurrent hparent hshort _ hdir hopen =>
    rw [walk_directory ⟨hcurrent, hparent, hshort⟩ hopen (h _ _ hdir (by simp)), if_pos rfl]
    exact hw
  | case9 _ _ _ _ _ hcurrent hparent hopen hshort _ hdir hrest ih =>
    rw [walk_directory ⟨hcurrent, hparent, hshort⟩ hopen (h _ _ hdir (by simp)), if_neg hrest, ih hw]
  | case12 _ _ _ _ _ _ _ _ _ _ _ _ hlast => cases hlast.2
  | case14 _ _ _ _ hcurrent hparent hopen hshort _ _ hlink hfollow _ ih =>
    rw [walk_link ⟨hcurrent, hparent, hshort⟩ hopen (h _ _ hlink (by simp)) hfollow]
    exact ih hw

/-- The way to a file leads to whatever file is there. -/
theorem walk_file_of_ways {id' : FileId} (h : fs.Ways fs')
    (hw : fs.walk .follow links dir steps slash = .ok (.taken loc (.file id)))
    (hend : fs'.entry? loc = some (.file id')) :
    fs'.walk .follow links dir steps slash = .ok (.taken loc (.file id')) := by
  fun_induction fs.walk .follow links dir steps slash with
  | case1 | case4 | case5 | case6 | case7 | case11 | case13 => cases hw
  | case2 _ _ _ _ ih => rw [walk_current, ih hw]
  | case3 _ _ _ _ _ ih => rw [walk_parent, ih hw]
  | case8 => cases (Place.taken.inj (Except.ok.inj hw)).2
  | case9 _ _ _ _ _ hcurrent hparent hopen hshort _ hdir hrest ih =>
    rw [walk_directory ⟨hcurrent, hparent, hshort⟩ hopen (h _ _ hdir (by simp)), if_neg hrest, ih hw]
  | case10 _ _ _ _ _ hcurrent hparent hopen hshort _ _ _ hlast =>
    rw [← (Place.taken.inj (Except.ok.inj hw)).1] at hend ⊢
    rw [walk_file ⟨hcurrent, hparent, hshort⟩ hopen hend, if_pos hlast]
  | case12 _ _ _ _ _ _ _ _ _ _ _ _ hlast => cases hlast.2
  | case14 _ _ _ _ hcurrent hparent hopen hshort _ _ hlink hfollow _ ih =>
    rw [walk_link ⟨hcurrent, hparent, hshort⟩ hopen (h _ _ hlink (by simp)) hfollow]
    exact ih hw

theorem walk_end (hstep : IsStep step) (hloc : loc = dir.child step) (hend : fs.entry? loc = some entry)
    (hlink : ∀ target, entry ≠ .link target) : fs.walk .follow links dir [step] false = .ok (.taken loc entry) := by
  have hopen : ¬(([] : List Text) = [] ∧ LastName.follow = .create ∧ false = true) := by simp
  subst hloc
  cases entry with
  | directory => rw [walk_directory hstep hopen hend, if_pos rfl]
  | file id => rw [walk_file hstep hopen hend, if_pos ⟨rfl, .inr (by simp)⟩]
  | link target => exact absurd rfl (hlink target)

/-- Where a file can be opened for writing at the end of a walk, what is put there is found. -/
theorem walk_of_create (h : fs.Ways fs') (hw : fs.walk .create links dir steps slash = .ok p)
    (hp : p = .free loc ∨ ∃ id, p = .taken loc (.file id)) (hend : fs'.entry? loc = some entry)
    (hlink : ∀ target, entry ≠ .link target) : fs'.walk .follow links dir steps slash = .ok (.taken loc entry) := by
  have hopen {l : List Text} {b : Bool} : ¬(l = [] ∧ LastName.follow = .create ∧ b = true) := by simp
  fun_induction fs.walk .create links dir steps slash with
  | case1 =>
    cases hw
    rcases hp with hp | ⟨id, hp⟩ <;> cases hp
  | case2 _ _ _ _ ih => rw [walk_current, ih hw]
  | case3 _ _ _ _ _ ih => rw [walk_parent, ih hw]
  | case4 | case5 | case7 | case11 | case13 => cases hw
  | case6 _ dir step slash hcurrent hparent hshort _ _ hcreate =>
    -- nothing was at the end, and now there is
    cases hw
    rcases hp with hp | ⟨id, hp⟩
    · have hslash : slash = false := by simpa using hcreate
      rw [hslash]
      exact walk_end ⟨hcurrent, hparent, hshort⟩ (Place.free.inj hp).symm hend hlink
    · cases hp
  | case8 =>
    cases hw
    rcases hp with hp | ⟨id, hp⟩
    · cases hp
    · cases (Place.taken.inj hp).2
  | case9 _ _ _ _ _ hcurrent hparent _ hshort _ hdir hrest ih =>
    rw [walk_directory ⟨hcurrent, hparent, hshort⟩ hopen (h _ _ hdir (by simp)), if_neg hrest, ih hw]
  | case10 _ dir step _ slash hcurrent hparent _ hshort _ _ hfile hlast =>
    cases hw
    rcases hp with hp | ⟨id, hp⟩
    · cases hp
    · obtain ⟨rfl, hslash⟩ := hlast
      have hslash : slash = false := by simpa using hslash
      rw [hslash]
      exact walk_end ⟨hcurrent, hparent, hshort⟩ (Place.taken.inj hp).1.symm hend hlink
  | case12 _ _ _ _ _ _ _ _ _ _ _ _ hlast => cases hlast.2
  | case14 _ _ _ _ hcurrent hparent _ hshort _ _ hlink _ _ ih =>
    rw [walk_link ⟨hcurrent, hparent, hshort⟩ hopen (h _ _ hlink (by simp)) (by simp)]
    exact ih hw

theorem walk_entry_of_directory (hw : fs.walk .follow links dir steps slash = .ok p) (hd : p.directory? = some d) :
    ∃ q, fs.walk .entry links dir steps slash = .ok q ∧ ∀ loc, q ≠ .free loc := by
  have hopen {l : List Text} {b : Bool} : ¬(l = [] ∧ LastName.entry = .create ∧ b = true) := by simp
  fun_induction fs.walk .follow links dir steps slash with
  | case1 => exact ⟨_, by rw [walk], by simp⟩
  | case2 _ _ _ _ ih =>
    rw [walk_current]
    exact ih hw
  | case3 _ _ _ _ _ ih =>
    rw [walk_parent]
    exact ih hw
  | case4 | case5 | case7 | case11 | case13 => cases hw
  | case6 | case10 =>
    cases hw
    cases hd
  | case8 _ _ _ _ hcurrent hparent hshort _ hdir =>
    rw [walk_last ⟨hcurrent, hparent, hshort⟩, placeAt_some hdir]
    exact ⟨_, rfl, by simp⟩
  | case9 _ _ _ _ _ hcurrent hparent _ hshort _ hdir hrest ih =>
    rw [walk_directory ⟨hcurrent, hparent, hshort⟩ hopen hdir, if_neg hrest]
    exact ih hw
  | case12 _ _ _ _ _ _ _ _ _ _ _ _ hlast => cases hlast.2
  | case14 _ _ rest _ hcurrent hparent _ hshort _ _ hlink _ _ ih =>
    -- a link at the very end is there, though it is not followed
    by_cases hrest : rest = []
    · subst hrest
      rw [walk_last ⟨hcurrent, hparent, hshort⟩, placeAt_some hlink]
      exact ⟨_, rfl, by simp⟩
    · rw [walk_link ⟨hcurrent, hparent, hshort⟩ hopen hlink fun h => hrest h.1]
      exact ih hw

/-! ## Paths -/

theorem resolve_of_grows (h : fs.Grows fs') (hc : fs'.current = fs.current) (hr : fs.resolve mode path = .ok p)
    (hfree : ∀ loc, p = .free loc → fs'.entry? loc = none) : fs'.resolve mode path = .ok p := by
  have hw := resolve_eq_of_ok hr
  rw [hw] at hr ⊢
  rw [hc]
  exact walk_of_grows h hr hfree

theorem find_directory_of_ways (h : fs.Ways fs') (hc : fs'.current = fs.current)
    (hd : fs.find path = .ok (d, .directory)) : fs'.find path = .ok (d, .directory) := by
  rw [find_directory_iff] at hd ⊢
  obtain ⟨p, hr, hp⟩ := hd
  have hw := resolve_eq_of_ok hr
  refine ⟨p, ?_, hp⟩
  rw [hw] at hr ⊢
  rw [hc]
  exact walk_directory_of_ways h hr hp

theorem find_file_of_ways {id' : FileId} (h : fs.Ways fs') (hc : fs'.current = fs.current)
    (hf : fs.find path = .ok (loc, .file id)) (hend : fs'.entry? loc = some (.file id')) :
    fs'.find path = .ok (loc, .file id') := by
  rw [find_file_iff] at hf ⊢
  have hw := resolve_eq_of_ok hf
  rw [hw] at hf ⊢
  rw [hc]
  exact walk_file_of_ways h hf hend

theorem directory?_of_ways (h : fs.Ways fs') (hc : fs'.current = fs.current) (hd : fs.directory? base = some d) :
    fs'.directory? base = some d := by
  rw [directory?_eq_some_iff] at hd ⊢
  exact find_directory_of_ways h hc hd

theorem isDirectory_iff : fs.isDirectory path = true ↔ ∃ d, fs.find path = .ok (d, .directory) := by
  unfold isDirectory
  split
  · rename_i d h
    simp [h]
  · rename_i h
    simp only [Bool.false_eq_true, false_iff, not_exists]
    exact h

/-- Where a file can be opened for writing, what is put there is found. -/
theorem find_of_create (h : fs.Ways fs') (hc : fs'.current = fs.current)
    (hr : fs.resolve .create path = .ok (.free loc)) (hend : fs'.entry? loc = some entry)
    (hlink : ∀ target, entry ≠ .link target) : fs'.find path = .ok (loc, entry) := by
  have hw := resolve_eq_of_ok hr
  rw [find_eq_ok_iff]
  refine ⟨.taken loc entry, ?_, .inl rfl⟩
  rw [hw] at hr ⊢
  rw [hc]
  exact walk_of_create h hr (.inl rfl) hend hlink

theorem fileIn?_eq_some_iff {name : Text} : fs.fileIn? dir name = some (loc, id) ↔
    fs.walk .follow linkLimit dir [name] false = .ok (.taken loc (.file id)) := by
  unfold fileIn?
  split
  · rename_i h
    simp [h]
  · rename_i h
    simp only [reduceCtorEq, false_iff]
    exact h loc id

theorem fileIn?_of_grows {name : Text} (h : fs.Grows fs') (hfile : fs.fileIn? dir name = some (loc, id)) :
    fs'.fileIn? dir name = some (loc, id) := by
  rw [fileIn?_eq_some_iff] at hfile ⊢
  exact walk_of_grows h hfile (by simp)

/-! ## New directories -/

/-- Directories were put at free places, and nothing else was done. -/
structure AddsDirectories (fs fs' : FileSystem) : Prop where
  entries : ∀ loc, fs'.entry? loc = fs.entry? loc ∨ fs.entry? loc = none ∧ fs'.entry? loc = some .directory
  contents : fs'.contents = fs.contents
  next : fs'.next = fs.next
  locked : fs'.locked = fs.locked
  current : fs'.current = fs.current

namespace AddsDirectories

theorem refl (fs : FileSystem) : fs.AddsDirectories fs := ⟨fun _ => .inl rfl, rfl, rfl, rfl, rfl⟩

theorem trans (h : fs.AddsDirectories fs') (h' : fs'.AddsDirectories fs'') : fs.AddsDirectories fs'' where
  entries loc := by
    rcases h'.entries loc with he' | ⟨hnone, hdir⟩
    · rw [he']
      exact h.entries loc
    · rcases h.entries loc with he | ⟨hnone', -⟩
      · exact .inr ⟨he.symm.trans hnone, hdir⟩
      · exact .inr ⟨hnone', hdir⟩
  contents := h'.contents.trans h.contents
  next := h'.next.trans h.next
  locked := h'.locked.trans h.locked
  current := h'.current.trans h.current

theorem grows (h : fs.AddsDirectories fs') : fs.Grows fs' := by
  intro loc entry hentry
  rcases h.entries loc with he | ⟨hnone, -⟩
  · rw [he, hentry]
  · rw [hnone] at hentry
    cases hentry

theorem bytes (h : fs.AddsDirectories fs') (id : FileId) : fs'.bytes id = fs.bytes id := by
  rw [FileSystem.bytes, h.contents]
  rfl

end AddsDirectories

theorem makeDirectory_adds (h : fs.makeDirectory path = .ok fs') : fs.AddsDirectories fs' := by
  obtain ⟨place, hr, h⟩ := bind_eq_ok_iff.1 h
  cases place with
  | unnamed loc => cases h
  | taken loc entry => cases h
  | free loc =>
    cases h
    have hnone := entry?_of_resolve_free hr
    have hroot : loc ≠ .root := ne_root_of_entry? fs (by simp [hnone])
    refine ⟨fun loc' => ?_, rfl, rfl, rfl, rfl⟩
    rw [entry?_put hroot]
    by_cases hloc : loc' = loc
    · rw [if_pos hloc, hloc]
      exact .inr ⟨hnone, rfl⟩
    · rw [if_neg hloc]
      exact .inl rfl

theorem ensureDirectory_adds (fs : FileSystem) (path : Text) : fs.AddsDirectories (fs.ensureDirectory path).2 := by
  unfold ensureDirectory
  split
  · rename_i h
    exact makeDirectory_adds h
  · split <;> exact .refl fs

theorem makeDirectories_adds (fs : FileSystem) (path : Text) : fs.AddsDirectories (fs.makeDirectories path).2 := by
  fun_induction makeDirectories fs path with
  | case1 => exact .refl _
  | case2 _ _ _ h => exact makeDirectory_adds h
  | case3 => exact .refl _
  | case4 _ _ _ _ _ _ h ih =>
    rw [h] at ih
    exact ih.trans (ensureDirectory_adds _ _)
  | case5 _ _ _ _ _ _ _ h ih =>
    rw [h] at ih
    exact ih
  | case6 => exact .refl _
  | case7 => exact .refl _

theorem makeDirectories_eq (h : fs.directory? path = some d) : fs.makeDirectories path = (.ok (), fs) := by
  by_cases hpath : path = []
  · rw [makeDirectories, if_pos hpath]
  · rw [directory?_eq_some_iff, if_neg hpath] at h
    obtain ⟨p, hp, hd⟩ := find_directory_iff.1 h
    have hmake : fs.makeDirectory path = .error .alreadyExists := by
      have hw := resolve_eq_of_ok hp
      rw [hw] at hp
      obtain ⟨q, hq, hfree⟩ := walk_entry_of_directory hp hd
      rw [makeDirectory, hw, hq]
      cases q with
      | free loc => exact absurd rfl (hfree loc)
      | unnamed loc => rfl
      | taken loc entry => rfl
    have hdir : fs.isDirectory path = true := by rw [isDirectory, h]
    rw [makeDirectories, if_neg hpath, hmake]
    simp [hdir]

end ScenarioDocs.FileSystem
