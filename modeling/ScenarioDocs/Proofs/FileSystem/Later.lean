import ScenarioDocs.FileSystem.Tree
import ScenarioDocs.Proofs.FileSystem.Growth

/-!
# Identities and locks

No operation on files uses an identity again or touches a lock.
-/

namespace ScenarioDocs.FileSystem

variable {fs fs' fs'' fs1 : FileSystem} {path source target : Text} {loc dest : Location} {entry : Entry} {id : FileId}
  {bs : Bytes} {r : Except SystemError Unit}

namespace Later

theorem refl (fs : FileSystem) : fs.Later fs := ⟨rfl, Nat.le_refl _, id⟩

theorem trans (h : fs.Later fs') (h' : fs'.Later fs'') : fs.Later fs'' :=
  ⟨h'.locked.trans h.locked, Nat.le_trans h.next h'.next, fun hk => h'.known (h.known hk)⟩

end Later

theorem AddsDirectories.later (h : fs.AddsDirectories fs') : fs.Later fs' := by
  refine ⟨h.locked, Nat.le_of_eq h.next.symm, fun hk loc id hentry => ?_⟩
  rcases h.entries loc with he | ⟨-, hdir⟩
  · rw [h.next]
    exact hk loc id (he.symm.trans hentry)
  · rw [hdir] at hentry
    cases hentry

/-! ## Entries and bytes -/

theorem put_later (hroot : loc ≠ .root) (h : ∀ id, entry = .file id → id < fs.next) :
    fs.Later (fs.put loc entry) := by
  refine ⟨rfl, Nat.le_refl _, fun hk l id hentry => ?_⟩
  rw [entry?_put hroot] at hentry
  by_cases hl : l = loc
  · rw [if_pos hl, Option.some.injEq] at hentry
    exact h id hentry
  · rw [if_neg hl] at hentry
    exact hk l id hentry

theorem erase_later (hroot : loc ≠ .root) : fs.Later (fs.erase loc) := by
  refine ⟨rfl, Nat.le_refl _, fun hk l id hentry => ?_⟩
  rw [entry?_erase hroot] at hentry
  by_cases hl : l = loc
  · rw [if_pos hl] at hentry
    cases hentry
  · rw [if_neg hl] at hentry
    exact hk l id hentry

theorem setBytes_later (fs : FileSystem) (id : FileId) (bs : Bytes) : fs.Later (fs.setBytes id bs) :=
  ⟨rfl, Nat.le_refl _, fun hk => hk⟩

theorem entry?_newFile (hroot : loc ≠ .root) {l : Location} :
    FileSystem.entry? (fs.newFile loc).2 l = if l = loc then some (.file fs.next) else fs.entry? l :=
  entry?_put hroot

theorem newFile_later (hroot : loc ≠ .root) : fs.Later (fs.newFile loc).2 := by
  refine ⟨rfl, Nat.le_succ _, fun hk l id hentry => ?_⟩
  rw [entry?_newFile hroot] at hentry
  change id < fs.next + 1
  by_cases hl : l = loc
  · rw [if_pos hl] at hentry
    cases hentry
    exact Nat.lt_succ_self _
  · rw [if_neg hl] at hentry
    exact Nat.lt_succ_of_lt (hk l id hentry)

/-! ## Operations -/

theorem openForWriting_cases (h : fs.openForWriting path = .ok (id, fs')) : ∃ loc,
    fs.resolve .create path = .ok (.taken loc (.file id)) ∧ fs' = fs ∨
      fs.resolve .create path = .ok (.free loc) ∧ id = fs.next ∧ fs' = (fs.newFile loc).2 ∧ loc ≠ .root := by
  obtain ⟨place, hr, h⟩ := bind_eq_ok_iff.1 h
  cases place with
  | unnamed loc => cases h
  | free loc =>
    have hroot : loc ≠ .root := ne_root_of_entry? fs (by simp [entry?_of_resolve_free hr])
    cases h
    exact ⟨loc, .inr ⟨hr, rfl, rfl, hroot⟩⟩
  | taken loc entry =>
    cases entry with
    | directory => cases h
    | link t => cases h
    | file id' =>
      cases h
      exact ⟨loc, .inl ⟨hr, rfl⟩⟩

theorem openForWriting_later (h : fs.openForWriting path = .ok (id, fs')) : fs.Later fs' := by
  obtain ⟨loc, ⟨-, rfl⟩ | ⟨-, -, rfl, hroot⟩⟩ := openForWriting_cases h
  · exact .refl _
  · exact newFile_later hroot

theorem openForWriting_grows (h : fs.openForWriting path = .ok (id, fs')) : fs.Grows fs' := by
  obtain ⟨loc, ⟨-, rfl⟩ | ⟨hr, -, rfl, hroot⟩⟩ := openForWriting_cases h
  · exact fun _ _ h => h
  · intro l entry hentry
    have hne : l ≠ loc := by
      rintro rfl
      rw [entry?_of_resolve_free hr] at hentry
      cases hentry
    rw [entry?_newFile hroot, if_neg hne, hentry]

theorem openForWriting_ways (h : fs.openForWriting path = .ok (id, fs')) : fs'.Ways fs := by
  obtain ⟨loc, ⟨-, rfl⟩ | ⟨-, -, rfl, hroot⟩⟩ := openForWriting_cases h
  · exact .refl _
  · apply Ways.of_entry?
    intro l
    rw [entry?_newFile hroot]
    by_cases hl : l = loc
    · rw [if_pos hl]
      exact .inr (.inr ⟨_, rfl⟩)
    · rw [if_neg hl]
      exact .inl rfl

theorem openForWriting_current (h : fs.openForWriting path = .ok (id, fs')) : fs'.current = fs.current := by
  obtain ⟨loc, ⟨-, rfl⟩ | ⟨-, -, rfl, -⟩⟩ := openForWriting_cases h <;> rfl

theorem create_later (h : fs.create path = .ok (id, fs')) : fs.Later fs' := by
  obtain ⟨⟨id', fs1⟩, hopen, h⟩ := bind_eq_ok_iff.1 h
  cases h
  exact (openForWriting_later hopen).trans (setBytes_later _ _ _)

theorem remove_inv (h : fs.remove path = .ok fs') : ∃ loc entry, fs.resolve .entry path = .ok (.taken loc entry) ∧
    entry ≠ .directory ∧ fs' = fs.erase loc := by
  obtain ⟨place, hr, h⟩ := bind_eq_ok_iff.1 h
  cases place with
  | unnamed loc => cases h
  | free loc => cases h
  | taken loc entry =>
    refine ⟨loc, entry, hr, ?_⟩
    cases entry with
    | directory => cases h
    | file id | link t =>
      refine ⟨by simp, ?_⟩
      simp only at h
      split at h
      · cases h
      · exact (Except.ok.inj h).symm

theorem remove_later (h : fs.remove path = .ok fs') : fs.Later fs' := by
  obtain ⟨loc, entry, hr, hne, rfl⟩ := remove_inv h
  have hentry := entry?_of_resolve hr
  have hroot : loc ≠ .root := ne_root_of_entry? fs (by simpa [hentry] using hne)
  exact erase_later hroot

theorem directory?_placeAt (h : fs.entry? loc ≠ some .directory) : (fs.placeAt loc).directory? = none := by
  cases hentry : fs.entry? loc with
  | none =>
    rw [placeAt_none hentry]
    rfl
  | some entry =>
    rw [placeAt_some hentry]
    cases entry with
    | directory => exact absurd hentry h
    | file id => rfl
    | link t => rfl

theorem move_inv (h : fs.move source target = .ok fs') : ∃ loc entry dest,
    fs.resolve .entry source = .ok (.taken loc entry) ∧ entry ≠ .directory ∧
      fs.resolve .entry target = .ok (fs.placeAt dest) ∧ fs.entry? dest ≠ some .directory ∧ endsInSlash target = false ∧
      (fs' = fs ∨ fs' = (fs.erase loc).put dest entry) := by
  obtain ⟨place, hsource, hplace⟩ := bind_eq_ok_iff.1 h
  cases place with
  | unnamed loc => cases hplace
  | free loc => cases hplace
  | taken loc moved =>
    cases moved with
    | directory => cases hplace
    | file id =>
      obtain ⟨dest, hslash, htarget, hdest, hmoved⟩ := move_file_inv hsource h
      exact ⟨loc, .file id, dest, hsource, by simp, htarget, hdest, hslash, hmoved.imp_left And.left⟩
    | link t =>
      -- a link is moved as it is, wherever it leads
      obtain ⟨place, htarget, h⟩ := bind_eq_ok_iff.1 hplace
      cases place with
      | unnamed dest => cases h
      | free dest =>
        have hdest := entry?_of_resolve_free htarget
        simp only at h
        split at h
        · cases h
        · rename_i hslash
          cases h
          exact ⟨loc, .link t, dest, hsource, by simp, by rw [placeAt_none hdest, htarget], by simp [hdest],
            by simpa using hslash, .inr rfl⟩
      | taken dest replaced =>
        have hdest := entry?_of_resolve htarget
        simp only at h
        split at h
        · cases h
        · rename_i hslash
          refine ⟨loc, .link t, dest, hsource, by simp, by rw [placeAt_some hdest, htarget], ?_, by simpa using hslash,
            ?_⟩
          · rintro hdir
            rw [hdir] at hdest
            cases hdest
            cases h
          · cases replaced with
            | directory => cases h
            | file id' | link t' =>
              have h : (if loc = dest then fs else (fs.erase loc).put dest (.link t)) = fs' := Except.ok.inj h
              split at h
              · exact .inl h.symm
              · exact .inr h.symm

theorem move_later (h : fs.move source target = .ok fs') : fs.Later fs' := by
  obtain ⟨loc, entry, dest, hr, hne, -, hdest, -, rfl | rfl⟩ := move_inv h
  · exact .refl _
  · have hentry := entry?_of_resolve hr
    have hroot : loc ≠ .root := ne_root_of_entry? fs (by simpa [hentry] using hne)
    have hdestRoot : dest ≠ .root := ne_root_of_entry? fs hdest
    have herase : fs.Later (fs.erase loc) := erase_later hroot
    refine ⟨rfl, Nat.le_refl _, fun hk => ?_⟩
    have hput : (fs.erase loc).Later ((fs.erase loc).put dest entry) :=
      put_later hdestRoot fun id hid => hk loc id (hid ▸ hentry)
    exact hput.known (herase.known hk)

/-! ## Operations beside new directories -/

/-- Whether a move succeeds depends on where its paths lead only. -/
theorem exists_move_iff : (∃ fs', fs.move source target = .ok fs') ↔ ∃ loc entry place,
    fs.resolve .entry source = .ok (.taken loc entry) ∧ entry ≠ .directory ∧ fs.resolve .entry target = .ok place ∧
      place.directory? = none ∧ endsInSlash target = false := by
  constructor
  · rintro ⟨fs', h⟩
    obtain ⟨loc, entry, dest, hsource, hentry, htarget, hdest, hslash, -⟩ := move_inv h
    exact ⟨loc, entry, _, hsource, hentry, htarget, directory?_placeAt hdest, hslash⟩
  · rintro ⟨loc, entry, place, hsource, hentry, htarget, hplace, hslash⟩
    unfold move
    rw [hsource]
    simp only [bind, Except.bind, htarget, hslash]
    cases entry with
    | directory => exact absurd rfl hentry
    | file id | link t =>
      cases place with
      | unnamed dest => cases hplace
      | free dest => exact ⟨_, rfl⟩
      | taken dest replaced =>
        cases replaced with
        | directory => cases hplace
        | file id' | link t' => exact ⟨_, rfl⟩

/-! ## Reading what was written -/

/-- A file that was opened for writing is found at its path, as long as the entries stay. -/
theorem find_of_openForWriting (hopen : fs.openForWriting path = .ok (id, fs1)) (he : fs'.entries = fs1.entries)
    (hc : fs'.current = fs1.current) : ∃ loc, fs'.find path = .ok (loc, .file id) := by
  have hentry (l : Location) : fs'.entry? l = fs1.entry? l := by
    unfold entry?
    rw [he]
  have hways : fs.Ways fs' := by
    intro l entry h _
    rw [hentry]
    exact openForWriting_grows hopen l entry h
  obtain ⟨p, loc, hr, hp, hend⟩ : ∃ p loc, fs.resolve .create path = .ok p ∧
      (p = .free loc ∨ ∃ id, p = .taken loc (.file id)) ∧ fs1.entry? loc = some (.file id) := by
    obtain ⟨loc, ⟨hr, rfl⟩ | ⟨hr, rfl, rfl, hroot⟩⟩ := openForWriting_cases hopen
    · exact ⟨_, loc, hr, .inr ⟨id, rfl⟩, entry?_of_resolve hr⟩
    · exact ⟨_, loc, hr, .inl rfl, by rw [entry?_newFile hroot, if_pos rfl]⟩
  have hw := resolve_eq_of_ok hr
  refine ⟨loc, find_eq_ok_iff.2 ⟨.taken loc (.file id), ?_, .inl rfl⟩⟩
  rw [hw] at hr ⊢
  rw [hc, openForWriting_current hopen]
  exact walk_of_create hways hr hp ((hentry loc).trans hend) (by simp)

theorem read_of_write (h : fs.write path bs = .ok fs') : fs'.read path = .ok bs := by
  obtain ⟨⟨id, fs2⟩, hcreate, h⟩ := bind_eq_ok_iff.1 h
  obtain ⟨⟨id', fs1⟩, hopen, hempty⟩ := bind_eq_ok_iff.1 hcreate
  cases hempty
  cases h
  obtain ⟨loc, hfind⟩ : ∃ loc, ((fs1.setBytes id []).appendBytes id bs).find path = .ok (loc, .file id) :=
    find_of_openForWriting hopen rfl rfl
  rw [read, hfind]
  exact congrArg Except.ok (bytes_appendBytes bytes_setBytes)

theorem exists_write (bs : Bytes) (h : fs.openForWriting path = .ok (id, fs1)) : ∃ fs', fs.write path bs = .ok fs' := by
  rw [write, create, h]
  exact ⟨_, rfl⟩

section
variable (h : fs.AddsDirectories fs')
include h

theorem AddsDirectories.setBytes (id : FileId) (bs : Bytes) :
    (fs.setBytes id bs).AddsDirectories (fs'.setBytes id bs) where
  entries := h.entries
  contents := by
    change (id, bs) :: fs'.contents.filter _ = (id, bs) :: fs.contents.filter _
    rw [h.contents]
  next := h.next
  locked := h.locked
  current := h.current

theorem read_of_adds (hread : fs.read path = .ok bs) : fs'.read path = .ok bs := by
  obtain ⟨loc, id, hr⟩ := exists_file_of_read hread
  have hr' := resolve_of_grows h.grows h.current hr (by simp)
  rw [read_eq, hr] at hread
  rw [read_eq, hr', ← hread]
  exact congrArg Except.ok (h.bytes id)

theorem AddsDirectories.appendBytes (id : FileId) (bs : Bytes) :
    (fs.appendBytes id bs).AddsDirectories (fs'.appendBytes id bs) := by
  rw [FileSystem.appendBytes, FileSystem.appendBytes, h.bytes]
  exact h.setBytes id _

/-- A file that could be opened for writing still can, unless a directory has taken its place. -/
theorem openForWriting_of_adds (hopen : fs.openForWriting path = .ok (id, fs1)) (hdir : fs'.isDirectory path = false) :
    ∃ fs1', fs'.openForWriting path = .ok (id, fs1') ∧ fs1.AddsDirectories fs1' := by
  obtain ⟨loc, ⟨hr, rfl⟩ | ⟨hr, rfl, rfl, hroot⟩⟩ := openForWriting_cases hopen
  · have hr' := resolve_of_grows h.grows h.current hr (by simp)
    refine ⟨fs', ?_, h⟩
    rw [openForWriting, hr']
    rfl
  · have hnone : fs'.entry? loc = none := by
      rcases h.entries loc with he | ⟨-, he⟩
      · rw [he, entry?_of_resolve_free hr]
      · have hfind := find_of_create h.grows.ways h.current hr he (by simp)
        rw [isDirectory_iff.2 ⟨loc, hfind⟩] at hdir
        cases hdir
    have hr' := resolve_of_grows h.grows h.current hr fun l hl => by
      rw [← Place.free.inj hl]
      exact hnone
    refine ⟨(fs'.newFile loc).2, ?_, fun l => ?_, ?_, ?_, h.locked, h.current⟩
    · rw [openForWriting, hr', ← h.next]
      rfl
    · rw [entry?_newFile hroot, entry?_newFile hroot, h.next]
      by_cases hl : l = loc
      · rw [if_pos hl, if_pos hl]
        exact .inl rfl
      · rw [if_neg hl, if_neg hl]
        exact h.entries l
    · change (fs'.next, []) :: fs'.contents.filter _ = (fs.next, []) :: fs.contents.filter _
      rw [h.contents, h.next]
    · exact congrArg (· + 1) h.next

theorem move_of_adds (hmove : ∃ fs1, fs.move source target = .ok fs1) (hdir : fs'.isDirectory target = false) :
    ∃ fs1, fs'.move source target = .ok fs1 := by
  rw [exists_move_iff] at hmove ⊢
  obtain ⟨loc, entry, place, hsource, hentry, htarget, hplace, hslash⟩ := hmove
  refine ⟨loc, entry, place, resolve_of_grows h.grows h.current hsource (by simp), hentry, ?_, hplace, hslash⟩
  refine resolve_of_grows h.grows h.current htarget fun dest hdest => ?_
  subst hdest
  rcases h.entries dest with he | ⟨-, he⟩
  · rw [he, entry?_of_resolve_free htarget]
  · -- the target would be a new directory
    have hr := resolve_of_ways h.grows.ways h.current htarget
    rw [see, placeAt_some he] at hr
    have hfollow : fs'.resolve .follow target = .ok (.taken dest .directory) := by
      rw [resolve_eq_entry hslash (by simp [hr]), hr]
    rw [isDirectory_iff.2 ⟨dest, find_eq_ok_iff.2 ⟨_, hfollow, .inl rfl⟩⟩] at hdir
    cases hdir

end

end ScenarioDocs.FileSystem
