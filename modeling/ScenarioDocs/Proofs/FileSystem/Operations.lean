import ScenarioDocs.Proofs.FileSystem.Entries
import ScenarioDocs.Proofs.FileSystem.Walk
import ScenarioDocs.Proofs.Outcome
import ScenarioDocs.Proofs.Text.Utf8

/-!
# Reading and moving

What reading a file and moving it come to, given where the paths lead.
-/

namespace ScenarioDocs.FileSystem

variable {fs fs' : FileSystem} {path source target : Text} {loc dest : Location} {id : FileId} {entry : Entry}

theorem see_placeAt : fs.see (fs'.placeAt loc) = fs.placeAt loc := by
  unfold placeAt
  cases fs'.entry? loc <;> rfl

/-! ## Bytes -/

theorem bytes_appendBytes {bs : Bytes} (h : fs.bytes id = []) : (fs.appendBytes id bs).bytes id = bs := by
  rw [appendBytes, bytes_setBytes, h, List.nil_append]

theorem bytes_appendBytes_ne {id' : FileId} {bs : Bytes} (h : id' ≠ id) :
    (fs.appendBytes id bs).bytes id' = fs.bytes id' :=
  bytes_setBytes_ne h

/-! ## Reading -/

theorem read_eq (fs : FileSystem) (path : Text) :
    fs.read path =
      match fs.resolve .follow path with
      | .ok (.taken _ (.file id)) => .ok (fs.bytes id)
      | .ok (.free _) => .error .notFound
      | .ok _ => .error .isDirectory
      | .error e => .error e := by
  unfold read find
  cases fs.resolve .follow path with
  | error e => rfl
  | ok place =>
    cases place with
    | unnamed loc => rfl
    | free loc => rfl
    | taken loc entry => cases entry <;> rfl

theorem read_congr (h : ∀ loc, fs'.entry? loc = fs.entry? loc) (hbytes : ∀ id, fs'.bytes id = fs.bytes id)
    (hc : fs'.current = fs.current) : fs'.read path = fs.read path := by
  rw [read_eq, read_eq, resolve_congr h hc]
  simp only [hbytes]

/-! Locks bar no way. -/

theorem resolve_withLocks (fs : FileSystem) (locked : List FileId) (mode : LastName) (path : Text) :
    resolve { fs with locked := locked } mode path = fs.resolve mode path :=
  resolve_congr (fun _ => rfl) rfl

theorem read_withLocks (fs : FileSystem) (locked : List FileId) (path : Text) :
    read { fs with locked := locked } path = fs.read path :=
  read_congr (fun _ => rfl) (fun _ => rfl) rfl

theorem readText_of_read {t : Text} (h : fs.read path = .ok (Utf8.encode t)) : fs.readText path = .ok t := by
  simp [readText, h, Utf8.decode?_encode, bind, Except.bind, pure, Except.pure]

theorem read_eq_notFound_iff : fs.read path = .error .notFound ↔
    fs.resolve .follow path = .error .notFound ∨ ∃ loc, fs.resolve .follow path = .ok (.free loc) := by
  rw [read_eq]
  split <;> simp_all

theorem exists_file_of_read {bs : Bytes} (h : fs.read path = .ok bs) :
    ∃ loc id, fs.resolve .follow path = .ok (.taken loc (.file id)) := by
  rw [read_eq] at h
  split at h
  · rename_i loc id hr
    exact ⟨loc, id, hr⟩
  all_goals cases h

theorem exists_entry_of_read {bs : Bytes} (h : fs.read path = .ok bs) :
    endsInSlash path = false ∧
      ∃ loc entry, entry ≠ .directory ∧ fs.resolve .entry path = .ok (.taken loc entry) := by
  obtain ⟨loc, id, hr⟩ := exists_file_of_read h
  have hslash := resolve_file_slash (by simp) hr
  refine ⟨hslash, ?_⟩
  by_cases hend : ∃ loc target, fs.resolve .entry path = .ok (.taken loc (.link target))
  · obtain ⟨loc', target, hlink⟩ := hend
    exact ⟨loc', .link target, by simp, hlink⟩
  · have heq : fs.resolve .follow path = fs.resolve .entry path :=
      resolve_eq_entry hslash fun loc target h => hend ⟨loc, target, h⟩
    exact ⟨loc, .file id, by simp, heq ▸ hr⟩

/-! ## Moving -/

section
variable (hsource : fs.resolve .entry source = .ok (.taken loc (.file id)))
include hsource

theorem move_file_inv (h : fs.move source target = .ok fs') :
    ∃ dest, endsInSlash target = false ∧ fs.resolve .entry target = .ok (fs.placeAt dest) ∧
      fs.entry? dest ≠ some .directory ∧
      (fs' = fs ∧ fs.entry? dest = some (.file id) ∨ fs' = (fs.erase loc).put dest (.file id)) := by
  have hloc := entry?_of_resolve hsource
  obtain ⟨place, hsource', h⟩ := bind_eq_ok_iff.1 h
  rw [hsource] at hsource'
  cases hsource'
  obtain ⟨place, htarget, h⟩ := bind_eq_ok_iff.1 h
  rw [htarget, ← see_of_resolve htarget]
  cases place with
  | unnamed dest => cases h
  | free dest =>
    have hdest := entry?_of_resolve_free htarget
    simp only at h
    split at h
    · cases h
    · rename_i hslash
      cases h
      exact ⟨dest, by simpa using hslash, rfl, by simp [hdest], .inr rfl⟩
  | taken dest replaced =>
    have hdest := entry?_of_resolve htarget
    simp only at h
    split at h
    · cases h
    · rename_i hslash
      refine ⟨dest, by simpa using hslash, rfl, ?_⟩
      cases replaced with
      | directory => cases h
      | file id' =>
        refine ⟨by simp [hdest], ?_⟩
        simp only at h
        -- a file is not moved onto itself
        by_cases hid : id = id'
        · rw [if_pos hid] at h
          cases h
          exact .inl ⟨rfl, hid ▸ hdest⟩
        · rw [if_neg hid] at h
          cases h
          exact .inr rfl
      | link t =>
        have hne : loc ≠ dest := by
          rintro rfl
          rw [hloc] at hdest
          cases hdest
        simp only [if_neg hne] at h
        cases h
        exact ⟨by simp [hdest], .inr rfl⟩

theorem exists_move_file (htarget : fs.resolve .entry target = .ok (.taken dest entry))
    (hentry : entry ≠ .directory) (hslash : endsInSlash target = false) :
    ∃ fs', fs.move source target = .ok fs' := by
  rw [move, hsource]
  simp only [htarget, bind, Except.bind, hslash]
  cases entry with
  | directory => exact absurd rfl hentry
  | file id' => exact ⟨_, rfl⟩
  | link t => exact ⟨_, rfl⟩

end

end ScenarioDocs.FileSystem
