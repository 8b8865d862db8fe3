import ScenarioDocs.FileSystem.Operations
import ScenarioDocs.Proofs.Lookup

/-!
# Entries and bytes after a change

A change at one location leaves the others alone, and so does a change of a
file's bytes.
-/

namespace ScenarioDocs

namespace FileSystem

variable {fs : FileSystem} {loc l : Location} {entry : Entry} {id : FileId} {bs : Bytes}

@[simp] theorem entry?_root : fs.entry? .root = some .directory := if_pos rfl

theorem ne_root_of_entry? (fs : FileSystem) (h : fs.entry? loc ≠ some .directory) : loc ≠ .root := by
  rintro rfl
  exact h entry?_root

theorem entry?_put (hloc : loc ≠ .root) :
    FileSystem.entry? (fs.put loc entry) l = if l = loc then some entry else fs.entry? l := by
  unfold entry? put
  by_cases hl : l = loc
  · rw [if_pos hl, if_neg (hl ▸ hloc), lookup_cons, if_pos hl]
  · rw [if_neg hl, lookup_cons, if_neg hl, lookup_filter_ne, if_neg hl]

theorem entry?_erase (hloc : loc ≠ .root) :
    FileSystem.entry? (fs.erase loc) l = if l = loc then none else fs.entry? l := by
  unfold entry? erase
  rw [lookup_filter_ne]
  by_cases hl : l = loc
  · rw [if_neg (hl ▸ hloc), if_pos hl, if_pos hl]
  · rw [if_neg hl, if_neg hl]

theorem bytes_setBytes : (fs.setBytes id bs).bytes id = bs := by
  rw [bytes, setBytes, lookup_cons, if_pos rfl]
  rfl

theorem bytes_setBytes_ne {id' : FileId} (h : id' ≠ id) : (fs.setBytes id bs).bytes id' = fs.bytes id' := by
  rw [bytes, setBytes, lookup_cons, if_neg h, lookup_filter_ne, if_neg h]
  rfl

end FileSystem

end ScenarioDocs
