import ScenarioDocs.FileSystem.Lookup

/-!
# Trees

A file system is a tree if every entry lies in a directory and has a name
that a path can spell.
-/

namespace ScenarioDocs

structure IsName (name : Text) : Prop where
  nonempty : name ≠ []
  noSlash : '/' ∉ name
  noNul : '\x00' ∉ name
  notCurrent : name ≠ ['.']
  notParent : name ≠ ['.', '.']
  short : (Utf8.encode name).length ≤ FileSystem.nameLimit

instance (name : Text) : Decidable (IsName name) :=
  decidable_of_iff (name ≠ [] ∧ '/' ∉ name ∧ '\x00' ∉ name ∧ name ≠ ['.'] ∧ name ≠ ['.', '.'] ∧
      (Utf8.encode name).length ≤ FileSystem.nameLimit)
    ⟨fun ⟨nonempty, noSlash, noNul, notCurrent, notParent, short⟩ =>
      ⟨nonempty, noSlash, noNul, notCurrent, notParent, short⟩,
      fun h => ⟨h.nonempty, h.noSlash, h.noNul, h.notCurrent, h.notParent, h.short⟩⟩

namespace FileSystem

structure IsTree (fs : FileSystem) : Prop where
  distinct : (fs.entries.map (·.1)).Nodup
  inDirectory : ∀ p ∈ fs.entries, fs.entry? p.1.parent = some .directory
  named : ∀ p ∈ fs.entries, ∃ (dir : Location) (name : Text), p.1 = dir.child name ∧ IsName name
  /-- Identities are given out in order. -/
  known : ∀ loc id, (loc, Entry.file id) ∈ fs.entries → id < fs.next
  current : fs.entry? fs.current = some .directory

/-- The identities of the files that are there were given out before. -/
def Known (fs : FileSystem) : Prop := ∀ loc id, fs.entry? loc = some (.file id) → id < fs.next

/-- A later state of the files: identities are not used again, and nobody else has taken or given up a lock. -/
structure Later (fs fs' : FileSystem) : Prop where
  locked : fs'.locked = fs.locked
  next : fs.next ≤ fs'.next
  known : fs.Known → fs'.Known

end FileSystem

end ScenarioDocs
