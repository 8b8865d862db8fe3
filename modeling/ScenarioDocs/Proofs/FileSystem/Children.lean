import Mathlib.Data.List.Sort
import ScenarioDocs.Proofs.FileSystem.Later
import ScenarioDocs.Proofs.FileSystem.Tree

/-!
# What is in a directory

A directory gives every name at most one entry, and what is read off its
children depends on these only, not on the order in which they were made.
-/

namespace ScenarioDocs.FileSystem

variable {α : Type} {fs fs' : FileSystem} {dir : Location} {path source target : Text} {id : FileId}

/-! ## Operations give no location a second entry -/

namespace Distinct

theorem erase (h : fs.Distinct) (loc : Location) : (fs.erase loc).Distinct :=
  h.sublist (List.filter_sublist.map _)

theorem put (h : fs.Distinct) (loc : Location) (entry : Entry) : (fs.put loc entry).Distinct := by
  refine List.nodup_cons.2 ⟨fun hmem => ?_, h.erase loc⟩
  obtain ⟨p, hp, hloc⟩ := List.mem_map.1 hmem
  simpa [hloc] using (List.mem_filter.1 hp).2

theorem openForWriting (h : fs.Distinct) (hopen : fs.openForWriting path = .ok (id, fs')) : fs'.Distinct := by
  obtain ⟨loc, ⟨-, rfl⟩ | ⟨-, -, rfl, -⟩⟩ := openForWriting_cases hopen
  · exact h
  · exact h.put loc _

theorem move (h : fs.Distinct) (hmove : fs.move source target = .ok fs') : fs'.Distinct := by
  obtain ⟨loc, entry, dest, -, -, -, -, -, rfl | rfl⟩ := move_inv hmove
  · exact h
  · exact (h.erase loc).put dest entry

theorem makeDirectory (h : fs.Distinct) (hmake : fs.makeDirectory path = .ok fs') : fs'.Distinct := by
  obtain ⟨place, -, hmake⟩ := bind_eq_ok_iff.1 hmake
  cases place with
  | unnamed loc => cases hmake
  | taken loc entry => cases hmake
  | free loc =>
    cases hmake
    exact h.put loc .directory

theorem ensureDirectory (h : fs.Distinct) (path : Text) : (fs.ensureDirectory path).2.Distinct := by
  unfold FileSystem.ensureDirectory
  split
  · rename_i hmake
    exact h.makeDirectory hmake
  · split <;> exact h

theorem makeDirectories (h : fs.Distinct) (path : Text) : (fs.makeDirectories path).2.Distinct := by
  fun_induction FileSystem.makeDirectories fs path with
  | case1 => exact h
  | case2 _ _ _ hmake => exact h.makeDirectory hmake
  | case3 => exact h
  | case4 _ _ _ _ _ _ hparent ih =>
    rw [hparent] at ih
    exact ih.ensureDirectory _
  | case5 _ _ _ _ _ _ _ hparent ih =>
    rw [hparent] at ih
    exact ih
  | case6 => exact h
  | case7 => exact h

end Distinct

/-! ## Children in order -/

theorem nodup_children (h : fs.Distinct) (dir : Location) : (fs.children dir).Nodup := by
  unfold children
  rw [(List.mergeSort_perm _ _).nodup_iff]
  refine (List.Nodup.of_map _ h).filterMap fun p q c hp hq => ?_
  have hchild {p : Location × Entry}
      (hp : c ∈ if p.1.parent = dir then p.1.name?.map (·, p.2) else none) : p = (dir.child c.1, c.2) := by
    obtain ⟨hparent, hp⟩ := Option.ite_none_right_eq_some.1 hp
    obtain ⟨name, hname, rfl⟩ := Option.map_eq_some_iff.1 hp
    rw [← hparent, Location.child_parent hname]
  rw [hchild hp, hchild hq]

theorem sorted_children (h : fs.Distinct) (dir : Location) : (fs.children dir).Pairwise fun a b => a.1 < b.1 := by
  have hle : (fs.children dir).Pairwise fun a b => !decide (b.1 < a.1) := by
    apply List.pairwise_mergeSort
    · intro a b c hab hbc
      simp only [Bool.not_eq_true', decide_eq_false_iff_not] at hab hbc ⊢
      exact List.le_trans hab hbc
    · intro a b
      simp only [Bool.or_eq_true, Bool.not_eq_true', decide_eq_false_iff_not]
      exact List.le_total a.1 b.1
  refine (hle.and (nodup_children h dir)).imp_of_mem fun {a b} ha hb hab => ?_
  have hne : a.1 ≠ b.1 := by
    intro hname
    have ha := h.mem_children_iff.1 ha
    rw [hname, h.mem_children_iff.1 hb] at ha
    exact hab.2 (Prod.ext hname (Option.some.inj ha).symm)
  have hle : ¬b.1 < a.1 := by simpa using hab.1
  by_contra hge
  exact hne (List.le_antisymm hle hge)

/-! ## What is read off the children -/

section
variable (read : Text → Entry → Option α)

/-- The names in a directory that something is read off, with what it is. -/
def readings (fs : FileSystem) (dir : Location) : List (Text × α) :=
  (fs.children dir).filterMap fun c => (read c.1 c.2).map (c.1, ·)

theorem map_readings (fs : FileSystem) (dir : Location) :
    (readings read fs dir).map (·.2) = (fs.children dir).filterMap fun c => read c.1 c.2 := by
  rw [readings, List.map_filterMap]
  simp

variable (h : fs.Distinct)
include h

theorem mem_readings_iff {b : Text × α} :
    b ∈ readings read fs dir ↔ (fs.entry? (dir.child b.1)).bind (read b.1) = some b.2 := by
  rw [readings, List.mem_filterMap, Option.bind_eq_some_iff]
  constructor
  · rintro ⟨c, hc, hb⟩
    obtain ⟨a, ha, rfl⟩ := Option.map_eq_some_iff.1 hb
    exact ⟨c.2, h.mem_children_iff.1 hc, ha⟩
  · rintro ⟨entry, hentry, hb⟩
    exact ⟨(b.1, entry), h.mem_children_iff.2 hentry, Option.map_eq_some_iff.2 ⟨b.2, hb, rfl⟩⟩

theorem sorted_readings (dir : Location) : (readings read fs dir).Pairwise fun a b => a.1 < b.1 := by
  refine (sorted_children h dir).filterMap _ fun a a' hlt b hb b' hb' => ?_
  obtain ⟨_, -, rfl⟩ := Option.map_eq_some_iff.1 hb
  obtain ⟨_, -, rfl⟩ := Option.map_eq_some_iff.1 hb'
  exact hlt

end

/-- What is read off the children of a directory depends on what each name stands for. -/
theorem filterMap_children_eq (read read' : Text → Entry → Option α) (h : fs.Distinct) (h' : fs'.Distinct)
    (hread : ∀ name, (fs'.entry? (dir.child name)).bind (read' name) = (fs.entry? (dir.child name)).bind (read name)) :
    (fs'.children dir).filterMap (fun c => read' c.1 c.2) = (fs.children dir).filterMap fun c => read c.1 c.2 := by
  -- with the names beside them, the readings are in order, and so told by their members
  have hirrefl : Std.Irrefl fun a b : Text × α => a.1 < b.1 := ⟨fun a => List.lt_irrefl a.1⟩
  have hantisymm : Std.Antisymm fun a b : Text × α => a.1 < b.1 := ⟨fun _ _ hab hba => (List.lt_asymm hab hba).elim⟩
  have hreadings : readings read' fs' dir = readings read fs dir := by
    apply (sorted_readings read' h' dir).eq_of_mem_iff (sorted_readings read h dir)
    intro b
    rw [mem_readings_iff read' h', mem_readings_iff read h, hread]
  rw [← map_readings, hreadings, map_readings]

end ScenarioDocs.FileSystem
