import ScenarioDocs.Proofs.FileSystem.Directories

/-!
# Names within a directory

A name joined to a directory is the last segment of the path, and what is
before it is the directory, up to segments that name nothing. So are the names
beside it.
-/

namespace ScenarioDocs

namespace Path

variable {base dir name ending p q : Text} {l : List Text}

/-! ## Spellings of one path -/

def parts (p : Text) : Text × List Text :=
  match Text.pieces '/' p with
  | [] => ([], [])
  | first :: others => (first, others.filter fun x => !isIdle x)

/-- The same path, but for segments that name nothing. -/
def Same (p q : Text) : Prop := isAbsolute p = isAbsolute q ∧ parts p = parts q

structure Within (p dir name : Text) : Prop where
  fileName : fileName? p = some name
  parent : ∃ d, parent? p = some d ∧ Same d dir

structure IsFileName (name : Text) : Prop where
  nonempty : name ≠ []
  noSlash : '/' ∉ name
  notCurrent : name ≠ ['.']
  notParent : name ≠ ['.', '.']

theorem Same.refl (p : Text) : Same p p := ⟨rfl, rfl⟩

theorem Same.trans {r : Text} (h : Same p q) (h' : Same q r) : Same p r :=
  ⟨h.1.trans h'.1, h.2.trans h'.2⟩

theorem IsFileName.isIdle (h : IsFileName name) : isIdle name = false :=
  isIdle_eq_false_iff.2 ⟨h.nonempty, h.notCurrent⟩

theorem IsFileName.append (h : IsFileName name) (hending : '/' ∉ ending) : IsFileName (name ++ ending) := by
  obtain ⟨c, rest, rfl⟩ := List.exists_cons_of_ne_nil h.nonempty
  refine ⟨by simp, by simpa [hending] using h.noSlash, ?_, ?_⟩
  · intro hdot
    obtain ⟨rfl, hrest⟩ := List.cons.inj hdot
    exact h.notCurrent (by rw [(List.append_eq_nil_iff.1 hrest).1])
  · intro hdots
    obtain ⟨rfl, hrest⟩ := List.cons.inj hdots
    cases rest with
    | nil => exact h.notCurrent rfl
    | cons d rest =>
      obtain ⟨rfl, hnil⟩ := List.cons.inj hrest
      exact h.notParent (by rw [(List.append_eq_nil_iff.1 hnil).1])

theorem isFileName_of_fileName? (h : fileName? p = some name) : IsFileName name :=
  have hspells := spells_of_fileName? h
  ⟨hspells.nonempty, hspells.noSlash, hspells.notCurrent, hspells.notParent⟩

/-! ## The segments of a joined path -/

theorem dropIdle_concat (h : isIdle name = false) (l : List Text) : dropIdle (l ++ [name]) = l ++ [name] := by
  rw [dropIdle, List.reverse_concat, List.dropWhile_cons_of_neg (by simp [h]), List.reverse_cons, List.reverse_reverse]

theorem dropIdle_append_idle {idle : List Text} (h : ∀ x ∈ idle, isIdle x = true) (l : List Text) :
    dropIdle (l ++ idle) = dropIdle l := by
  rw [dropIdle, List.reverse_append, List.dropWhile_append_of_pos (by simpa using h), dropIdle]

theorem filter_dropIdle (l : List Text) : (dropIdle l).filter (fun x => !isIdle x) = l.filter fun x => !isIdle x := by
  obtain ⟨idle, hl, hidle⟩ := dropIdle_append l
  have hnone : idle.filter (fun x => !isIdle x) = [] := List.filter_eq_nil_iff.2 fun x hx => by simp [hidle x hx]
  conv_rhs => rw [hl, List.filter_append, hnone, List.append_nil]

/-- A name goes to the end of the segments of the directory, in the place of an empty one. -/
theorem pieces_join (hname : '/' ∉ name) (hdir : dir ≠ []) : ∃ first others idle,
    Text.pieces '/' dir = first :: (others ++ idle) ∧ (∀ x ∈ idle, x = []) ∧
      Text.pieces '/' (join dir name) = first :: (others ++ [name]) := by
  have hpiece : Text.pieces '/' name = [name] := Text.pieces_of_not_mem hname
  rw [join_eq hname]
  split
  · rename_i hslash
    obtain ⟨t, rfl⟩ := List.getLast?_eq_some_iff.1 (hslash.resolve_left hdir)
    obtain ⟨first, others, ht⟩ := List.exists_cons_of_ne_nil (Text.pieces_ne_nil '/' t)
    refine ⟨first, others, [[]], ?_, by simp, ?_⟩
    · rw [Text.pieces_append_cons, ht]
      rfl
    · rw [List.append_assoc, List.singleton_append, Text.pieces_append_cons, ht, hpiece]
      rfl
  · obtain ⟨first, others, hd⟩ := List.exists_cons_of_ne_nil (Text.pieces_ne_nil '/' dir)
    refine ⟨first, others, [], by rw [hd, List.append_nil], nofun, ?_⟩
    rw [Text.pieces_append_cons, hd, hpiece]
    rfl

theorem isAbsolute_of_pieces {first : Text} {others : List Text} (hdir : dir ≠ [])
    (h : Text.pieces '/' dir = first :: others) : isAbsolute dir = decide (first = []) := by
  have hjoin := Text.join_pieces '/' dir
  have hfirst : '/' ∉ first := Text.not_mem_of_mem_pieces dir first (by simp [h])
  rw [h] at hjoin
  rw [← hjoin, isAbsolute_join_slash hfirst, decide_eq_decide]
  refine and_iff_left_of_imp ?_
  rintro rfl rfl
  exact hdir hjoin.symm

/-- Idle segments at the end do not count. -/
theorem same_directory {first : Text} {others : List Text} (hdir : dir ≠ [])
    (h : Text.pieces '/' dir = first :: others) :
    Same (if first = [] ∧ dropIdle others = [] then ['/'] else Text.join ['/'] (first :: dropIdle others)) dir := by
  have hslash : ∀ x ∈ first :: others, '/' ∉ x := h ▸ Text.not_mem_of_mem_pieces dir
  obtain ⟨cut, hkept, -⟩ := dropIdle_append others
  have hkept' : ∀ x ∈ dropIdle others, '/' ∉ x := fun x hx => hslash x (by rw [hkept]; simp [hx])
  have hfirst : '/' ∉ first := hslash first (by simp)
  constructor
  · rw [isAbsolute_directory hfirst, isAbsolute_of_pieces hdir h]
  · have hparts : parts dir = (first, (dropIdle others).filter fun x => !isIdle x) := by
      rw [filter_dropIdle, parts, h]
    rw [hparts]
    split
    · rename_i hroot
      rw [hroot.1, hroot.2]
      rfl
    · have hcut : Text.pieces '/' (Text.join ['/'] (first :: dropIdle others)) = first :: dropIdle others :=
        Text.pieces_join (by simp) (by simpa using ⟨hfirst, hkept'⟩)
      rw [parts, hcut]

theorem parent?_join (h : IsFileName name) (dir : Text) : ∃ d, parent? (join dir name) = some d ∧ Same d dir := by
  by_cases hdir : dir = []
  · refine ⟨[], ?_, hdir ▸ Same.refl []⟩
    rw [hdir, join_nil h.noSlash, parent?, segments, Text.pieces_of_not_mem h.noSlash]
    simp [dropIdle, h.nonempty]
  · obtain ⟨first, others, idle, hpieces, hidle, hjoin⟩ := pieces_join h.noSlash hdir
    have hkept : dropIdle (others ++ idle) = dropIdle others :=
      dropIdle_append_idle (fun x hx => by simp [hidle x hx, Path.isIdle]) others
    have hsame := same_directory hdir hpieces
    rw [hkept] at hsame
    refine ⟨_, ?_, hsame⟩
    rw [parent?, segments, hjoin]
    simp only [dropIdle_concat h.isIdle, List.dropLast_concat, List.append_eq_nil_iff, List.cons_ne_self, and_false,
      if_false]
    split <;> rfl

theorem fileName?_join (h : IsFileName name) (dir : Text) : fileName? (join dir name) = some name := by
  have hlast : ¬(isIdle name = true ∨ name = ['.', '.']) := by simp [h.isIdle, h.notParent]
  by_cases hdir : dir = []
  · rw [hdir, join_nil h.noSlash, fileName?, segments, Text.pieces_of_not_mem h.noSlash]
    exact if_neg hlast
  · obtain ⟨first, others, -, -, -, hjoin⟩ := pieces_join h.noSlash hdir
    rw [fileName?, segments, hjoin]
    simp only [dropIdle_concat h.isIdle, List.getLast?_concat, Option.getD_some]
    exact if_neg hlast

theorem within_join (h : IsFileName name) (dir : Text) : Within (join dir name) dir name :=
  ⟨fileName?_join h dir, parent?_join h dir⟩

theorem Within.sibling (h : Within p dir name) (hending : '/' ∉ ending) :
    Within (Path.sibling p ending) dir (name ++ ending) := by
  obtain ⟨d, hparent, hsame⟩ := h.parent
  have hname := (isFileName_of_fileName? h.fileName).append hending
  have hsibling : Path.sibling p ending = join d (name ++ ending) := by
    rw [Path.sibling, h.fileName, hparent]
    rfl
  obtain ⟨d', hd', hsame'⟩ := parent?_join hname d
  rw [hsibling]
  exact ⟨fileName?_join hname d, d', hd', hsame'.trans hsame⟩

end Path

end ScenarioDocs
