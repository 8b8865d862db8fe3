import Mathlib.Data.List.Lex
import ScenarioDocs.Proofs.Discovery.Opening
import ScenarioDocs.Proofs.FileSystem.Children
import ScenarioDocs.Proofs.Text.ByteOrder
import ScenarioDocs.Proofs.Text.Lines

/-!
# The ways down from a directory

A directory below another is told by the names that lead there. In the
lexicographic order of these names a directory comes before all that is in it,
and of two neighbours the smaller one comes first, with all that is in it. This
is the order in which a recursive path visits them.
-/

namespace ScenarioDocs

open FileSystem

variable {c : Collector} {refused : Refusals} {fs : FileSystem} {v root : Visit} {dir : Location} {name base : Text}
  {names names' : List Text} {levels : Nat}

def FileSystem.IsWay (fs : FileSystem) (dir : Location) : List Text → Prop
  | [] => True
  | name :: names => fs.entry? (dir.child name) = some .directory ∧ isSkippedDirectory name = false ∧
      fs.IsWay (dir.child name) names

/-- Where some names lead from a directory, by the path that is shown. -/
def Visit.along (v : Visit) (names : List Text) : Visit := ⟨Text.join ['/'] (v.path :: names), v.loc.descend names⟩

/-! ## The paths that are shown -/

theorem Text.join_eq_append (base : Text) (names : List Text) :
    join ['/'] (base :: names) = base ++ join ['/'] ([] :: names) := by
  cases names with
  | nil => exact (List.append_nil base).symm
  | cons name names => simp [join]

structure IsBase (base : Text) : Prop where
  nonempty : base ≠ []
  noSlash : base.getLast? ≠ some '/'

namespace IsBase

variable (hbase : IsBase base)
include hbase

theorem join_name (hname : '/' ∉ name) : Path.join base name = base ++ '/' :: name := by
  rw [Path.join_eq hname, if_neg (not_or.2 ⟨hbase.nonempty, hbase.noSlash⟩)]

theorem child (hname : IsName name) : IsBase (Path.join base name) := by
  rw [hbase.join_name hname.noSlash]
  refine ⟨by simp, ?_⟩
  rw [List.getLast?_append_of_ne_nil _ (List.cons_ne_nil _ _), List.getLast?_cons_of_ne_nil hname.nonempty]
  exact fun h => hname.noSlash (List.mem_of_getLast? h)

theorem join_join (hname : '/' ∉ name) (names : List Text) :
    Text.join ['/'] (Path.join base name :: names) = Text.join ['/'] (base :: name :: names) := by
  rw [hbase.join_name hname]
  cases names <;> simp [Text.join]

theorem join_append (hname : '/' ∉ name) (hnames : ∀ n ∈ names, IsName n) :
    Path.join (Text.join ['/'] (base :: names)) name = Text.join ['/'] (base :: (names ++ [name])) := by
  induction names generalizing base with
  | nil => exact (hbase.join_join hname [])
  | cons n names ih =>
    obtain ⟨hn, hnames⟩ := List.forall_mem_cons.1 hnames
    rw [← hbase.join_join hn.noSlash, ih (hbase.child hn) hnames, List.cons_append, hbase.join_join hn.noSlash]

end IsBase

theorem along_nil (v : Visit) : v.along [] = v := rfl

theorem along_child (hbase : IsBase v.path) (hname : '/' ∉ name) (names : List Text) :
    (v.child name).along names = v.along (name :: names) := by
  rw [Visit.along, Visit.along, Visit.child, hbase.join_join hname]
  rfl

theorem Text.join_inj (hnames : ∀ n ∈ names, '/' ∉ n) (hnames' : ∀ n ∈ names', '/' ∉ n)
    (h : join ['/'] (base :: names) = join ['/'] (base :: names')) : names = names' := by
  rw [join_eq_append, join_eq_append base names', List.append_cancel_left_eq] at h
  have hpieces (l : List Text) (hl : ∀ n ∈ l, '/' ∉ n) : pieces '/' (join ['/'] ([] :: l)) = [] :: l :=
    pieces_join (List.cons_ne_nil _ _) (List.forall_mem_cons.2 ⟨List.not_mem_nil, hl⟩)
  have hcons := congrArg (pieces '/') h
  rw [hpieces names hnames, hpieces names' hnames'] at hcons
  exact (List.cons.inj hcons).2

/-! ## The ways in order -/

namespace FileSystem

def ways (fs : FileSystem) : (levels : Nat) → Location → List (List Text)
  | 0, _ => [[]]
  | levels + 1, dir => [] :: (fs.entered dir).flatMap fun name => (fs.ways levels (dir.child name)).map (name :: ·)

theorem sorted_entered (hd : fs.Distinct) (dir : Location) : (fs.entered dir).Pairwise Utf8.Before := by
  refine (sorted_children hd dir).filterMap _ fun a a' hlt b hb b' hb' => ?_
  obtain ⟨-, h⟩ := Option.ite_none_right_eq_some.1 hb
  obtain ⟨-, h'⟩ := Option.ite_none_right_eq_some.1 hb'
  cases h
  cases h'
  exact Utf8.before_of_lt hlt

theorem mem_ways_iff (hd : fs.Distinct) : names ∈ fs.ways levels dir ↔ fs.IsWay dir names ∧ names.length ≤ levels := by
  induction levels generalizing dir names with
  | zero =>
    rw [ways, List.mem_singleton, Nat.le_zero, List.length_eq_zero_iff]
    exact ⟨fun h => ⟨h ▸ trivial, h⟩, And.right⟩
  | succ levels ih =>
    rw [ways, List.mem_cons, List.mem_flatMap]
    cases names with
    | nil => simp [IsWay]
    | cons name names =>
      simp only [List.mem_map, List.cons.injEq, ih, mem_entered_iff hd, IsWay, List.length_cons]
      constructor
      · rintro (h | ⟨name', ⟨hentry, hskip⟩, names', ⟨hway, hlength⟩, rfl, rfl⟩)
        · cases h
        · exact ⟨⟨hentry, hskip, hway⟩, Nat.succ_le_succ hlength⟩
      · rintro ⟨⟨hentry, hskip, hway⟩, hlength⟩
        exact .inr ⟨name, ⟨hentry, hskip⟩, names, ⟨hway, Nat.le_of_succ_le_succ hlength⟩, rfl, rfl⟩

theorem ordered_ways (hd : fs.Distinct) (levels : Nat) (dir : Location) :
    (fs.ways levels dir).Pairwise (List.Lex Utf8.Before) := by
  induction levels generalizing dir with
  | zero => exact List.pairwise_singleton _ _
  | succ levels ih =>
    rw [ways, List.pairwise_cons, List.pairwise_flatMap]
    refine ⟨fun names hnames => ?_, fun name _ => ?_, (sorted_entered hd dir).imp fun hbefore => ?_⟩
    -- the directory itself, then what is below one subdirectory, then two subdirectories
    · obtain ⟨name, -, hnames⟩ := List.mem_flatMap.1 hnames
      obtain ⟨rest, -, rfl⟩ := List.mem_map.1 hnames
      exact .nil
    · exact (ih (dir.child name)).map _ fun _ _ hlex => .cons hlex
    · intro names hnames names' hnames'
      obtain ⟨rest, -, rfl⟩ := List.mem_map.1 hnames
      obtain ⟨rest', -, rfl⟩ := List.mem_map.1 hnames'
      exact .rel hbefore

theorem visits_eq_map (ht : fs.IsTree) (hbase : IsBase v.path) (levels : Nat) :
    fs.visits levels v = (fs.ways levels v.loc).map v.along := by
  induction levels generalizing v with
  | zero => rfl
  | succ levels ih =>
    rw [visits, ways, List.map_cons, along_nil, List.map_flatMap, subdirectories_eq_map, List.flatMap_map]
    refine congrArg (v :: ·) (List.flatMap_congr fun name hname => ?_)
    have hname := ht.isName ((mem_entered_iff ht.distinct).1 hname).1
    rw [ih (hbase.child hname), List.map_map]
    exact List.map_congr_left fun names _ => along_child hbase hname.noSlash names

namespace IsWay

theorem directory (hdir : fs.entry? dir = some .directory) (h : fs.IsWay dir names) :
    fs.entry? (dir.descend names) = some .directory := by
  induction names generalizing dir with
  | nil => exact hdir
  | cons name names ih => exact ih h.1 h.2.2

theorem isName (ht : fs.IsTree) (h : fs.IsWay dir names) : ∀ name ∈ names, IsName name := by
  induction names generalizing dir with
  | nil => exact nofun
  | cons name names ih => exact List.forall_mem_cons.2 ⟨ht.isName h.1, ih h.2.2⟩

theorem noSlash (ht : fs.IsTree) (h : fs.IsWay dir names) : ∀ name ∈ names, '/' ∉ name :=
  fun name hname => (h.isName ht name hname).noSlash

theorem length_le (ht : fs.IsTree) (hdir : fs.entry? dir = some .directory) (h : fs.IsWay dir names) :
    names.length ≤ fs.depth := by
  have hdepth := ht.depth_le (h.directory hdir)
  rw [Location.depth_descend] at hdepth
  omega

end IsWay

/-- The depth of the file system is enough for every way. -/
theorem mem_ways_depth_iff (ht : fs.IsTree) (hdir : fs.entry? dir = some .directory) :
    names ∈ fs.ways fs.depth dir ↔ fs.IsWay dir names := by
  rw [mem_ways_iff ht.distinct]
  exact ⟨And.left, fun h => ⟨h, h.length_le ht hdir⟩⟩

end FileSystem

theorem nodup_of_ordered {ways : List (List Text)} (h : ways.Pairwise (List.Lex Utf8.Before)) : ways.Nodup := by
  refine h.imp fun {a b} hlex => List.Lex.to_ne (List.Lex.imp (fun x y hbefore => ?_) a b hlex)
  rintro rfl
  exact List.lt_irrefl _ hbefore

/-! ## The files of a directory in order -/

/-- The files of a directory that have a wanted extension and are opened by their paths, in the byte order of
their names. -/
structure Collector.Lists (c : Collector) (refused : Refusals) (fs : FileSystem) (v : Visit) (files : List SourceFile) :
    Prop where
  mem_iff : ∀ path loc id, (path, loc, id) ∈ files ↔ ∃ name e, path = Path.join v.path name ∧
    (fs.entry? (v.loc.child name)).isSome ∧ fs.find (Path.join v.path name) = .ok (loc, .file id) ∧
    refused .look (Path.join v.path name) = none ∧ Path.extension? name = some e ∧ e ∈ c.extensions
  ordered : ∃ names : List Text, names.Pairwise Utf8.Before ∧ (∀ name ∈ names, (fs.entry? (v.loc.child name)).isSome) ∧
    files.map (·.1) = names.map (Path.join v.path)
  /-- No others are passed over than those that the system hides. -/
  complete : ∀ name loc id e, (fs.entry? (v.loc.child name)).isSome → fs.fileIn? v.loc name = some (loc, id) →
    Path.extension? name = some e → e ∈ c.extensions →
      (Path.join v.path name, loc, id) ∈ files ∨ refused.Hides fs (Path.join v.path name)

namespace Collector

theorem filesIn_ordered (c : Collector) (refused : Refusals) (ht : fs.IsTree) (v : Visit) :
    ∃ names : List Text, names.Pairwise Utf8.Before ∧ (∀ name ∈ names, (fs.entry? (v.loc.child name)).isSome) ∧
      (c.filesIn refused fs v).map (·.1) = names.map (Path.join v.path) := by
  -- each file with the name of its entry, since the path of a link's target does not tell that
  let found := (readings (c.sourceFile? fs v) fs v.loc).filter fun reading => (refused .look reading.2.1).isNone
  have hfound : c.filesIn refused fs v = found.map (·.2) := by
    rw [filesIn, sourceFiles_eq, ← map_readings, List.filter_map]
    rfl
  have hread (reading : Text × SourceFile) (hmem : reading ∈ found) : ∃ entry,
      fs.entry? (v.loc.child reading.1) = some entry ∧ c.sourceFile? fs v reading.1 entry = some reading.2 :=
    Option.bind_eq_some_iff.1 ((mem_readings_iff _ ht.distinct).1 (List.mem_filter.1 hmem).1)
  refine ⟨found.map (·.1), ?_, ?_, ?_⟩
  · rw [List.pairwise_map]
    exact ((sorted_readings _ ht.distinct v.loc).imp Utf8.before_of_lt).filter _
  · rw [List.forall_mem_map]
    intro reading hreading
    obtain ⟨entry, hentry, -⟩ := hread reading hreading
    exact Option.isSome_iff_exists.2 ⟨entry, hentry⟩
  · rw [hfound, List.map_map, List.map_map]
    refine List.map_congr_left fun reading hreading => ?_
    obtain ⟨entry, -, hfile⟩ := hread reading hreading
    exact (sourceFile?_eq_some_iff.1 hfile).2.1

theorem lists_filesIn (ht : fs.IsTree) (hdir : fs.directory? v.path = some v.loc) :
    c.Lists refused fs v (c.filesIn refused fs v) where
  mem_iff _ _ _ := mem_filesIn_iff hdir ht
  ordered := c.filesIn_ordered refused ht v
  complete name loc id e hsome hfile hext he := by
    cases hlook : refused .look (Path.join v.path name) with
    | some error => exact .inr (.inl ⟨error, hlook⟩)
    | none =>
      refine (find_join_of_fileIn? hdir (ht.isName_of_isSome hsome) hfile).imp (fun hfind => ?_) .inr
      exact (mem_filesIn_iff hdir ht).2 ⟨name, e, rfl, hsome, hfind, hlook, hext, he⟩

end Collector

end ScenarioDocs
