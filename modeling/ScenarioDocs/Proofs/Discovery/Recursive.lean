import Mathlib
import ScenarioDocs.Proofs.Discovery.Order
import ScenarioDocs.Proofs.Discovery.SourcePaths
import ScenarioDocs.Proofs.Discovery.Unhindered
import ScenarioDocs.Proofs.Discovery.Ways

/-!
# Recursive paths

A recursive path visits the directories below its root in the order of the
ways to them, each once, and finds what is in them in that order.
-/

namespace ScenarioDocs

open Text FileSystem

variable {c : Collector} {refused : Refusals} {fs : FileSystem} {dir : Location} {root : Text} {names : List Text}

namespace Collector

/-! ## A whole walk -/

/-- The directories below one, in the order in which a recursive path visits them, with their files. -/
structure Walk (c : Collector) (refused : Refusals) (fs : FileSystem) (top : Visit) where
  ways : List (List Text)
  files : List Text → List SourceFile
  mem_ways_iff : ∀ names, names ∈ ways ↔ fs.IsWay top.loc names
  /-- A directory goes before those in it, and neighbours go by the bytes of their names. -/
  ordered : ways.Pairwise (List.Lex Utf8.Before)
  lists : ∀ names ∈ ways, c.Lists refused fs (top.along names) (files names)

def Walk.batches {top : Visit} (w : c.Walk refused fs top) : List Batch :=
  w.ways.map fun names => ⟨(top.along names).path, some (top.along names).loc, w.files names⟩

end Collector

theorem SourcePath.ofSpec_recursive (hbase : IsBase root) (hfirst : ∀ ch ∈ root.head?, isBlank ch = false ∧ ch ≠ '"')
    (hlast : ∀ ch ∈ root.getLast?, ch ≠ '/' ∧ ch ≠ '\\') : SourcePath.ofSpec (root ++ "/...") = ⟨root, true⟩ := by
  have hslashes : dropEndWhile (· = '/') root = root :=
    dropEndWhile_eq_self fun ch hch => by simpa using (hlast ch hch).1
  have hname : SourcePath.EndsInName root := by
    have hend := List.getLast?_eq_some_getLast hbase.nonempty
    rw [SourcePath.EndsInName, hslashes]
    exact ⟨_, hend, (hlast _ hend).2⟩
  rw [SourcePath.ofSpec_of_slash_dots (SourcePath.written_append_dots hbase.nonempty hfirst) hname, hslashes]

namespace Collector

variable {top : Visit}

/-! ### Nothing comes twice -/

namespace Walk

variable (w : c.Walk refused fs top) (ht : fs.IsTree)
include ht

theorem isName {names : List Text} (h : names ∈ w.ways) : ∀ name ∈ names, IsName name :=
  ((w.mem_ways_iff names).1 h).isName ht

theorem path_inj {names names' : List Text} (h : names ∈ w.ways) (h' : names' ∈ w.ways)
    (hpath : (top.along names).path = (top.along names').path) : names = names' :=
  Text.join_inj (fun n hn => (w.isName ht h n hn).noSlash) (fun n hn => (w.isName ht h' n hn).noSlash) hpath

theorem nodup_scopes : (w.batches.map (·.scope)).Nodup := by
  rw [batches, List.map_map]
  exact List.Nodup.map_on (fun names h names' h' hpath => w.path_inj ht h h' hpath) (nodup_of_ordered w.ordered)

omit ht in
theorem nodup_directories : (w.batches.map (·.directory?)).Nodup := by
  rw [batches, List.map_map]
  refine List.Nodup.map (fun names names' h => ?_) (nodup_of_ordered w.ordered)
  have hloc : top.loc.descend names = top.loc.descend names' := Option.some.inj h
  rw [← Option.some_inj, ← Location.stepsFrom?_descend, hloc, Location.stepsFrom?_descend]

theorem nodup_files (hbase : IsBase top.path) : (w.batches.flatMap (·.files)).Nodup := by
  rw [batches, List.flatMap_map, List.nodup_flatMap]
  constructor
  · intro names hnames
    obtain ⟨found, hordered, hthere, hpaths⟩ := (w.lists names hnames).ordered
    refine List.Nodup.of_map (·.1) ?_
    rw [hpaths]
    refine List.Nodup.map_on (fun name hname name' hname' hpath => ?_) (hordered.imp fun hbefore => ?_)
    · exact Path.join_name_inj (ht.isName_of_isSome (hthere name hname)).noSlash
        (ht.isName_of_isSome (hthere name' hname')).noSlash hpath
    · rintro rfl
      exact List.lt_irrefl _ hbefore
  · refine (nodup_of_ordered w.ordered).imp_of_mem fun {names names'} hnames hnames' hne f hf hf' => hne ?_
    obtain ⟨path, loc, id⟩ := f
    obtain ⟨name, e, hpath, hsome, -⟩ := ((w.lists names hnames).mem_iff path loc id).1 hf
    obtain ⟨name', e', hpath', hsome', -⟩ := ((w.lists names' hnames').mem_iff path loc id).1 hf'
    have hname := ht.isName_of_isSome hsome
    have hname' := ht.isName_of_isSome hsome'
    -- the path of a file spells the way to its directory
    rw [Visit.along, hbase.join_append hname.noSlash (w.isName ht hnames)] at hpath
    rw [Visit.along, hbase.join_append hname'.noSlash (w.isName ht hnames')] at hpath'
    have hways : names ++ [name] = names' ++ [name'] := by
      refine Text.join_inj ?_ ?_ (hpath.symm.trans hpath')
      · exact List.forall_mem_append.2 ⟨fun n hn => (w.isName ht hnames n hn).noSlash, by simpa using hname.noSlash⟩
      · exact List.forall_mem_append.2 ⟨fun n hn => (w.isName ht hnames' n hn).noSlash, by simpa using hname'.noSlash⟩
    exact List.append_inj_left' hways rfl

end Walk

section
variable (ht : fs.IsTree) (hbase : IsBase root) (hfind : fs.find root = .ok (dir, .directory))
include ht hbase hfind

theorem visits_recursive :
    (⟨root, true⟩ : SourcePath).visits fs = (fs.ways fs.depth dir).map (Visit.along ⟨root, dir⟩) := by
  rw [SourcePath.visits, hfind]
  exact visits_eq_map (v := ⟨root, dir⟩) ht hbase fs.depth

variable (hshort : (⟨root, true⟩ : SourcePath).ShortWays fs)
include hshort

theorem directory?_along (hnames : names ∈ fs.ways fs.depth dir) :
    fs.directory? (Visit.along ⟨root, dir⟩ names).path = some (Visit.along ⟨root, dir⟩ names).loc := by
  have hvisit : Visit.along ⟨root, dir⟩ names ∈ (⟨root, true⟩ : SourcePath).visits fs := by
    rw [visits_recursive ht hbase hfind]
    exact List.mem_map_of_mem hnames
  exact SourcePath.directory?_of_reaches ht ((SourcePath.mem_visits_iff ht).1 hvisit) (hshort _ hvisit)

def walk (c : Collector) (refused : Refusals) : c.Walk refused fs ⟨root, dir⟩ where
  ways := fs.ways fs.depth dir
  files names := c.filesIn refused fs (Visit.along ⟨root, dir⟩ names)
  mem_ways_iff _ := mem_ways_depth_iff ht (ht.directory_of_find hfind)
  ordered := ordered_ways ht.distinct fs.depth dir
  lists _ hnames := lists_filesIn ht (directory?_along ht hbase hfind hshort hnames)

theorem batches_walk : (walk ht hbase hfind hshort c refused).batches =
    ((⟨root, true⟩ : SourcePath).visits fs).map (c.batchOf refused fs) := by
  rw [visits_recursive ht hbase hfind, List.map_map]
  rfl

/-- Nothing was visited or seen before the walk, and nothing comes twice in it. -/
theorem gather_walk : c.gather fs .empty [] (Batch.opened [] (c.batches refused fs ⟨root, true⟩)) =
    c.inOrder fs (((⟨root, true⟩ : SourcePath).visits fs).map (c.batchOf refused fs)) := by
  rw [batches_of_not_file (by simp [hfind]), ← batches_walk ht hbase hfind hshort,
    opened_of_nodup (walk ht hbase hfind hshort c refused).nodup_directories (by simp)]
  exact gather_inOrder ((walk ht hbase hfind hshort c refused).nodup_scopes ht)
    ((walk ht hbase hfind hshort c refused).nodup_files ht hbase)

end

section
variable (c : Collector) (ht : fs.IsTree) (hfind : fs.find root = .ok (dir, .directory))
  (hfirst : ∀ ch ∈ root.head?, isBlank ch = false ∧ ch ≠ '"') (hlast : ∀ ch ∈ root.getLast?, ch ≠ '/' ∧ ch ≠ '\\')

include hfind hlast in
theorem isBase_of_find : IsBase root := by
  refine ⟨?_, fun h => (hlast '/' h).1 rfl⟩
  rintro rfl
  cases hfind

include ht hfind hfirst hlast

/-- A recursive path finds what is in the directories below its root, in the order of the ways to them. -/
theorem collect_recursive {f : Findings} (h : c.collectUnder refused fs [root ++ "/..."] = .ok f) :
    ∃ w : c.Walk refused fs ⟨root, dir⟩, f = c.inOrder fs w.batches := by
  have hbase := isBase_of_find hfind hlast
  have hspec := SourcePath.ofSpec_recursive hbase hfirst hlast
  obtain ⟨rfl, hshort⟩ := collect_ok h
  rw [List.map_singleton, hspec, List.forall_mem_singleton] at hshort
  refine ⟨walk ht hbase hfind hshort c refused, ?_⟩
  rw [List.map_singleton, hspec, List.flatMap_singleton, batches_walk]
  exact gather_walk ht hbase hfind hshort

theorem collect_of_readable
    (hreadable : ∀ v ∈ (⟨root, true⟩ : SourcePath).visits fs, c.isReadable fs ⟨.empty, [], []⟩ v = true) :
    c.collect fs [root ++ "/..."] =
      .ok (c.inOrder fs (((⟨root, true⟩ : SourcePath).visits fs).map (c.batchOf .nothing fs))) := by
  have hbase := isBase_of_find hfind hlast
  have hshort : (⟨root, true⟩ : SourcePath).ShortWays fs := fun v hv => by
    simpa using (Bool.and_eq_true_iff.1 (hreadable v hv)).1
  rw [collect, collectUnder, List.map_singleton, SourcePath.ofSpec_recursive hbase hfirst hlast, collectPaths,
    collectPath_nothing_of_directory (p := ⟨root, true⟩) hfind hreadable]
  exact congrArg Except.ok ((foldl_read_findings _ _).trans (gather_walk ht hbase hfind hshort))

end

/-! ## A walk, and a file that it passes over -/

def work : Location := Location.root.child "work"

/-- A directory beside another that holds a third, one that is not entered, and a link back to the top. A file has
a second name. -/
def nested : FileSystem :=
  let inner := (work.child "a").child "z"
  let marker := Utf8.encode "// +docgenerator:pod"
  ⟨[(work, .directory), (work.child "a", .directory), (inner, .directory), (inner.child "m.go", .file 0),
      (inner.child "top", .link "../.."), (work.child "a-b", .directory), ((work.child "a-b").child "k.go", .file 1),
      ((work.child "a-b").child "m.go", .link "../a/z/m.go"), (work.child "_x", .directory),
      ((work.child "_x").child "m.go", .file 2)], [(0, marker), (1, marker), (2, marker)], 3, [], work⟩

theorem find_nested : nested.find "." = .ok (work, .directory) := by cbv

theorem visits_nested : (⟨".", true⟩ : SourcePath).visits nested =
    [⟨".", work⟩, ⟨"./a", work.child "a"⟩, ⟨"./a/z", (work.child "a").child "z"⟩, ⟨"./a-b", work.child "a-b"⟩] := by
  have htop : nested.entered work = [['a'], ['a', '-', 'b']] := by
    have hchildren : nested.children work =
        [(['_', 'x'], .directory), (['a'], .directory), (['a', '-', 'b'], .directory)] := by cbv
    rw [entered, hchildren]
    decide
  have ha : nested.entered (work.child ['a']) = [['z']] := by
    rw [entered, show nested.children (work.child ['a']) = [(['z'], .directory)] by cbv]
    decide
  have hz : nested.entered ((work.child ['a']).child ['z']) = [] := by cbv
  have hab : nested.entered (work.child ['a', '-', 'b']) = [] := by cbv
  rw [visits_recursive (by decide) ⟨by decide, by decide⟩ find_nested, show nested.depth = 4 from rfl]
  simp only [ways, htop, ha, hz, hab, List.flatMap_cons, List.flatMap_nil, List.map_cons, List.map_nil]
  decide

theorem collect_nested : (⟨.standard, ["go"]⟩ : Collector).collect nested ["./..."] =
    .ok ⟨[⟨"./a/z", [.blank]⟩, ⟨"./a-b", [.blank]⟩], []⟩ := by
  have hreadable : ∀ v ∈ (⟨".", true⟩ : SourcePath).visits nested,
      (⟨.standard, ["go"]⟩ : Collector).isReadable nested ⟨.empty, [], []⟩ v = true := by
    rw [visits_nested, ← List.all_eq_true]
    cbv
  have h := collect_of_readable ⟨.standard, ["go"]⟩ (by decide) find_nested
    (by rintro _ ⟨⟩; decide) (by rintro _ ⟨⟩; decide) hreadable
  rw [visits_nested] at h
  refine Eq.trans ?_ (h.trans ?_)
  · rfl
  · cbv

/-- What is below a directory goes before its neighbour, though its path is greater. -/
theorem collect_recursive_nested : ∃ w : Walk ⟨.standard, ["go"]⟩ .nothing nested ⟨".", work⟩,
    (⟨.standard, ["go"]⟩ : Collector).collect nested ["./..."] =
      .ok ((⟨.standard, ["go"]⟩ : Collector).inOrder nested w.batches) ∧
      ((⟨.standard, ["go"]⟩ : Collector).inOrder nested w.batches).scopes =
        [⟨"./a/z", [.blank]⟩, ⟨"./a-b", [.blank]⟩] := by
  obtain ⟨w, hfound⟩ := collect_recursive ⟨.standard, ["go"]⟩ (by decide) find_nested
    (by rintro _ ⟨⟩; decide) (by rintro _ ⟨⟩; decide) collect_nested
  exact ⟨w, collect_nested.trans (congrArg Except.ok hfound), congrArg Findings.scopes hfound.symm⟩

def faraway : FileSystem :=
  let dir := work.child "d"
  ⟨[(work, .directory), (dir, .directory), (dir.child "a.go", .file 0)], [(0, Utf8.encode "// +docgenerator:pod")], 1,
    [], work⟩

def detour : Nat → Text
  | 0 => ['d']
  | n + 1 => '.' :: '/' :: detour n

theorem getLast?_detour (n : Nat) : (detour n).getLast? = some 'd' := by
  induction n with
  | zero => rfl
  | succ n ih =>
    obtain ⟨t, ht⟩ := List.getLast?_eq_some_iff.1 ih
    rw [detour, ht]
    exact List.getLast?_concat (l := '.' :: '/' :: t)

theorem isBase_detour (n : Nat) : IsBase (detour n) := by
  constructor
  · intro h
    have hlast := getLast?_detour n
    rw [h] at hlast
    cases hlast
  · rw [getLast?_detour]
    decide

theorem length_encode_detour (n : Nat) : (Utf8.encode (detour n)).length = 2 * n + 1 := by
  induction n with
  | zero => rfl
  | succ n ih =>
    change (Utf8.encode (detour n)).length + 1 + 1 = 2 * (n + 1) + 1
    omega

theorem steps_detour (n : Nat) : steps (detour n) = List.replicate n ['.'] ++ [['d']] := by
  induction n with
  | zero => decide
  | succ n ih =>
    rw [detour, ← List.singleton_append, steps_slash_append, ih, steps_dot]
    rfl

theorem find_detour {n : Nat} (h : 2 * n + 1 < 4096) : faraway.find (detour n) = .ok (work.child "d", .directory) := by
  have hnul : '\x00' ∉ detour n := by
    clear h
    induction n with
    | zero => decide
    | succ n ih => simpa [detour] using ih
  have hshort : isTooLong (detour n) = false := by
    rw [isTooLong, length_encode_detour, decide_eq_false_iff_not]
    exact Nat.not_le.2 h
  have hrelative : Path.isAbsolute (detour n) = false := by
    cases n <;> rfl
  rw [find_directory_iff]
  refine ⟨.taken (work.child "d") .directory, ?_, rfl⟩
  rw [resolve_of_walk hnul (isBase_detour n).nonempty, hshort, hrelative, steps_detour,
    walk_dots fun x hx => List.eq_of_mem_replicate hx, if_neg (by decide), if_neg (by decide)]
  exact walk_directory ⟨by decide, by decide, by decide⟩ (by simp) (by decide)

theorem visits_detour {n : Nat} (h : 2 * n + 1 < 4096) :
    (⟨detour n, true⟩ : SourcePath).visits faraway = [⟨detour n, work.child "d"⟩] := by
  have hentered : faraway.entered (work.child "d") = [] := by cbv
  rw [visits_recursive (by decide) (isBase_detour n) (find_detour h), show faraway.depth = 3 from rfl, ways, hentered]
  rfl

theorem sourceFiles_detour {n : Nat} (h : 4096 ≤ 2 * n + 6) :
    faraway.sourceFiles ["go"] ⟨detour n, work.child "d"⟩ = [] := by
  have hlong : isTooLong (Path.join (detour n) ['a', '.', 'g', 'o']) = true := by
    rw [(isBase_detour n).join_name (by decide), isTooLong, Utf8.encode, List.flatMap_append, List.length_append,
      ← Utf8.encode, length_encode_detour]
    exact decide_eq_true h
  have hfile : faraway.fileAt? (Visit.child ⟨detour n, work.child "d"⟩ ['a', '.', 'g', 'o']) (.file 0) = none :=
    if_pos hlong
  rw [sourceFiles, show faraway.children (work.child "d") = [(['a', '.', 'g', 'o'], .file 0)] by cbv,
    List.filterMap_cons_none, List.filterMap_nil]
  simp only [hfile]

theorem collect_detour {n : Nat} (h : 2 * n + 1 < 4096) (hlong : 4096 ≤ 2 * n + 6) :
    (⟨.standard, ["go"]⟩ : Collector).collect faraway [detour n ++ "/..."] = .ok ⟨[], []⟩ := by
  have hfirst : ∀ ch ∈ (detour n).head?, isBlank ch = false ∧ ch ≠ '"' := by
    cases n <;> (rintro _ ⟨⟩; decide)
  have hlast : ∀ ch ∈ (detour n).getLast?, ch ≠ '/' ∧ ch ≠ '\\' := by
    rw [getLast?_detour]
    rintro _ ⟨⟩
    decide
  have hshort : isTooLong (detour n) = false := isTooLong_of_find (find_detour h)
  have hreadable : ∀ v ∈ (⟨detour n, true⟩ : SourcePath).visits faraway,
      (⟨.standard, ["go"]⟩ : Collector).isReadable faraway ⟨.empty, [], []⟩ v = true := by
    rw [visits_detour h, List.forall_mem_singleton, isReadable, sourceFiles_detour hlong, hshort]
    exact (by decide : (!isTooLong (work.child "d").path && true) = true)
  rw [collect_of_readable _ (by decide) (find_detour h) hfirst hlast hreadable, visits_detour h, List.map_singleton,
    batchOf, filesIn_nothing, sourceFiles_detour hlong]
  rfl

/-- The file is in the directory, and its path is too long. -/
theorem collect_recursive_passes_over : faraway.IsTree ∧
    faraway.find (detour 2046) = .ok (work.child "d", .directory) ∧
    (∀ ch ∈ (detour 2046).head?, isBlank ch = false ∧ ch ≠ '"') ∧
    (∀ ch ∈ (detour 2046).getLast?, isBlank ch = false ∧ ch ∉ ['"', '/', '\\']) ∧
    faraway.entry? ((work.child "d").child "a.go") = some (.file 0) ∧ Path.extension? "a.go" = some "go" ∧
    (Scanner.standard.scan (Utf8.decodeLossy (faraway.bytes 0)) []).scenarios = [.blank] ∧
    (⟨.standard, ["go"]⟩ : Collector).collect faraway [detour 2046 ++ "/..."] = .ok ⟨[], []⟩ := by
  refine ⟨by decide, find_detour (by decide), ?_, ?_, by decide, by decide, by cbv,
    collect_detour (by decide) (by decide)⟩
  · rintro _ ⟨⟩
    decide
  · rw [getLast?_detour]
    rintro _ ⟨⟩
    decide

end Collector

end ScenarioDocs
