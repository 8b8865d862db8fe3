import ScenarioDocs.Proofs.Discovery.Batches
import ScenarioDocs.Proofs.Source.Locations

/-!
# The order of what is found

Directories that are visited once, each with a scope of its own, give their
scopes, records and skips in the order of the visits, and in one directory in
the order of its files and their lines. A file that is met again is read only
where it comes first.
-/

namespace ScenarioDocs

open Text FileSystem

variable {c : Collector} {fs : FileSystem} {findings : Findings} {seen visited : List Location}
  {files all : List SourceFile} {bs : List Batch}

/-! ## Files where they come first -/

def SourceFile.IsFirst (all : List SourceFile) (f : SourceFile) : Prop := all.find? (·.2.1 = f.2.1) = some f

instance (all : List SourceFile) (f : SourceFile) : Decidable (f.IsFirst all) :=
  inferInstanceAs (Decidable (_ = some f))

namespace Collector

def outcomes (c : Collector) (fs : FileSystem) (f : SourceFile) : List (Except Skip Scenario) :=
  c.scanner.readLines f.1 1 (lines (Utf8.decodeLossy (fs.bytes f.2.2)))

def outcomesIn (c : Collector) (fs : FileSystem) (all : List SourceFile) (b : Batch) : List (Except Skip Scenario) :=
  (b.files.filter (SourceFile.IsFirst all)).flatMap (c.outcomes fs)

/-- What is in directories, in their order, a file being read only where it comes first. -/
def inOrder (c : Collector) (fs : FileSystem) (dirs : List Batch) : Findings where
  scopes := (dirs.map fun b => ⟨b.scope,
    (c.outcomesIn fs (dirs.flatMap (·.files)) b).filterMap Scanner.scenario?⟩).filter (·.scenarios ≠ [])
  skipped := (dirs.flatMap (c.outcomesIn fs (dirs.flatMap (·.files)))).filterMap Scanner.skip?

variable {before after : List SourceFile} {f : SourceFile}

theorem isFirst_iff (hnodup : (before ++ f :: after).Nodup) :
    f.IsFirst (before ++ f :: after) ↔ f.2.1 ∉ before.map (·.2.1) := by
  rw [SourceFile.IsFirst, List.find?_append, List.find?_cons_of_pos (by simp)]
  cases hfind : before.find? (·.2.1 = f.2.1) with
  | none =>
    refine iff_of_true rfl fun hmem => ?_
    obtain ⟨g, hg, hloc⟩ := List.mem_map.1 hmem
    exact List.find?_eq_none.1 hfind g hg (decide_eq_true hloc)
  | some g =>
    have hg := List.mem_of_find?_eq_some hfind
    have hloc : g.2.1 = f.2.1 := by simpa using List.find?_some hfind
    refine iff_of_false (fun h => ?_) fun h => h (List.mem_map.2 ⟨g, hg, hloc⟩)
    cases h
    exact (List.disjoint_of_nodup_append hnodup) hg (List.mem_cons_self ..)

/-- What was not seen before is what comes first, if what was seen came before. -/
theorem fresh_eq_filter (hall : before ++ files ++ after = all) (hnodup : all.Nodup)
    (hseen : ∀ loc, loc ∈ seen ↔ loc ∈ before.map (·.2.1)) :
    SourceFile.fresh seen files = files.filter (SourceFile.IsFirst all) := by
  -- each file that is passed moves from `files` to `before`, whether it was read or not
  induction files generalizing before seen with
  | nil => rfl
  | cons f files ih =>
    have hfirst : f.IsFirst all ↔ f.2.1 ∉ seen := by
      rw [List.append_assoc, List.cons_append] at hall
      rw [← hall] at hnodup ⊢
      rw [isFirst_iff hnodup, hseen]
    have hall' : before ++ [f] ++ files ++ after = all := by simpa using hall
    rw [SourceFile.fresh, List.filter_cons]
    by_cases hmem : f.2.1 ∈ seen
    · rw [if_pos (List.contains_iff_mem.2 hmem), if_neg (by simpa [hfirst] using hmem)]
      refine ih hall' fun loc => ?_
      rw [List.map_append, List.mem_append, hseen, or_iff_left_of_imp]
      intro hloc
      rw [List.mem_singleton.1 hloc]
      exact (hseen _).1 hmem
    · rw [if_neg (by simpa using hmem), if_pos (by simpa [hfirst] using hmem)]
      refine congrArg (f :: ·) (ih hall' fun loc => ?_)
      rw [List.map_append, List.mem_append, List.mem_cons, hseen, or_comm]
      exact or_congr_right List.mem_singleton.symm

/-! ## Scopes of their own -/

theorem opened_of_nodup (hdirs : (bs.map (·.directory?)).Nodup)
    (hvisited : ∀ b ∈ bs, ∀ dir ∈ b.directory?, dir ∉ visited) : Batch.opened visited bs = bs := by
  induction bs generalizing visited with
  | nil => rfl
  | cons b bs ih =>
    rw [List.map_cons, List.nodup_cons] at hdirs
    rw [List.forall_mem_cons] at hvisited
    rw [Batch.opened]
    cases hdir : b.directory? with
    | none => exact congrArg (b :: ·) (ih hdirs.2 hvisited.2)
    | some dir =>
      have hnot : ¬visited.contains dir = true := by simpa using hvisited.1 dir hdir
      simp only [if_neg hnot]
      refine congrArg (b :: ·) (ih hdirs.2 fun b' hb' dir' hdir' => ?_)
      rw [List.mem_cons, not_or]
      refine ⟨?_, hvisited.2 b' hb' dir' hdir'⟩
      rintro rfl
      exact hdirs.1 (List.mem_map.2 ⟨b', hb', hdir'.trans hdir.symm⟩)

theorem gather_scopes (hall : before ++ bs.flatMap (·.files) = all) (hnodup : all.Nodup)
    (hseen : ∀ loc, loc ∈ seen ↔ loc ∈ before.map (·.2.1))
    (hnames : (findings.scopes.map (·.name) ++ bs.map (·.scope)).Nodup) :
    (c.gather fs findings seen bs).scopes = findings.scopes ++
      (bs.map fun b => (⟨b.scope, (c.outcomesIn fs all b).filterMap Scanner.scenario?⟩ : Scope)).filter
        (·.scenarios ≠ []) := by
  -- `before` holds the files of the batches that were passed, and `findings` their scopes
  induction bs generalizing findings seen before with
  | nil => simp [gather]
  | cons b bs ih =>
    have hall' : before ++ b.files ++ bs.flatMap (·.files) = all := by simpa using hall
    have hfound : (c.scanFiles fs seen b.files).1.scenarios = (c.outcomesIn fs all b).filterMap Scanner.scenario? := by
      rw [scanFiles_eq, fresh_eq_filter hall' hnodup hseen, outcomesIn, List.filterMap_flatMap]
      rfl
    have hseen' : ∀ loc, loc ∈ (c.scanFiles fs seen b.files).2 ↔ loc ∈ (before ++ b.files).map (·.2.1) := fun loc => by
      rw [mem_seen_scanFiles, hseen, List.map_append, List.mem_append, List.mem_map (l := b.files)]
    rw [List.map_cons, List.append_cons] at hnames
    have hnew : b.scope ∉ findings.scopes.map (·.name) := fun h =>
      List.disjoint_of_nodup_append (List.nodup_append.1 hnames).1 h (List.mem_singleton_self _)
    rw [gather, List.map_cons, List.filter_cons, ← hfound]
    by_cases hne : (c.scanFiles fs seen b.files).1.scenarios = []
    · rw [if_neg (by simpa using hne), ih hall' hseen', Findings.add_of_empty hne]
      rw [Findings.add_of_empty hne]
      exact hnames.sublist (by simp)
    · rw [if_pos (by simpa using hne), ih hall' hseen', Findings.add_of_ne hne, Findings.addToScopes_of_not_mem _ hnew,
        List.append_assoc]
      · rfl
      · rw [Findings.add_of_ne hne, Findings.addToScopes_of_not_mem _ hnew, List.map_append]
        exact hnames

/-- In directories with scopes of their own everything is found in order. -/
theorem gather_inOrder (hnames : (bs.map (·.scope)).Nodup) (hfiles : (bs.flatMap (·.files)).Nodup) :
    c.gather fs .empty [] bs = c.inOrder fs bs := by
  have hseen : ∀ loc, loc ∈ ([] : List Location) ↔ loc ∈ ([] : List SourceFile).map (·.2.1) := fun _ => Iff.rfl
  have hscopes : (c.gather fs .empty [] bs).scopes = (c.inOrder fs bs).scopes :=
    gather_scopes (List.nil_append _) hfiles hseen hnames
  have hfresh : SourceFile.fresh [] (bs.flatMap (·.files)) =
      bs.flatMap fun b => b.files.filter (SourceFile.IsFirst (bs.flatMap (·.files))) := by
    rw [← List.filter_flatMap]
    exact fresh_eq_filter (List.append_nil _) hfiles hseen
  have hskipped : (c.gather fs .empty [] bs).skipped = (c.inOrder fs bs).skipped := by
    rw [gather_skipped, hfresh, List.flatMap_assoc, inOrder, List.filterMap_flatMap]
    refine List.flatMap_congr fun b _ => ?_
    rw [outcomesIn, List.filterMap_flatMap]
    rfl
  rw [Findings.mk.injEq]
  exact ⟨hscopes, hskipped⟩

end Collector

end ScenarioDocs
