import ScenarioDocs.Discovery.Coverage
import ScenarioDocs.Proofs.FileSystem.Directories
import ScenarioDocs.Proofs.Findings.Scopes

/-!
# Batches of files

A search reads batches of files, each into one scope: a directory's files, or
a single one. A directory that was visited gives no second batch and a file
that was seen is not read again, so what is found is what the remaining files
hold, in order.
-/

namespace ScenarioDocs

structure Batch where
  scope : Text
  /-- The directory of the files, unless a path leads to a single one. -/
  directory? : Option Location
  files : List SourceFile

def Batch.opened (visited : List Location) : List Batch → List Batch
  | [] => []
  | b :: bs =>
    match b.directory? with
    | none => b :: opened visited bs
    | some dir => if visited.contains dir then opened visited bs else b :: opened (dir :: visited) bs

def SourceFile.fresh (seen : List Location) : List SourceFile → List SourceFile
  | [] => []
  | f :: fs => if seen.contains f.2.1 then fresh seen fs else f :: fresh (f.2.1 :: seen) fs

def SourcePath.visits (fs : FileSystem) (p : SourcePath) : List Visit :=
  match fs.find p.root with
  | .ok (loc, .directory) => if p.recursive then fs.visits fs.depth ⟨p.root, loc⟩ else [⟨p.root, loc⟩]
  | _ => []

def SourcePath.ShortWays (fs : FileSystem) (p : SourcePath) : Prop :=
  ∀ v ∈ p.visits fs, FileSystem.isTooLong v.path = false

namespace Collector

variable (c : Collector) (refused : Refusals) (fs : FileSystem)

def batchOf (v : Visit) : Batch := ⟨v.path, some v.loc, c.filesIn refused fs v⟩

def batches (p : SourcePath) : List Batch :=
  match fs.find p.root with
  | .ok (loc, .file id) => [⟨(Path.parent? p.root).getD [], none, [(p.root, loc, id)]⟩]
  | _ => (p.visits fs).map (c.batchOf refused fs)

def found (f : SourceFile) : Found := c.scanner.scan (Utf8.decodeLossy (fs.bytes f.2.2)) f.1

def gather (f : Findings) (seen : List Location) : List Batch → Findings
  | [] => f
  | b :: bs => gather (f.add b.scope (c.scanFiles fs seen b.files).1) (c.scanFiles fs seen b.files).2 bs

def read (s : Search) (b : Batch) : Search :=
  match b.directory? with
  | none => c.addFiles fs s b.scope b.files
  | some dir =>
    if s.visited.contains dir then s
    else c.addFiles fs { s with visited := dir :: s.visited } b.scope b.files

variable {c refused fs} {s s' : Search} {seen visited : List Location} {p : SourcePath} {paths : List SourcePath}
  {bs : List Batch} {b : Batch} {f : SourceFile} {files : List SourceFile} {findings : Findings} {v : Visit}

/-! ## The files that are read -/

theorem fresh_append (seen : List Location) (files files' : List SourceFile) :
    SourceFile.fresh seen (files ++ files') = SourceFile.fresh seen files ++
      SourceFile.fresh (((SourceFile.fresh seen files).map (·.2.1)).reverse ++ seen) files' := by
  induction files generalizing seen with
  | nil => rfl
  | cons f files ih =>
    rw [List.cons_append, SourceFile.fresh, SourceFile.fresh]
    split
    · exact ih seen
    · simp [ih (f.2.1 :: seen)]

theorem mem_of_mem_fresh (h : f ∈ SourceFile.fresh seen files) : f ∈ files ∧ f.2.1 ∉ seen := by
  induction files generalizing seen with
  | nil => cases h
  | cons g files ih =>
    rw [SourceFile.fresh] at h
    split at h
    · exact ⟨List.mem_cons_of_mem _ (ih h).1, (ih h).2⟩
    · rename_i hg
      rcases List.mem_cons.1 h with rfl | h
      · exact ⟨List.mem_cons_self .., by simpa using hg⟩
      · exact ⟨List.mem_cons_of_mem _ (ih h).1, fun hs => (ih h).2 (List.mem_cons_of_mem _ hs)⟩

theorem exists_mem_fresh (seen : List Location) (h : f ∈ files) :
    f.2.1 ∈ seen ∨ ∃ g ∈ SourceFile.fresh seen files, g.2.1 = f.2.1 := by
  induction files generalizing seen with
  | nil => cases h
  | cons g files ih =>
    rw [SourceFile.fresh]
    split
    · rename_i hg
      rcases List.mem_cons.1 h with rfl | h
      · exact .inl (by simpa using hg)
      · exact ih seen h
    · rcases List.mem_cons.1 h with rfl | h
      · exact .inr ⟨f, List.mem_cons_self .., rfl⟩
      · rcases ih (g.2.1 :: seen) h with hs | ⟨k, hk, hloc⟩
        · rcases List.mem_cons.1 hs with hs | hs
          · exact .inr ⟨g, List.mem_cons_self .., hs.symm⟩
          · exact .inl hs
        · exact .inr ⟨k, List.mem_cons_of_mem _ hk, hloc⟩

theorem nodup_fresh (seen : List Location) (files : List SourceFile) :
    ((SourceFile.fresh seen files).map (·.2.1)).Nodup := by
  induction files generalizing seen with
  | nil => exact List.nodup_nil
  | cons f files ih =>
    rw [SourceFile.fresh]
    split
    · exact ih seen
    · rw [List.map_cons, List.nodup_cons]
      refine ⟨fun hmem => ?_, ih (f.2.1 :: seen)⟩
      obtain ⟨g, hg, hloc⟩ := List.mem_map.1 hmem
      exact (mem_of_mem_fresh hg).2 (hloc ▸ List.mem_cons_self ..)

theorem scanFiles_eq (seen : List Location) (files : List SourceFile) :
    c.scanFiles fs seen files =
      (⟨(SourceFile.fresh seen files).flatMap fun f => (c.found fs f).scenarios,
        (SourceFile.fresh seen files).flatMap fun f => (c.found fs f).skipped⟩,
        ((SourceFile.fresh seen files).map (·.2.1)).reverse ++ seen) := by
  induction files generalizing seen with
  | nil => rfl
  | cons f files ih =>
    obtain ⟨path, loc, id⟩ := f
    rw [scanFiles, SourceFile.fresh]
    split
    · exact ih seen
    · rw [ih (loc :: seen)]
      simp [found]

theorem mem_seen_scanFiles {loc : Location} :
    loc ∈ (c.scanFiles fs seen files).2 ↔ loc ∈ seen ∨ ∃ f ∈ files, f.2.1 = loc := by
  rw [scanFiles_eq, List.mem_append, List.mem_reverse, List.mem_map]
  constructor
  · rintro (⟨f, hf, rfl⟩ | hseen)
    · exact .inr ⟨f, (mem_of_mem_fresh hf).1, rfl⟩
    · exact .inl hseen
  · rintro (hseen | ⟨f, hf, rfl⟩)
    · exact .inr hseen
    · obtain hseen | hfresh := exists_mem_fresh seen hf
      · exact .inr hseen
      · exact .inl hfresh

/-! ## The batches that are read -/

theorem foldl_read_findings (s : Search) (bs : List Batch) :
    (bs.foldl (c.read fs) s).findings = c.gather fs s.findings s.seen (Batch.opened s.visited bs) := by
  induction bs generalizing s with
  | nil => rfl
  | cons b bs ih =>
    rw [List.foldl_cons, ih, Batch.opened]
    unfold read
    cases b.directory? with
    | none => rfl
    | some dir =>
      by_cases h : s.visited.contains dir = true
      · simp only [if_pos h]
      · simp only [if_neg h]
        rfl

theorem mem_opened_of_none (h : b.directory? = none) : b ∈ Batch.opened visited bs ↔ b ∈ bs := by
  induction bs generalizing visited with
  | nil => exact Iff.rfl
  | cons a bs ih =>
    rw [Batch.opened, List.mem_cons]
    cases hdir : a.directory? with
    | none => simp only [List.mem_cons, ih]
    | some dir =>
      have hne : b ≠ a := by
        rintro rfl
        rw [h] at hdir
        cases hdir
      simp only [hne, false_or]
      split
      · exact ih
      · rw [List.mem_cons, or_iff_right hne]
        exact ih

/-- Of the batches of a directory the first is read, unless the directory was visited at the start. -/
theorem mem_opened_iff {dir : Location} (h : b.directory? = some dir) : b ∈ Batch.opened visited bs ↔
    dir ∉ visited ∧ bs.find? (fun b' => b'.directory? = some dir) = some b := by
  induction bs generalizing visited with
  | nil => simp [Batch.opened]
  | cons a bs ih =>
    rw [Batch.opened, List.find?_cons]
    cases hdir : a.directory? with
    | none =>
      have hne : b ≠ a := by
        rintro rfl
        rw [h] at hdir
        cases hdir
      simpa [hne] using ih
    | some dir' =>
      simp only [Option.some.injEq]
      by_cases hsame : dir' = dir
      · subst hsame
        rw [decide_eq_true rfl]
        split
        · rename_i hvisited
          rw [ih]
          exact iff_of_false (fun hb => hb.1 (by simpa using hvisited)) fun hb => hb.1 (by simpa using hvisited)
        · -- it is the first, and no later one is read
          rename_i hvisited
          have hnot : dir' ∉ visited := by simpa using hvisited
          rw [List.mem_cons, ih]
          simp [hnot, eq_comm]
      · have hne : b ≠ a := by
          rintro rfl
          exact hsame (Option.some.inj (hdir.symm.trans h))
        rw [decide_eq_false hsame]
        split
        · exact ih
        · rw [List.mem_cons, or_iff_right hne, ih, List.mem_cons, not_or]
          simp [Ne.symm hsame]

/-! ## Running over source paths -/

theorem batches_of_file {loc : Location} {id : FileId} (h : fs.find p.root = .ok (loc, .file id)) :
    c.batches refused fs p = [⟨(Path.parent? p.root).getD [], none, [(p.root, loc, id)]⟩] := by
  rw [batches, h]

theorem batches_of_not_file (h : ∀ loc id, fs.find p.root ≠ .ok (loc, .file id)) :
    c.batches refused fs p = (p.visits fs).map (c.batchOf refused fs) := by
  unfold batches
  split
  · rename_i hfind
    exact absurd hfind (h _ _)
  · rfl

theorem visits_of_file {loc : Location} {id : FileId} (h : fs.find p.root = .ok (loc, .file id)) :
    p.visits fs = [] := by
  rw [SourcePath.visits, h]

theorem visit_ok (h : c.visit refused fs s v = .ok s') :
    s' = c.read fs s (c.batchOf refused fs v) ∧ FileSystem.isTooLong v.path = false := by
  unfold visit at h
  split at h
  · cases h
  · rename_i hshort
    refine ⟨?_, by simpa using hshort⟩
    obtain ⟨-, -, h⟩ := bind_eq_ok_iff.1 h
    show s' = if s.visited.contains v.loc then s else _
    split at h
    · rename_i hvisited
      rw [if_pos hvisited]
      exact (Except.ok.inj h).symm
    · rename_i hnew
      rw [if_neg hnew]
      split at h
      · cases h
      · obtain ⟨-, -, h⟩ := bind_eq_ok_iff.1 h
        obtain ⟨-, -, h⟩ := bind_eq_ok_iff.1 h
        exact (Except.ok.inj h).symm

theorem foldlM_visit_ok {dirs : List Visit} (h : dirs.foldlM (c.visit refused fs) s = .ok s') :
    s' = (dirs.map (c.batchOf refused fs)).foldl (c.read fs) s ∧ ∀ v ∈ dirs, FileSystem.isTooLong v.path = false := by
  induction dirs generalizing s with
  | nil =>
    cases h
    exact ⟨rfl, nofun⟩
  | cons v dirs ih =>
    rw [List.foldlM_cons] at h
    obtain ⟨s1, hvisit, h⟩ := bind_eq_ok_iff.1 h
    obtain ⟨rfl, hshort⟩ := visit_ok hvisit
    rw [List.forall_mem_cons]
    exact ⟨(ih h).1, hshort, (ih h).2⟩

theorem find_of_collectPath (h : c.collectPath refused fs s p = .ok s') : refused .look p.root = none ∧
    ((∃ loc id, fs.find p.root = .ok (loc, .file id)) ∨ ∃ loc, fs.find p.root = .ok (loc, .directory)) := by
  unfold collectPath at h
  split at h
  · cases h
  · cases h
  · rename_i hlook hfind
    exact ⟨hlook, .inl ⟨_, _, hfind⟩⟩
  · rename_i loc entry _ hlook hfind
    cases entry with
    | directory => exact ⟨hlook, .inr ⟨loc, hfind⟩⟩
    | file id => exact ⟨hlook, .inl ⟨loc, id, hfind⟩⟩
    | link t => exact absurd hfind FileSystem.find_ne_link

theorem collectPath_of_file {loc : Location} {id : FileId} (hlook : refused .look p.root = none)
    (hfind : fs.find p.root = .ok (loc, .file id)) : c.collectPath refused fs s p =
      ((refused.openAll s.seen [(p.root, loc, id)]).map fun _ =>
        (c.batches refused fs p).foldl (c.read fs) s).mapError .system := by
  rw [collectPath, batches_of_file hfind, hlook, hfind]
  rfl

theorem collectPath_of_directory {loc : Location} (hlook : refused .look p.root = none)
    (hfind : fs.find p.root = .ok (loc, .directory)) : c.collectPath refused fs s p =
      ((if p.recursive then refused.enterAll (p.visits fs) else .ok ()) >>= fun _ =>
        (p.visits fs).foldlM (c.visit refused fs) s).mapError .system := by
  rw [collectPath, SourcePath.visits, hlook, hfind]

theorem foldlM_of_collectPath {loc : Location} (hfind : fs.find p.root = .ok (loc, .directory))
    (h : c.collectPath refused fs s p = .ok s') : (p.visits fs).foldlM (c.visit refused fs) s = .ok s' := by
  rw [collectPath_of_directory (find_of_collectPath h).1 hfind] at h
  obtain ⟨-, -, h⟩ := bind_eq_ok_iff.1 (mapError_eq_ok_iff.1 h)
  exact h

/-- Its batches are read in order, and no way into a directory is too long. -/
theorem collectPath_ok (h : c.collectPath refused fs s p = .ok s') :
    s' = (c.batches refused fs p).foldl (c.read fs) s ∧ p.ShortWays fs := by
  obtain ⟨hlook, ⟨loc, id, hfind⟩ | ⟨loc, hfind⟩⟩ := find_of_collectPath h
  · rw [SourcePath.ShortWays, visits_of_file hfind]
    rw [collectPath_of_file hlook hfind] at h
    obtain ⟨-, -, hadded⟩ := map_eq_ok_iff.1 (mapError_eq_ok_iff.1 h)
    exact ⟨hadded.symm, nofun⟩
  · rw [batches_of_not_file (by simp [hfind])]
    exact foldlM_visit_ok (foldlM_of_collectPath hfind h)

theorem collectPaths_ok (h : c.collectPaths refused fs s paths = .ok s') :
    s' = (paths.flatMap (c.batches refused fs)).foldl (c.read fs) s ∧ ∀ p ∈ paths, p.ShortWays fs := by
  induction paths generalizing s with
  | nil =>
    cases h
    exact ⟨rfl, nofun⟩
  | cons p paths ih =>
    rw [collectPaths] at h
    split at h
    · rename_i s1 hpath
      obtain ⟨rfl, hshort⟩ := collectPath_ok hpath
      rw [List.flatMap_cons, List.foldl_append, List.forall_mem_cons]
      exact ⟨(ih h).1, hshort, (ih h).2⟩
    · cases h

theorem collect_ok {specs : List Text} (h : c.collectUnder refused fs specs = .ok findings) :
    findings = c.gather fs .empty [] (Batch.opened [] ((specs.map SourcePath.ofSpec).flatMap (c.batches refused fs))) ∧
      ∀ p ∈ specs.map SourcePath.ofSpec, p.ShortWays fs := by
  obtain ⟨s, hrun, rfl⟩ := map_eq_ok_iff.1 h
  obtain ⟨rfl, hshort⟩ := collectPaths_ok hrun
  exact ⟨foldl_read_findings _ _, hshort⟩

/-! ## What is gathered -/

theorem gather_scenarios (f : Findings) (seen : List Location) (bs : List Batch) :
    ((c.gather fs f seen bs).scopes.flatMap (·.scenarios)).Perm (f.scopes.flatMap (·.scenarios) ++
      (SourceFile.fresh seen (bs.flatMap (·.files))).flatMap fun g => (c.found fs g).scenarios) := by
  induction bs generalizing f seen with
  | nil => simp [gather, SourceFile.fresh]
  | cons b bs ih =>
    rw [gather, List.flatMap_cons, fresh_append, List.flatMap_append, ← List.append_assoc]
    refine (ih _ _).trans ?_
    rw [scanFiles_eq]
    exact (Findings.perm_add f _ _).append_right _

theorem gather_skipped (f : Findings) (seen : List Location) (bs : List Batch) :
    (c.gather fs f seen bs).skipped = f.skipped ++
      (SourceFile.fresh seen (bs.flatMap (·.files))).flatMap fun g => (c.found fs g).skipped := by
  induction bs generalizing f seen with
  | nil => simp [gather, SourceFile.fresh]
  | cons b bs ih =>
    rw [gather, List.flatMap_cons, fresh_append, List.flatMap_append, ← List.append_assoc, ih, scanFiles_eq]
    rfl

theorem proper_gather (h : findings.Proper) (seen : List Location) (bs : List Batch) :
    (c.gather fs findings seen bs).Proper := by
  induction bs generalizing findings seen with
  | nil => exact h
  | cons b bs ih => exact ih (Findings.proper_add h _ _) _

theorem exists_batch_of_scope {scope : Scope} (h : scope ∈ (c.gather fs findings seen bs).scopes) :
    (∃ before ∈ findings.scopes, before.name = scope.name) ∨ ∃ b ∈ bs, b.scope = scope.name := by
  induction bs generalizing findings seen with
  | nil => exact .inl ⟨scope, h, rfl⟩
  | cons b bs ih =>
    rcases ih h with ⟨before, hbefore, hname⟩ | ⟨b', hb', hname⟩
    · rw [← hname]
      rcases Findings.name_of_mem_add hbefore with hscope | hbefore
      · exact .inr ⟨b, List.mem_cons_self .., hscope.symm⟩
      · exact .inl hbefore
    · exact .inr ⟨b', List.mem_cons_of_mem _ hb', hname⟩

end Collector

end ScenarioDocs
