import ScenarioDocs.Proofs.Discovery.Visits

/-!
# Searches that nothing stops

Where the system refuses nothing, a path can be searched if the paths and the
places of its directories and files are short enough, whatever was visited
before.
-/

namespace ScenarioDocs

open FileSystem

namespace Collector

/-- Whether a directory can be reached and, unless it was visited before, recognised with its
files. -/
def isReadable (c : Collector) (fs : FileSystem) (s : Search) (v : Visit) : Bool :=
  !isTooLong v.path && (s.visited.contains v.loc ||
    !isTooLong v.loc.path &&
      (fs.sourceFiles c.extensions v).all fun (_, loc, _) => !isTooLong loc.path)

variable {c : Collector} {fs : FileSystem} {s s' : Search} {seen : List Location} {files : List SourceFile}
  {v w : Visit} {p : SourcePath}

@[simp] theorem filesIn_nothing (v : Visit) : c.filesIn .nothing fs v = fs.sourceFiles c.extensions v :=
  List.filter_eq_self.2 fun _ _ => rfl

theorem enterAll_nothing {dirs : List Visit} (h : ∀ v ∈ dirs, isTooLong v.path = false) :
    Refusals.nothing.enterAll dirs = .ok () := by
  induction dirs with
  | nil => rfl
  | cons v dirs ih =>
    obtain ⟨hv, hdirs⟩ := List.forall_mem_cons.1 h
    rw [Refusals.enterAll, if_neg (by simp [hv])]
    exact ih hdirs

theorem openAll_nothing_iff : Refusals.nothing.openAll seen files = .ok () ↔
    ∀ f ∈ files, isTooLong f.2.1.path = false := by
  induction files generalizing seen with
  | nil => simp [Refusals.openAll]
  | cons f files ih =>
    obtain ⟨path, loc, id⟩ := f
    rw [Refusals.openAll, List.forall_mem_cons]
    cases hlong : isTooLong loc.path with
    | true => simp
    | false =>
      rw [if_neg (by decide), and_iff_right rfl]
      show (if seen.contains loc then _ else _) = _ ↔ _
      split
      · exact ih
      · exact ih

theorem visit_nothing_iff : c.visit .nothing fs s v = .ok s' ↔
    c.isReadable fs s v = true ∧ s' = c.read fs s (c.batchOf .nothing fs v) := by
  constructor
  · intro h
    obtain ⟨rfl, hshort⟩ := visit_ok h
    refine ⟨?_, rfl⟩
    rw [visit, if_neg (by simp [hshort])] at h
    obtain ⟨-, -, h⟩ := bind_eq_ok_iff.1 h
    rw [isReadable, hshort]
    split at h
    · rename_i hvisited
      rw [hvisited]
      rfl
    · split at h
      · cases h
      · rename_i hloc
        obtain ⟨-, -, h⟩ := bind_eq_ok_iff.1 h
        obtain ⟨⟨⟩, hopen, -⟩ := bind_eq_ok_iff.1 h
        rw [filesIn_nothing] at hopen
        have hfiles := openAll_nothing_iff.1 hopen
        simp only [Bool.not_false, Bool.true_and, Bool.or_eq_true, Bool.and_eq_true, Bool.not_eq_true',
          List.all_eq_true]
        exact .inr ⟨by simpa using hloc, fun f hf => hfiles f hf⟩
  · rintro ⟨hreadable, rfl⟩
    simp only [isReadable, Bool.and_eq_true, Bool.or_eq_true, Bool.not_eq_true', List.all_eq_true] at hreadable
    obtain ⟨hshort, hreadable⟩ := hreadable
    rw [visit, if_neg (by simp [hshort])]
    show (if s.visited.contains v.loc then _ else _) = Except.ok (if s.visited.contains v.loc then s else _)
    by_cases hvisited : s.visited.contains v.loc = true
    · rw [if_pos hvisited, if_pos hvisited]
      rfl
    · obtain ⟨hloc, hfiles⟩ := hreadable.resolve_left hvisited
      have hopen : Refusals.nothing.openAll s.seen (c.filesIn .nothing fs v) = .ok () := by
        rw [filesIn_nothing]
        exact openAll_nothing_iff.2 fun f hf => hfiles f hf
      rw [if_neg hvisited, if_neg hvisited, if_neg (by simp [hloc]), hopen]
      rfl

theorem read_visited (s : Search) (b : Batch) : s.visited ⊆ (c.read fs s b).visited := by
  unfold read
  split
  · exact fun _ h => h
  · split
    · exact fun _ h => h
    · exact fun _ h => List.mem_cons_of_mem _ h

theorem isReadable_mono (h : c.isReadable fs s v = true) (hvisited : s.visited ⊆ s'.visited) :
    c.isReadable fs s' v = true := by
  simp only [isReadable, Bool.and_eq_true, Bool.or_eq_true, List.contains_iff_mem] at h ⊢
  exact ⟨h.1, h.2.imp_left fun hmem => hvisited hmem⟩

theorem foldlM_visit_nothing {dirs : List Visit} (h : ∀ v ∈ dirs, c.isReadable fs s v = true) :
    dirs.foldlM (c.visit .nothing fs) s = .ok ((dirs.map (c.batchOf .nothing fs)).foldl (c.read fs) s) := by
  induction dirs generalizing s with
  | nil => rfl
  | cons v dirs ih =>
    obtain ⟨hv, hdirs⟩ := List.forall_mem_cons.1 h
    rw [List.foldlM_cons, visit_nothing_iff.2 ⟨hv, rfl⟩]
    exact ih fun w hw => isReadable_mono (hdirs w hw) (read_visited _ _)

theorem collectPath_nothing_of_file {loc : Location} {id : FileId} (h : fs.find p.root = .ok (loc, .file id)) :
    c.collectPath .nothing fs s p = if isTooLong loc.path then .error (.system .nameTooLong)
      else .ok ((c.batches .nothing fs p).foldl (c.read fs) s) := by
  rw [collectPath_of_file rfl h]
  by_cases hlong : isTooLong loc.path = true
  · rw [if_pos hlong, Refusals.openAll, if_pos hlong]
    rfl
  · have hopen : Refusals.nothing.openAll s.seen [(p.root, loc, id)] = .ok () :=
      openAll_nothing_iff.2 (by simpa using hlong)
    rw [if_neg hlong, hopen]
    rfl

theorem collectPath_nothing_of_directory {loc : Location} (h : fs.find p.root = .ok (loc, .directory))
    (hreadable : ∀ v ∈ p.visits fs, c.isReadable fs s v = true) :
    c.collectPath .nothing fs s p = .ok ((c.batches .nothing fs p).foldl (c.read fs) s) := by
  have hentered : (if p.recursive then Refusals.nothing.enterAll (p.visits fs) else .ok ()) = .ok () := by
    split
    · exact enterAll_nothing fun v hv => by simpa using (Bool.and_eq_true_iff.1 (hreadable v hv)).1
    · rfl
  rw [collectPath_of_directory rfl h, hentered, batches_of_not_file (by simp [h])]
  exact congrArg (Except.mapError Error.system) (foldlM_visit_nothing hreadable)

/-! ## What could be searched -/

theorem isReadable_of_read (h : c.isReadable fs (c.read fs s (c.batchOf .nothing fs v)) w = true) :
    c.isReadable fs s w = true ∨ w.loc = v.loc := by
  have hvisited : (c.read fs s (c.batchOf .nothing fs v)).visited =
      if s.visited.contains v.loc then s.visited else v.loc :: s.visited := by
    show (if s.visited.contains v.loc then s else _ : Search).visited = _
    split <;> rfl
  simp only [isReadable, hvisited, Bool.and_eq_true, Bool.or_eq_true, List.contains_iff_mem] at h ⊢
  obtain ⟨hshort, hmem | hloc⟩ := h
  · split at hmem
    · exact .inl ⟨hshort, .inl hmem⟩
    · exact (List.mem_cons.1 hmem).elim .inr fun hmem => .inl ⟨hshort, .inl hmem⟩
  · exact .inl ⟨hshort, .inr hloc⟩

theorem isReadable_of_foldlM {dirs : List Visit} (hinj : ∀ v ∈ dirs, ∀ w ∈ dirs, v.loc = w.loc → v = w)
    (h : dirs.foldlM (c.visit .nothing fs) s = .ok s') : ∀ v ∈ dirs, c.isReadable fs s v = true := by
  induction dirs generalizing s with
  | nil => exact nofun
  | cons v dirs ih =>
    rw [List.foldlM_cons] at h
    obtain ⟨s1, hvisit, h⟩ := bind_eq_ok_iff.1 h
    obtain ⟨hv, rfl⟩ := visit_nothing_iff.1 hvisit
    have hrest := ih (fun u hu w hw => hinj u (List.mem_cons_of_mem _ hu) w (List.mem_cons_of_mem _ hw)) h
    rw [List.forall_mem_cons]
    refine ⟨hv, fun w hw => (isReadable_of_read (hrest w hw)).elim id fun hloc => ?_⟩
    -- a directory is met in one way only
    rwa [hinj w (List.mem_cons_of_mem _ hw) v (List.mem_cons_self ..) hloc]

theorem isReadable_of_collectPath {loc : Location} (ht : fs.IsTree) (hfind : fs.find p.root = .ok (loc, .directory))
    (h : c.collectPath .nothing fs s p = .ok s') : ∀ v ∈ p.visits fs, c.isReadable fs s v = true := by
  refine isReadable_of_foldlM (fun v hv w hw hloc => ?_) (foldlM_of_collectPath hfind h)
  exact SourcePath.reaches_unique ((SourcePath.mem_visits_iff ht).1 hv) ((SourcePath.mem_visits_iff ht).1 hw) hloc

end Collector

end ScenarioDocs
