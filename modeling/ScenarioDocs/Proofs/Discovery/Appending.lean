import Mathlib
import ScenarioDocs.Proofs.Discovery.Batches

/-!
# More source paths

A search takes nothing back: what further paths lead to comes after what was
found before, in the same scopes or in new ones. A path that was searched
already leads to nothing but visited directories and seen files, so it changes
nothing.
-/

namespace ScenarioDocs

namespace Search

structure GoesOn (s s' : Search) : Prop where
  findings : s.findings.Extends s'.findings
  visited : s.visited ⊆ s'.visited
  seen : s.seen ⊆ s'.seen

/-- The directory of a batch was visited, or its files were seen. -/
def Knows (s : Search) (b : Batch) : Prop :=
  match b.directory? with
  | none => ∀ f ∈ b.files, f.2.1 ∈ s.seen
  | some dir => dir ∈ s.visited

variable {s s' s'' : Search} {b : Batch}

theorem GoesOn.refl (s : Search) : s.GoesOn s := ⟨.refl _, fun _ h => h, fun _ h => h⟩

theorem GoesOn.trans (h : s.GoesOn s') (h' : s'.GoesOn s'') : s.GoesOn s'' :=
  ⟨h.findings.trans h'.findings, fun _ hmem => h'.visited (h.visited hmem), fun _ hmem => h'.seen (h.seen hmem)⟩

theorem Knows.goesOn (hb : s.Knows b) (h : s.GoesOn s') : s'.Knows b := by
  unfold Knows at hb ⊢
  split
  · rename_i hdir
    rw [hdir] at hb
    exact fun f hf => h.seen (hb f hf)
  · rename_i dir hdir
    rw [hdir] at hb
    exact h.visited hb

end Search

namespace Collector

variable {c : Collector} {refused : Refusals} {fs : FileSystem} {s s' s'' : Search} {seen seen' : List Location}
  {scope : Text} {files : List SourceFile} {v : Visit} {b : Batch} {bs : List Batch} {p : SourcePath}
  {paths : List SourcePath}

/-! ## Reading on -/

theorem addFiles_goesOn (s : Search) (scope : Text) (files : List SourceFile) :
    s.GoesOn (c.addFiles fs s scope files) :=
  ⟨Findings.extends_add _ _ _, fun _ h => h, fun _ h => mem_seen_scanFiles.2 (.inl h)⟩

theorem read_goesOn (s : Search) (b : Batch) : s.GoesOn (c.read fs s b) := by
  unfold read
  split
  · exact addFiles_goesOn s _ _
  · rename_i dir _
    split
    · exact .refl s
    · have hvisit : s.GoesOn { s with visited := dir :: s.visited } :=
        ⟨.refl _, fun _ h => List.mem_cons_of_mem _ h, fun _ h => h⟩
      exact hvisit.trans (addFiles_goesOn _ _ _)

theorem knows_read (s : Search) (b : Batch) : (c.read fs s b).Knows b := by
  unfold Search.Knows read
  cases b.directory? with
  | none => exact fun f hf => mem_seen_scanFiles.2 (.inr ⟨f, hf, rfl⟩)
  | some dir =>
    by_cases h : s.visited.contains dir = true
    · simp only [if_pos h]
      exact List.contains_iff_mem.1 h
    · simp only [if_neg h]
      exact List.mem_cons_self ..

theorem foldl_read_goesOn (s : Search) (bs : List Batch) : s.GoesOn (bs.foldl (c.read fs) s) := by
  induction bs generalizing s with
  | nil => exact .refl s
  | cons b bs ih => exact (read_goesOn s b).trans (ih _)

theorem knows_foldl_read (s : Search) (hb : b ∈ bs) : (bs.foldl (c.read fs) s).Knows b := by
  induction bs generalizing s with
  | nil => cases hb
  | cons b' bs ih =>
    rcases List.mem_cons.1 hb with rfl | hb
    · exact (knows_read s b).goesOn (foldl_read_goesOn _ bs)
    · exact ih _ hb

/-! ## Reading again -/

theorem fresh_eq_nil {seen : List Location} (h : ∀ f ∈ files, f.2.1 ∈ seen) : SourceFile.fresh seen files = [] :=
  List.eq_nil_iff_forall_not_mem.2 fun f hf => (mem_of_mem_fresh hf).2 (h f (mem_of_mem_fresh hf).1)

theorem addFiles_of_seen (h : ∀ f ∈ files, f.2.1 ∈ s.seen) : c.addFiles fs s scope files = s := by
  rw [addFiles, scanFiles_eq, fresh_eq_nil h]
  simp only [List.flatMap_nil, Findings.add_nothing]
  rfl

theorem read_of_knows (h : s.Knows b) : c.read fs s b = s := by
  unfold Search.Knows at h
  unfold read
  cases hdir : b.directory? with
  | none =>
    rw [hdir] at h
    exact addFiles_of_seen h
  | some dir =>
    rw [hdir] at h
    exact if_pos (List.contains_iff_mem.2 h)

theorem foldl_read_of_knows (h : ∀ b ∈ bs, s.Knows b) : bs.foldl (c.read fs) s = s := by
  induction bs with
  | nil => rfl
  | cons b bs ih =>
    obtain ⟨hb, hbs⟩ := List.forall_mem_cons.1 h
    rw [List.foldl_cons, read_of_knows hb, ih hbs]

/-- Files that could be opened are recognised again, and not opened. -/
theorem openAll_again (h : refused.openAll seen files = .ok ()) (hseen : ∀ f ∈ files, f.2.1 ∈ seen') :
    refused.openAll seen' files = .ok () := by
  induction files generalizing seen with
  | nil => rfl
  | cons f files ih =>
    obtain ⟨path, loc, id⟩ := f
    obtain ⟨hmem, hfiles⟩ := List.forall_mem_cons.1 hseen
    rw [Refusals.openAll] at h ⊢
    split at h
    · cases h
    · rename_i hshort
      obtain ⟨⟨⟩, hresolve, h⟩ := bind_eq_ok_iff.1 h
      rw [if_neg hshort, hresolve]
      refine (if_pos (List.contains_iff_mem.2 hmem)).trans ?_
      split at h
      · exact ih h hfiles
      · obtain ⟨-, -, h⟩ := bind_eq_ok_iff.1 h
        exact ih h hfiles

theorem visit_again (h : c.visit refused fs s v = .ok s') (hv : v.loc ∈ s''.visited) :
    c.visit refused fs s'' v = .ok s'' := by
  unfold visit at h ⊢
  split at h
  · cases h
  · rename_i hshort
    obtain ⟨⟨⟩, hresolve, -⟩ := bind_eq_ok_iff.1 h
    rw [if_neg hshort, hresolve]
    exact if_pos (List.contains_iff_mem.2 hv)

theorem foldlM_visit_again {dirs : List Visit} (h : dirs.foldlM (c.visit refused fs) s = .ok s')
    (hdirs : ∀ v ∈ dirs, v.loc ∈ s''.visited) : dirs.foldlM (c.visit refused fs) s'' = .ok s'' := by
  induction dirs generalizing s with
  | nil => rfl
  | cons v dirs ih =>
    rw [List.foldlM_cons] at h ⊢
    obtain ⟨hv, hdirs⟩ := List.forall_mem_cons.1 hdirs
    obtain ⟨s1, hvisit, h⟩ := bind_eq_ok_iff.1 h
    rw [visit_again hvisit hv]
    exact ih h hdirs

theorem collectPath_again (h : c.collectPath refused fs s p = .ok s')
    (hknows : ∀ b ∈ c.batches refused fs p, s''.Knows b) : c.collectPath refused fs s'' p = .ok s'' := by
  obtain ⟨hlook, ⟨loc, id, hfind⟩ | ⟨loc, hfind⟩⟩ := find_of_collectPath h
  · rw [collectPath_of_file hlook hfind] at h ⊢
    obtain ⟨⟨⟩, hopen, -⟩ := map_eq_ok_iff.1 (mapError_eq_ok_iff.1 h)
    rw [foldl_read_of_knows hknows]
    rw [batches_of_file hfind, List.forall_mem_singleton] at hknows
    rw [openAll_again hopen hknows]
    rfl
  · have hvisits := foldlM_of_collectPath hfind h
    rw [batches_of_not_file (by simp [hfind]), List.forall_mem_map] at hknows
    rw [collectPath_of_directory hlook hfind] at h ⊢
    obtain ⟨⟨⟩, hentered, -⟩ := bind_eq_ok_iff.1 (mapError_eq_ok_iff.1 h)
    rw [hentered]
    exact congrArg (Except.mapError Error.system) (foldlM_visit_again hvisits hknows)

/-! ## Searching on -/

theorem collectPaths_append (s : Search) (ps qs : List SourcePath) :
    c.collectPaths refused fs s (ps ++ qs) =
      c.collectPaths refused fs s ps >>= fun s' => c.collectPaths refused fs s' qs := by
  induction ps generalizing s with
  | nil => rfl
  | cons p ps ih =>
    rw [List.cons_append, collectPaths, collectPaths]
    cases c.collectPath refused fs s p with
    | error e => rfl
    | ok s' => exact ih s'

theorem collectPaths_goesOn (h : c.collectPaths refused fs s paths = .ok s') : s.GoesOn s' := by
  rw [(collectPaths_ok h).1]
  exact foldl_read_goesOn _ _

theorem collectPath_of_mem (h : c.collectPaths refused fs s paths = .ok s') (hp : p ∈ paths) :
    c.collectPath refused fs s' p = .ok s' := by
  have hknows : ∀ b ∈ c.batches refused fs p, s'.Knows b := by
    intro b hb
    rw [(collectPaths_ok h).1]
    exact knows_foldl_read _ (List.mem_flatMap.2 ⟨p, hp, hb⟩)
  -- the path led somewhere when its turn came, so it still does
  obtain ⟨before, after, rfl⟩ := List.append_of_mem hp
  rw [collectPaths_append] at h
  obtain ⟨s1, -, h⟩ := bind_eq_ok_iff.1 h
  rw [collectPaths] at h
  split at h
  · rename_i hpath
    exact collectPath_again hpath hknows
  · cases h

theorem collectPaths_again (h : c.collectPaths refused fs s paths = .ok s') {again : List SourcePath}
    (hsub : again ⊆ paths) : c.collectPaths refused fs s' again = .ok s' := by
  induction again with
  | nil => rfl
  | cons p again ih =>
    obtain ⟨hp, hsub⟩ := List.cons_subset.1 hsub
    rw [collectPaths, collectPath_of_mem h hp]
    exact ih hsub

/-- More source paths add to what was found. Paths that were given before add nothing. -/
theorem collect_append (c : Collector) (refused : Refusals) (fs : FileSystem) (ps qs : List Text) :
    (∀ f', c.collectUnder refused fs (ps ++ qs) = .ok f' → ∃ f, c.collectUnder refused fs ps = .ok f ∧ f.Extends f') ∧
      (qs ⊆ ps → c.collectUnder refused fs (ps ++ qs) = c.collectUnder refused fs ps) := by
  unfold collectUnder
  rw [List.map_append, collectPaths_append]
  constructor
  · intro f' h
    obtain ⟨s', hrun, rfl⟩ := map_eq_ok_iff.1 h
    obtain ⟨s, hps, hqs⟩ := bind_eq_ok_iff.1 hrun
    exact ⟨s.findings, map_eq_ok_iff.2 ⟨s, hps, rfl⟩, (collectPaths_goesOn hqs).findings⟩
  · intro hsub
    cases hps : c.collectPaths refused fs ⟨.empty, [], []⟩ (ps.map .ofSpec) with
    | error e => rfl
    | ok s => exact congrArg (Except.map (·.findings)) (collectPaths_again hps (List.map_subset _ hsub))

def besides : FileSystem :=
  let work := Location.root.child "work"
  let dir := work.child "s"
  let marker := Utf8.encode "// +docgenerator:pod"
  ⟨[(work, .directory), (dir, .directory), (dir.child "a.go", .file 0), (dir.child "b.go", .file 1),
      (work.child "c.go", .file 2)], [(0, marker), (1, marker), (2, marker)], 3, [], work⟩

theorem collect_besides : (⟨.standard, ["go"]⟩ : Collector).collect besides ["s/a.go", "c.go", "s"] =
    .ok ⟨[⟨"s", [.blank, .blank]⟩, ⟨[], [.blank]⟩], []⟩ := by
  cbv

/-- The directory adds to the first scope, though another has come after it. -/
theorem collect_append_besides : ∃ f f', (⟨.standard, ["go"]⟩ : Collector).collect besides ["s/a.go", "c.go"] = .ok f ∧
    (⟨.standard, ["go"]⟩ : Collector).collect besides ["s/a.go", "c.go", "s"] = .ok f' ∧ f.Extends f' ∧
      f.scopes = [⟨"s", [.blank]⟩, ⟨[], [.blank]⟩] ∧
      (⟨.standard, ["go"]⟩ : Collector).collect besides ["s/a.go", "c.go", "s", "c.go"] = .ok f' := by
  obtain ⟨happends, -⟩ := collect_append ⟨.standard, ["go"]⟩ .nothing besides ["s/a.go", "c.go"] ["s"]
  obtain ⟨-, hagain⟩ := collect_append ⟨.standard, ["go"]⟩ .nothing besides ["s/a.go", "c.go", "s"] ["c.go"]
  obtain ⟨f, hf, hextends⟩ := happends _ collect_besides
  refine ⟨f, _, hf, collect_besides, hextends, ?_, (hagain (by simp)).trans collect_besides⟩
  have h : (⟨.standard, ["go"]⟩ : Collector).collect besides ["s/a.go", "c.go"] =
      .ok ⟨[⟨"s", [.blank]⟩, ⟨[], [.blank]⟩], []⟩ := by
    cbv
  exact congrArg Findings.scopes (Except.ok.inj (hf.symm.trans h))

end Collector

end ScenarioDocs
