import ScenarioDocs.Proofs.Discovery.Silent
import ScenarioDocs.Proofs.Discovery.Unhindered

/-!
# Searching again

A search over files in which only silent ones and directories were added goes
on as before, step by step: what was seen and visited besides does not matter.
-/

namespace ScenarioDocs

open FileSystem

namespace Collector

/-- No link leads to a file with a marker that it did not lead to, and whatever is searched now and
was not before has paths that are short enough. -/
structure Undisturbed (c : Collector) (fs fs' : FileSystem) (paths : List SourcePath) : Prop where
  links : ∀ p ∈ paths, ∀ v ∈ p.visits fs, c.LinksStay fs fs' v
  ways : ∀ p ∈ paths, p.ShortWays fs'
  directories : ∀ p ∈ paths, ∀ v ∈ p.visits fs', v ∉ p.visits fs → isTooLong v.loc.path = false
  files : ∀ p ∈ paths, ∀ v ∈ p.visits fs', ∀ f ∈ fs'.sourceFiles c.extensions v,
    (∀ g ∈ fs.sourceFiles c.extensions v, g.2.1 ≠ f.2.1) → isTooLong f.2.1.path = false

variable {c : Collector} {fs fs' : FileSystem} {s s' s1 : Search} {loc : Location} {id : FileId}
  {seen : List Location} {files files' : List SourceFile} {f : SourceFile} {scope : Text} {v : Visit}
  {p : SourcePath} {paths : List SourcePath}

theorem Undisturbed.sublist {rest : List SourcePath} (h : c.Undisturbed fs fs' paths) (hrest : rest.Sublist paths) :
    c.Undisturbed fs fs' rest where
  links p hp := h.links p (hrest.subset hp)
  ways p hp := h.ways p (hrest.subset hp)
  directories p hp := h.directories p (hrest.subset hp)
  files p hp := h.files p (hrest.subset hp)

structure Agrees (c : Collector) (fs : FileSystem) (s s' : Search) : Prop where
  findings : s'.findings = s.findings
  visited : ∀ loc, fs.entry? loc = some .directory → (loc ∈ s'.visited ↔ loc ∈ s.visited)
  seen : ∀ loc, c.isLoud fs loc = true → (loc ∈ s'.seen ↔ loc ∈ s.seen)

/-! ## Files -/

theorem mem_sourceFiles (hd : fs.Distinct) : f ∈ fs.sourceFiles c.extensions v ↔
    ∃ name entry, fs.entry? (v.loc.child name) = some entry ∧ c.sourceFile? fs v name entry = some f := by
  rw [sourceFiles_eq, List.mem_filterMap]
  constructor
  · rintro ⟨⟨name, entry⟩, hmem, hf⟩
    exact ⟨name, entry, hd.mem_children_iff.1 hmem, hf⟩
  · rintro ⟨name, entry, hentry, hf⟩
    exact ⟨(name, entry), hd.mem_children_iff.2 hentry, hf⟩

theorem entry?_of_mem_sourceFiles (hd : fs.Distinct) (hf : f ∈ fs.sourceFiles c.extensions v) :
    fs.entry? f.2.1 = some (.file f.2.2) := by
  obtain ⟨name, entry, hentry, hfile⟩ := (mem_sourceFiles hd).1 hf
  obtain ⟨rfl, -, hloc⟩ | ⟨target, -, hfind⟩ := fileAt?_iff.1 (sourceFile?_eq_some_iff.1 hfile).1
  · rw [hloc]
    exact hentry
  · exact entry?_of_find hfind

theorem found_of_silent (hfile : fs.entry? f.2.1 = some (.file f.2.2)) (hquiet : c.isLoud fs f.2.1 = false) :
    c.found fs f = ⟨[], []⟩ := by
  apply Scanner.scan_of_silent
  by_contra hloud
  rw [isLoud_iff.2 ⟨f.2.2, hfile, hloud⟩] at hquiet
  cases hquiet

section
variable (h : c.Unheard fs fs')
include h

theorem Unheard.found (hfile : fs.entry? f.2.1 = some (.file f.2.2)) : c.found fs' f = c.found fs f := by
  rw [Collector.found, h.bytes _ _ hfile, Collector.found]

theorem Agrees.addFiles (ha : c.Agrees fs s s') (hfiles : ∀ f ∈ files, fs.entry? f.2.1 = some (.file f.2.2))
    (hfiles' : ∀ f ∈ files', fs'.entry? f.2.1 = some (.file f.2.2))
    (hloud : files'.filter (fun f => c.isLoud fs f.2.1) = files.filter fun f => c.isLoud fs f.2.1) :
    c.Agrees fs (c.addFiles fs s scope files) (c.addFiles fs' s' scope files') := by
  have hfound : (c.scanFiles fs' s'.seen files').1 = (c.scanFiles fs s.seen files).1 := by
    calc (c.scanFiles fs' s'.seen files').1
        = (c.scanFiles fs' s'.seen (files'.filter fun f => c.isLoud fs f.2.1)).1 :=
          scanFiles_filter (fun f hf hquiet => found_of_silent (hfiles' f hf) (by rw [h.isLoud_eq, hquiet])) _
      _ = (c.scanFiles fs s.seen (files.filter fun f => c.isLoud fs f.2.1)).1 := by
          rw [hloud]
          apply scanFiles_congr <;> intro f hf <;> obtain ⟨hf, hloud⟩ := List.mem_filter.1 hf
          · exact ha.seen _ hloud
          · exact h.found (hfiles f hf)
      _ = (c.scanFiles fs s.seen files).1 :=
          (scanFiles_filter (fun f hf hquiet => found_of_silent (hfiles f hf) hquiet) _).symm
  refine ⟨?_, ha.visited, fun loc hloc => ?_⟩
  · show s'.findings.add scope _ = s.findings.add scope _
    rw [hfound, ha.findings]
  · have hmem {l : List SourceFile} :
        (∃ f ∈ l, f.2.1 = loc) ↔ ∃ f ∈ l.filter (fun f => c.isLoud fs f.2.1), f.2.1 = loc := by
      simp only [List.mem_filter]
      constructor
      · rintro ⟨f, hf, rfl⟩
        exact ⟨f, ⟨hf, hloc⟩, rfl⟩
      · rintro ⟨f, ⟨hf, -⟩, hsame⟩
        exact ⟨f, hf, hsame⟩
    show loc ∈ (c.scanFiles fs' s'.seen files').2 ↔ loc ∈ (c.scanFiles fs s.seen files).2
    rw [mem_seen_scanFiles, mem_seen_scanFiles, ha.seen loc hloc, hmem (l := files'), hmem (l := files), hloud]

/-! ## Directories -/

/-- In a new directory is nothing but what is new. -/
theorem Unheard.new_of_new (ht : fs.IsTree) (hnew : isOld fs v = false) (hf : f ∈ fs'.sourceFiles c.extensions v) :
    fs.entry? f.2.1 = none := by
  have hnone (name : Text) : fs.entry? (v.loc.child name) = none := by
    cases hentry : fs.entry? (v.loc.child name) with
    | none => rfl
    | some entry => simp [isOld, ht.directory_of_child hentry] at hnew
  obtain ⟨name, entry, hentry, hfile⟩ := (mem_sourceFiles h.distinct).1 hf
  obtain ⟨rfl, -, hloc⟩ | ⟨target, rfl, -⟩ := fileAt?_iff.1 (sourceFile?_eq_some_iff.1 hfile).1
  · rw [hloc]
    exact hnone name
  · have hlink := h.link_of_link hentry
    rw [hnone] at hlink
    cases hlink

theorem Agrees.read_new (ht : fs.IsTree) (ha : c.Agrees fs s s') (hnew : isOld fs v = false) :
    c.Agrees fs s (c.read fs' s' (c.batchOf .nothing fs' v)) := by
  show c.Agrees fs s (if s'.visited.contains v.loc then s' else _)
  split
  · exact ha
  · have hvisited : c.Agrees fs s { s' with visited := v.loc :: s'.visited } := by
      refine ⟨ha.findings, fun loc hdir => ?_, ha.seen⟩
      have hne : loc ≠ v.loc := by
        rintro rfl
        simp [isOld, hdir] at hnew
      rw [List.mem_cons, or_iff_right hne]
      exact ha.visited loc hdir
    have hsilent : (fs'.sourceFiles c.extensions v).filter (fun f => c.isLoud fs f.2.1) = [] := by
      refine List.filter_eq_nil_iff.2 fun f hf => ?_
      simp [isLoud, h.new_of_new ht hnew hf]
    have hadded : c.Agrees fs (c.addFiles fs s v.path []) (c.addFiles fs' _ v.path (fs'.sourceFiles c.extensions v)) :=
      hvisited.addFiles h (fun f hf => absurd hf List.not_mem_nil)
        (fun f hf => entry?_of_mem_sourceFiles h.distinct hf) hsilent
    have hnothing : c.addFiles fs s v.path [] = s := by
      simp [Collector.addFiles, scanFiles, Findings.add]
    rw [hnothing, ← filesIn_nothing] at hadded
    exact hadded

theorem Agrees.read_old (ht : fs.IsTree) (ha : c.Agrees fs s s') (hold : isOld fs v = true)
    (hlinks : c.LinksStay fs fs' v) :
    c.Agrees fs (c.read fs s (c.batchOf .nothing fs v)) (c.read fs' s' (c.batchOf .nothing fs' v)) := by
  have hcontains : s'.visited.contains v.loc = s.visited.contains v.loc := by
    simp [ha.visited v.loc (of_decide_eq_true hold)]
  show c.Agrees fs (if s.visited.contains v.loc then s else _) (if s'.visited.contains v.loc then s' else _)
  rw [hcontains]
  split
  · exact ha
  · have hvisited : c.Agrees fs { s with visited := v.loc :: s.visited } { s' with visited := v.loc :: s'.visited } :=
      ⟨ha.findings, fun loc hdir => by rw [List.mem_cons, List.mem_cons, ha.visited loc hdir], ha.seen⟩
    simp only [batchOf, filesIn_nothing]
    exact hvisited.addFiles h (fun f hf => entry?_of_mem_sourceFiles ht.distinct hf)
      (fun f hf => entry?_of_mem_sourceFiles h.distinct hf) (h.sourceFiles ht.distinct hlinks)

/-- The new directories among those visited can be left out. -/
theorem Agrees.foldl_read (ht : fs.IsTree) {dirs : List Visit}
    (hlinks : ∀ v ∈ dirs.filter (isOld fs), c.LinksStay fs fs' v) (ha : c.Agrees fs s s') :
    c.Agrees fs (((dirs.filter (isOld fs)).map (c.batchOf .nothing fs)).foldl (c.read fs) s)
      ((dirs.map (c.batchOf .nothing fs')).foldl (c.read fs') s') := by
  induction dirs generalizing s s' with
  | nil => exact ha
  | cons v dirs ih =>
    cases hold : isOld fs v with
    | true =>
      rw [List.filter_cons_of_pos hold] at hlinks ⊢
      obtain ⟨hv, hdirs⟩ := List.forall_mem_cons.1 hlinks
      exact ih hdirs (ha.read_old h ht hold hv)
    | false =>
      rw [List.filter_cons_of_neg (by simp [hold])] at hlinks ⊢
      exact ih hlinks (ha.read_new h ht hold)

/-! ## What can be read -/

theorem Unheard.old_or_new (ht : fs.IsTree) (hfind : fs.find p.root = .ok (loc, .directory)) (hv : v ∈ p.visits fs') :
    isOld fs v = true ∨ fs.entry? v.loc = none ∧ fs'.entry? v.loc = some .directory := by
  have hdir : fs'.entry? v.loc = some .directory := by
    have hroot : fs'.entry? loc = some .directory := h.keeps (ht.directory_of_find hfind) (by simp)
    rw [SourcePath.visits, find_directory_of_ways h.ways h.current hfind] at hv
    simp only at hv
    split at hv
    · exact directory_of_mem_visits h.distinct hroot hv
    · rw [List.mem_singleton.1 hv]
      exact hroot
  obtain hsame | ⟨hnone, -⟩ | ⟨-, id, hid, -⟩ := h.entries v.loc
  · exact .inl (decide_eq_true (hsame.symm.trans hdir))
  · exact .inr ⟨hnone, hdir⟩
  · rw [hid] at hdir
    cases hdir

theorem Agrees.isReadable (ht : fs.IsTree) (hu : c.Undisturbed fs fs' paths) (hp : p ∈ paths) (ha : c.Agrees fs s s')
    (hfind : fs.find p.root = .ok (loc, .directory)) (hread : ∀ v ∈ p.visits fs, c.isReadable fs s v = true) :
    ∀ v ∈ p.visits fs', c.isReadable fs' s' v = true := by
  intro v hv
  have hway := hu.ways p hp v hv
  unfold Collector.isReadable
  rw [hway, Bool.not_false, Bool.true_and, Bool.or_eq_true, Bool.and_eq_true, List.all_eq_true]
  obtain hold | ⟨hnone, hdir⟩ := h.old_or_new ht hfind hv
  · have hv' : v ∈ p.visits fs := by
      rw [← h.visits ht hfind]
      exact List.mem_filter.2 ⟨hv, hold⟩
    have hread := hread v hv'
    unfold Collector.isReadable at hread
    rw [hway, Bool.not_false, Bool.true_and, Bool.or_eq_true, Bool.and_eq_true, List.all_eq_true] at hread
    obtain hvisited | ⟨hplace, hfiles⟩ := hread
    · left
      simpa [ha.visited v.loc (of_decide_eq_true hold)] using hvisited
    · refine .inr ⟨hplace, fun f hf => ?_⟩
      by_cases hbefore : ∃ g ∈ fs.sourceFiles c.extensions v, g.2.1 = f.2.1
      · obtain ⟨g, hg, hloc⟩ := hbefore
        show (!isTooLong (f.2.1).path) = true
        rw [← hloc]
        exact hfiles g hg
      · simp [hu.files p hp v hv f hf fun g hg hloc => hbefore ⟨g, hg, hloc⟩]
  -- a new directory holds new files only
  · have hnew : isOld fs v = false := by simp [isOld, hnone]
    have hv' : v ∉ p.visits fs := by
      rw [← h.visits ht hfind, List.mem_filter, hnew]
      simp
    refine .inr ⟨by simp [hu.directories p hp v hv hv'], fun f hf => ?_⟩
    have hbefore : ∀ g ∈ fs.sourceFiles c.extensions v, g.2.1 ≠ f.2.1 := by
      intro g hg hloc
      have hentry := entry?_of_mem_sourceFiles ht.distinct hg
      rw [hloc, h.new_of_new ht hnew hf] at hentry
      cases hentry
    simp [hu.files p hp v hv f hf hbefore]

/-! ## Paths -/

theorem Agrees.collectPath (ht : fs.IsTree) (hu : c.Undisturbed fs fs' paths) (hp : p ∈ paths) (ha : c.Agrees fs s s')
    (hok : c.collectPath .nothing fs s p = .ok s1) :
    ∃ s1', c.collectPath .nothing fs' s' p = .ok s1' ∧ c.Agrees fs s1 s1' := by
  obtain ⟨-, ⟨loc, id, hfind⟩ | ⟨loc, hfind⟩⟩ := find_of_collectPath hok
  · rw [collectPath_nothing_of_file hfind] at hok
    split at hok
    · cases hok
    · rename_i hlong
      have hentry := entry?_of_find hfind
      obtain ⟨id', hentry'⟩ := h.exists_file hentry
      have hfind' := find_file_of_ways h.ways h.current hfind hentry'
      refine ⟨_, (collectPath_nothing_of_file hfind').trans (if_neg hlong), ?_⟩
      cases hok
      simp only [batches_of_file hfind, batches_of_file hfind', List.foldl_cons, List.foldl_nil, read]
      apply ha.addFiles h
      · simpa using hentry
      · simpa using hentry'
      · cases hloud : c.isLoud fs loc with
        | false => simp [hloud]
        | true =>
          obtain ⟨id₀, hid, hid'⟩ := h.entry?_of_loud (.inl hloud)
          cases hid.symm.trans hentry
          cases hid'.symm.trans hentry'
          rfl
  · have hreadable := isReadable_of_collectPath ht hfind hok
    have hfind' := find_directory_of_ways h.ways h.current hfind
    refine ⟨_, collectPath_nothing_of_directory hfind' (ha.isReadable h ht hu hp hfind hreadable), ?_⟩
    rw [(collectPath_ok hok).1, batches_of_not_file (by simp [hfind]), batches_of_not_file (by simp [hfind']),
      ← h.visits ht hfind]
    exact ha.foldl_read h ht (by rw [h.visits ht hfind]; exact hu.links p hp)

theorem Agrees.collectPaths (ht : fs.IsTree) (hu : c.Undisturbed fs fs' paths) (ha : c.Agrees fs s s')
    (hok : c.collectPaths .nothing fs s paths = .ok s1) :
    ∃ s1', c.collectPaths .nothing fs' s' paths = .ok s1' ∧ c.Agrees fs s1 s1' := by
  induction paths generalizing s s' with
  | nil =>
    cases hok
    exact ⟨s', rfl, ha⟩
  | cons p paths ih =>
    rw [Collector.collectPaths] at hok
    split at hok
    · rename_i s2 hpath
      obtain ⟨s2', hpath', ha2⟩ := ha.collectPath h ht hu (List.mem_cons_self ..) hpath
      rw [Collector.collectPaths, hpath']
      exact ih (hu.sublist (List.sublist_cons_self p paths)) ha2 hok
    · cases hok

end

/-- A search over files where only directories and silent files were added or exchanged finds the same again. -/
theorem collect_undisturbed {specs : List Text} {findings : Findings} (h : c.Unheard fs fs') (ht : fs.IsTree)
    (hu : c.Undisturbed fs fs' (specs.map .ofSpec)) (hok : c.collect fs specs = .ok findings) :
    c.collect fs' specs = .ok findings := by
  obtain ⟨s, hs, rfl⟩ := map_eq_ok_iff.1 hok
  have hstart : c.Agrees fs ⟨.empty, [], []⟩ ⟨.empty, [], []⟩ := ⟨rfl, fun _ _ => Iff.rfl, fun _ _ => Iff.rfl⟩
  obtain ⟨s', hs', ha⟩ := hstart.collectPaths h ht hu hs
  exact map_eq_ok_iff.2 ⟨s', hs', ha.findings⟩

end Collector

end ScenarioDocs
