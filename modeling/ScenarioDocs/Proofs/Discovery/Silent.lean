import ScenarioDocs.Proofs.Discovery.Visits
import ScenarioDocs.Proofs.FileSystem.Children

/-!
# What a search does not notice

New directories, and files without a marker wherever they are put, change
nothing that a search finds: it goes the same ways and reads the same records
in the same order.
-/

namespace ScenarioDocs

open Text FileSystem

/-- What gives nothing can be left out. -/
theorem flatMap_eq_filter {α β : Type} {l : List α} {p : α → Bool} {g : α → List β}
    (h : ∀ a ∈ l, p a = false → g a = []) : l.flatMap g = (l.filter p).flatMap g := by
  induction l with
  | nil => rfl
  | cons a l ih =>
    obtain ⟨ha, hl⟩ := List.forall_mem_cons.1 h
    cases hp : p a with
    | true => rw [List.filter_cons_of_pos hp, List.flatMap_cons, List.flatMap_cons, ih hl]
    | false => rw [List.filter_cons_of_neg (by simp [hp]), List.flatMap_cons, ha hp, List.nil_append, ih hl]

def Scanner.IsSilent (s : Scanner) (t : Text) : Prop := ∀ line ∈ lines t, s.podArguments? line = none

instance (s : Scanner) (t : Text) : Decidable (s.IsSilent t) := inferInstanceAs (Decidable (∀ line ∈ lines t, _))

theorem Scanner.scan_of_silent {s : Scanner} {t : Text} (h : s.IsSilent t) (label : Text) :
    s.scan t label = ⟨[], []⟩ := by
  have houtcomes : s.readLines label 1 (lines t) = [] := by
    refine List.filterMap_eq_nil_iff.2 fun ⟨line, number⟩ hl => ?_
    show s.readLine label number line = none
    rw [readLine, h line (List.fst_mem_of_mem_zipIdx hl)]
    rfl
  rw [scan, houtcomes]
  rfl

namespace Collector

def IsSilent (c : Collector) (fs : FileSystem) (id : FileId) : Prop :=
  c.scanner.IsSilent (Utf8.decodeLossy (fs.bytes id))

instance (c : Collector) (fs : FileSystem) (id : FileId) : Decidable (c.IsSilent fs id) :=
  inferInstanceAs (Decidable (c.scanner.IsSilent _))

def isLoud (c : Collector) (fs : FileSystem) (loc : Location) : Bool :=
  match fs.entry? loc with
  | some (.file id) => ¬c.IsSilent fs id
  | _ => false

/-- Directories and silent files were added, and silent files were replaced by silent ones. -/
structure Unheard (c : Collector) (fs fs' : FileSystem) : Prop where
  distinct : fs'.Distinct
  current : fs'.current = fs.current
  bytes : ∀ loc id, fs.entry? loc = some (.file id) → fs'.bytes id = fs.bytes id
  entries : ∀ loc, fs'.entry? loc = fs.entry? loc ∨
    fs.entry? loc = none ∧ fs'.entry? loc = some .directory ∨
    (fs.entry? loc = none ∨ ∃ id, fs.entry? loc = some (.file id) ∧ c.IsSilent fs id) ∧
      ∃ id, fs'.entry? loc = some (.file id) ∧ c.IsSilent fs' id

variable {c : Collector} {fs fs' : FileSystem} {s s' : Search} {loc : Location} {entry : Entry} {id : FileId}
  {seen seen' : List Location} {files files' : List SourceFile} {scope path : Text} {v w : Visit} {p : SourcePath}

theorem isLoud_iff : c.isLoud fs loc = true ↔ ∃ id, fs.entry? loc = some (.file id) ∧ ¬c.IsSilent fs id := by
  unfold isLoud
  split
  · rename_i id hfile
    simp [hfile]
  · rename_i hother
    simp only [Bool.false_eq_true, false_iff, not_exists, not_and]
    exact fun id hfile => absurd hfile (hother id)

namespace Unheard

variable (h : c.Unheard fs fs')
include h

theorem keeps (hentry : fs.entry? loc = some entry) (hfile : ∀ id, entry ≠ .file id) : fs'.entry? loc = some entry := by
  obtain hsame | ⟨hnone, -⟩ | ⟨hnone | ⟨id, hid, -⟩, -⟩ := h.entries loc
  · rw [hsame, hentry]
  · rw [hnone] at hentry
    cases hentry
  · rw [hnone] at hentry
    cases hentry
  · rw [hid, Option.some.injEq] at hentry
    exact absurd hentry.symm (hfile id)

theorem ways : fs.Ways fs' := fun _ _ hentry hfile => h.keeps hentry hfile

theorem exists_entry (hentry : fs.entry? loc = some entry) : ∃ entry', fs'.entry? loc = some entry' := by
  obtain hsame | ⟨hnone, -⟩ | ⟨-, id', hid', -⟩ := h.entries loc
  · exact ⟨entry, hsame.trans hentry⟩
  · rw [hnone] at hentry
    cases hentry
  · exact ⟨_, hid'⟩

theorem exists_file (hfile : fs.entry? loc = some (.file id)) : ∃ id', fs'.entry? loc = some (.file id') := by
  obtain hsame | ⟨hnone, -⟩ | ⟨-, id', hid', -⟩ := h.entries loc
  · exact ⟨id, by rw [hsame, hfile]⟩
  · rw [hnone] at hfile
    cases hfile
  · exact ⟨id', hid'⟩

theorem entry?_of_loud (hloud : c.isLoud fs loc = true ∨ c.isLoud fs' loc = true) :
    ∃ id, fs.entry? loc = some (.file id) ∧ fs'.entry? loc = some (.file id) := by
  simp only [isLoud_iff] at hloud
  obtain hsame | ⟨hnone, hdir⟩ | ⟨hbefore, id', hid', hsilent'⟩ := h.entries loc
  · obtain ⟨id, hid, -⟩ | ⟨id, hid, -⟩ := hloud
    · exact ⟨id, hid, hsame.trans hid⟩
    · exact ⟨id, hsame.symm.trans hid, hid⟩
  · obtain ⟨id, hid, -⟩ | ⟨id, hid, -⟩ := hloud
    · rw [hnone] at hid
      cases hid
    · rw [hdir] at hid
      cases hid
  · obtain ⟨id, hid, hloud⟩ | ⟨id, hid, hloud⟩ := hloud
    · obtain hnone | ⟨id₀, hid₀, hsilent⟩ := hbefore
      · rw [hnone] at hid
        cases hid
      · cases hid₀.symm.trans hid
        exact absurd hsilent hloud
    · cases hid'.symm.trans hid
      exact absurd hsilent' hloud

theorem isLoud_eq : c.isLoud fs' loc = c.isLoud fs loc := by
  have hsame {id : FileId} (hid : fs.entry? loc = some (.file id)) : c.IsSilent fs' id ↔ c.IsSilent fs id := by
    rw [IsSilent, h.bytes loc id hid, IsSilent]
  rw [Bool.eq_iff_iff]
  constructor
  · intro hloud
    obtain ⟨id, hid, hid'⟩ := h.entry?_of_loud (.inr hloud)
    obtain ⟨id', hfile, hnot⟩ := isLoud_iff.1 hloud
    cases hid'.symm.trans hfile
    exact isLoud_iff.2 ⟨id, hid, mt (hsame hid).2 hnot⟩
  · intro hloud
    obtain ⟨id, hid, hid'⟩ := h.entry?_of_loud (.inl hloud)
    obtain ⟨id', hfile, hnot⟩ := isLoud_iff.1 hloud
    cases hid.symm.trans hfile
    exact isLoud_iff.2 ⟨id, hid', mt (hsame hid).1 hnot⟩

theorem link_of_link {target : Text} (hlink : fs'.entry? loc = some (.link target)) :
    fs.entry? loc = some (.link target) := by
  obtain hsame | ⟨-, hdir⟩ | ⟨-, id, hid, -⟩ := h.entries loc
  · rw [← hsame, hlink]
  · rw [hdir] at hlink
    cases hlink
  · rw [hid] at hlink
    cases hlink

theorem find_loud (hloud : c.isLoud fs loc = true) (hfind : fs.find path = .ok (loc, .file id)) :
    fs'.find path = .ok (loc, .file id) := by
  obtain ⟨id', hid, hid'⟩ := h.entry?_of_loud (.inl hloud)
  cases hid.symm.trans (entry?_of_find hfind)
  exact find_file_of_ways h.ways h.current hfind hid'

end Unheard

theorem IsSilent.of_bytes (h : c.IsSilent fs id) (hbytes : fs'.bytes id = fs.bytes id) : c.IsSilent fs' id := by
  rw [IsSilent, hbytes]
  exact h

theorem Unheard.trans {fs'' : FileSystem} (h : c.Unheard fs fs') (hgrows : fs.Grows fs') (h' : c.Unheard fs' fs'') :
    c.Unheard fs fs'' := by
  have hbytes (loc : Location) (id : FileId) (hid : fs.entry? loc = some (.file id)) : fs''.bytes id = fs.bytes id :=
    (h'.bytes loc id (hgrows loc _ hid)).trans (h.bytes loc id hid)
  refine ⟨h'.distinct, h'.current.trans h.current, hbytes, fun loc => ?_⟩
  obtain hsame' | ⟨hnone', hdir'⟩ | ⟨hbefore', hfile'⟩ := h'.entries loc
  · rw [hsame']
    obtain hsame | hdir | ⟨hbefore, id, hid, hsilent⟩ := h.entries loc
    · exact .inl hsame
    · exact .inr (.inl hdir)
    · exact .inr (.inr ⟨hbefore, id, hid, hsilent.of_bytes (h'.bytes loc id hid)⟩)
  · obtain hsame | ⟨-, hdir⟩ | ⟨-, id, hid, -⟩ := h.entries loc
    · exact .inr (.inl ⟨hsame.symm.trans hnone', hdir'⟩)
    · rw [hdir] at hnone'
      cases hnone'
    · rw [hid] at hnone'
      cases hnone'
  · refine .inr (.inr ⟨?_, hfile'⟩)
    obtain hsame | ⟨hnone, -⟩ | ⟨hbefore, -⟩ := h.entries loc
    · refine hbefore'.imp (hsame.symm.trans ·) fun ⟨id, hid, hsilent⟩ => ?_
      have hid' := hsame.symm.trans hid
      exact ⟨id, hid', hsilent.of_bytes (h.bytes loc id hid').symm⟩
    · exact .inl hnone
    · exact hbefore

theorem Unheard.withLocks (h : c.Unheard fs fs') (locked : List FileId) : c.Unheard fs { fs' with locked := locked } :=
  ⟨h.distinct, h.current, h.bytes, h.entries⟩

theorem unheard_of_adds (c : Collector) (h : fs.AddsDirectories fs') (hd : fs'.Distinct) : c.Unheard fs fs' where
  distinct := hd
  current := h.current
  bytes _ id _ := h.bytes id
  entries loc := (h.entries loc).imp_right .inl

/-! ## The files of a directory -/

/-- A link in a directory that is searched and leads to a file with a marker led to that file before. -/
def LinksStay (c : Collector) (fs fs' : FileSystem) (v : Visit) : Prop :=
  ∀ name target e, fs.entry? (v.loc.child name) = some (.link target) →
    Path.extension? name = some e → c.extensions.contains e = true →
      ∀ loc id, fs'.find (v.child name).path = .ok (loc, .file id) → c.isLoud fs loc = true →
        ∃ id, fs.find (v.child name).path = .ok (loc, .file id)

theorem Unheard.sourceFiles (h : c.Unheard fs fs') (hd : fs.Distinct) (hlinks : c.LinksStay fs fs' v) :
    (fs'.sourceFiles c.extensions v).filter (fun f => c.isLoud fs f.2.1) =
      (fs.sourceFiles c.extensions v).filter fun f => c.isLoud fs f.2.1 := by
  rw [sourceFiles_eq, sourceFiles_eq, List.filter_filterMap, List.filter_filterMap]
  refine filterMap_children_eq (fun name entry => (c.sourceFile? fs v name entry).filter _)
    (fun name entry => (c.sourceFile? fs' v name entry).filter _) hd h.distinct fun name => ?_
  apply Option.ext
  rintro ⟨path, loc, id⟩
  simp only [Option.bind_eq_some_iff, Option.filter_eq_some_iff, sourceFile?_eq_some_iff, fileAt?_iff]
  constructor
  · rintro ⟨entry, hentry, ⟨⟨rfl, hshort, hloc⟩ | ⟨target, rfl, hfind⟩, hnamed⟩, hloud⟩
    · obtain ⟨id', hid, hid'⟩ := h.entry?_of_loud (.inl hloud)
      rw [hloc] at hid hid'
      cases hid'.symm.trans hentry
      exact ⟨_, hid, ⟨.inl ⟨rfl, hshort, hloc⟩, hnamed⟩, hloud⟩
    · have hlink := h.link_of_link hentry
      obtain ⟨id', hid, hid'⟩ := h.entry?_of_loud (.inl hloud)
      obtain ⟨e, hextension, hscanned⟩ := hnamed.2
      obtain ⟨id'', hfind'⟩ := hlinks name target e hlink hextension hscanned loc id hfind hloud
      cases hid.symm.trans (entry?_of_find hfind')
      cases hid'.symm.trans (entry?_of_find hfind)
      exact ⟨_, hlink, ⟨.inr ⟨target, rfl, hfind'⟩, hnamed⟩, hloud⟩
  · rintro ⟨entry, hentry, ⟨⟨rfl, hshort, hloc⟩ | ⟨target, rfl, hfind⟩, hnamed⟩, hloud⟩
    · obtain ⟨id', hid, hid'⟩ := h.entry?_of_loud (.inl hloud)
      rw [hloc] at hid hid'
      cases hid.symm.trans hentry
      exact ⟨_, hid', ⟨.inl ⟨rfl, hshort, hloc⟩, hnamed⟩, hloud⟩
    · have hlink := h.keeps hentry (by simp)
      exact ⟨_, hlink, ⟨.inr ⟨target, rfl, h.find_loud hloud hfind⟩, hnamed⟩, hloud⟩

/-! ## The directories visited -/

def isOld (fs : FileSystem) (v : Visit) : Bool := fs.entry? v.loc = some .directory

theorem Unheard.subdirectories (h : c.Unheard fs fs') (hd : fs.Distinct) (v : Visit) :
    (fs'.subdirectories v).filter (isOld fs) = fs.subdirectories v := by
  rw [subdirectories_eq, subdirectories_eq, List.filter_filterMap]
  refine filterMap_children_eq (subdirectory? v) (fun name entry => (subdirectory? v name entry).filter (isOld fs)) hd
    h.distinct fun name => ?_
  apply Option.ext
  intro w
  simp only [Option.bind_eq_some_iff, Option.filter_eq_some_iff, subdirectory?, Option.ite_none_right_eq_some]
  constructor
  · rintro ⟨entry, hentry, ⟨⟨rfl, hskip⟩, hw⟩, hold⟩
    cases hw
    exact ⟨_, of_decide_eq_true hold, ⟨rfl, hskip⟩, rfl⟩
  · rintro ⟨entry, hentry, ⟨rfl, hskip⟩, hw⟩
    cases hw
    exact ⟨_, h.keeps hentry (by simp), ⟨⟨rfl, hskip⟩, rfl⟩, decide_eq_true hentry⟩

theorem subdirectories_of_new (ht : fs.IsTree) (hnew : isOld fs v = false) : fs.subdirectories v = [] := by
  refine List.eq_nil_iff_forall_not_mem.2 fun w hw => ?_
  obtain ⟨name, -, hentry, -⟩ := (mem_subdirectories_iff ht.distinct).1 hw
  simp [isOld, ht.directory_of_child hentry] at hnew

/-- At new directories the visits go on to new directories only. -/
theorem Unheard.filter_visits (h : c.Unheard fs fs') (ht : fs.IsTree) (levels : Nat) (v : Visit) :
    (fs'.visits levels v).filter (isOld fs) = if isOld fs v then fs.visits levels v else [] := by
  induction levels generalizing v with
  | zero => simp [FileSystem.visits, List.filter_cons]
  | succ levels ih =>
    have hbelow : ((fs'.subdirectories v).flatMap (fs'.visits levels)).filter (isOld fs) =
        (fs.subdirectories v).flatMap (fs.visits levels) := by
      rw [List.filter_flatMap]
      simp only [ih]
      rw [flatMap_eq_filter (p := isOld fs) fun u _ hu => by simp [hu], h.subdirectories ht.distinct]
      refine List.flatMap_congr fun u hu => if_pos ?_
      obtain ⟨name, rfl, hentry, -⟩ := (mem_subdirectories_iff ht.distinct).1 hu
      exact decide_eq_true hentry
    rw [FileSystem.visits, FileSystem.visits, List.filter_cons, hbelow]
    cases hold : isOld fs v with
    | true => rfl
    | false => rw [subdirectories_of_new ht hold]; rfl

theorem visits_of_deepest (ht : fs.IsTree) (hdeep : ∀ loc entry, fs.entry? loc = some entry → loc.depth ≤ v.loc.depth)
    (levels : Nat) : fs.visits levels v = [v] := by
  cases levels with
  | zero => rfl
  | succ levels =>
    have hnone : fs.subdirectories v = [] := by
      refine List.eq_nil_iff_forall_not_mem.2 fun w hw => ?_
      obtain ⟨name, -, hentry, -⟩ := (mem_subdirectories_iff ht.distinct).1 hw
      exact absurd (hdeep _ _ hentry) (Nat.not_succ_le_self _)
    rw [FileSystem.visits, hnone, List.flatMap_nil]

/-- More levels than there are below a directory make no difference. -/
theorem visits_levels (ht : fs.IsTree) {levels levels' : Nat}
    (hdeep : ∀ loc entry, fs.entry? loc = some entry → loc.depth ≤ v.loc.depth + levels)
    (hdeep' : ∀ loc entry, fs.entry? loc = some entry → loc.depth ≤ v.loc.depth + levels') :
    fs.visits levels v = fs.visits levels' v := by
  induction levels generalizing v levels' with
  | zero => rw [visits_of_deepest ht hdeep, visits_of_deepest ht hdeep]
  | succ levels ih =>
    cases levels' with
    | zero => rw [visits_of_deepest ht hdeep', visits_of_deepest ht hdeep']
    | succ levels' =>
      rw [FileSystem.visits, FileSystem.visits]
      refine congrArg (v :: ·) (List.flatMap_congr fun u hu => ?_)
      obtain ⟨name, rfl, -⟩ := (mem_subdirectories_iff ht.distinct).1 hu
      have hbelow : (v.child name).loc.depth = v.loc.depth + 1 := rfl
      apply ih <;> intro loc entry hentry
      · have := hdeep loc entry hentry
        omega
      · have := hdeep' loc entry hentry
        omega

theorem Unheard.visits (h : c.Unheard fs fs') (ht : fs.IsTree) (hfind : fs.find p.root = .ok (loc, .directory)) :
    (p.visits fs').filter (isOld fs) = p.visits fs := by
  have hfind' := find_directory_of_ways h.ways h.current hfind
  have hold : isOld fs ⟨p.root, loc⟩ = true := decide_eq_true (ht.directory_of_find hfind)
  unfold SourcePath.visits
  rw [hfind, hfind']
  dsimp only
  split
  · rw [h.filter_visits ht, if_pos hold]
    apply visits_levels ht <;> intro l entry hentry
    · obtain ⟨entry', hentry'⟩ := h.exists_entry hentry
      exact Nat.le_add_left_of_le (h.distinct.depth_le hentry')
    · exact Nat.le_add_left_of_le (ht.depth_le hentry)
  · rw [List.filter_cons, if_pos hold]
    rfl

/-! ## Files read -/

theorem fresh_congr (h : ∀ f ∈ files, f.2.1 ∈ seen ↔ f.2.1 ∈ seen') :
    SourceFile.fresh seen files = SourceFile.fresh seen' files := by
  induction files generalizing seen seen' with
  | nil => rfl
  | cons f files ih =>
    obtain ⟨hf, hfiles⟩ := List.forall_mem_cons.1 h
    have hcontains : seen.contains f.2.1 = seen'.contains f.2.1 := by simp [hf]
    rw [SourceFile.fresh, SourceFile.fresh, hcontains, ih hfiles,
      @ih (f.2.1 :: seen) (f.2.1 :: seen') fun g hg => by simp [hfiles g hg]]

theorem fresh_filter (loud : Location → Bool) (seen : List Location) (files : List SourceFile) :
    SourceFile.fresh seen (files.filter fun f => loud f.2.1) =
      (SourceFile.fresh seen files).filter fun f => loud f.2.1 := by
  induction files generalizing seen with
  | nil => rfl
  | cons f files ih =>
    cases hloud : loud f.2.1 with
    | true =>
      rw [List.filter_cons, if_pos hloud, SourceFile.fresh, SourceFile.fresh]
      split
      · exact ih seen
      · rw [List.filter_cons, if_pos hloud, ih]
    | false =>
      rw [List.filter_cons_of_neg (by simp [hloud]), SourceFile.fresh]
      split
      · exact ih seen
      · rw [List.filter_cons_of_neg (by simp [hloud]), ← ih]
        -- that its location has been seen now matters to no other file
        refine fresh_congr fun g hg => ?_
        have hne : g.2.1 ≠ f.2.1 := by
          intro hsame
          have hg := (List.mem_filter.1 hg).2
          rw [hsame, hloud] at hg
          cases hg
        simp [hne]

theorem scanFiles_filter {loud : Location → Bool}
    (hsilent : ∀ f ∈ files, loud f.2.1 = false → c.found fs f = ⟨[], []⟩) (seen : List Location) :
    (c.scanFiles fs seen files).1 = (c.scanFiles fs seen (files.filter fun f => loud f.2.1)).1 := by
  have hflatMap {β : Type} (read : Found → List β) (hread : read ⟨[], []⟩ = []) :
      (SourceFile.fresh seen files).flatMap (fun f => read (c.found fs f)) =
        ((SourceFile.fresh seen files).filter fun f => loud f.2.1).flatMap fun f => read (c.found fs f) :=
    flatMap_eq_filter fun f hf hloud => by rw [hsilent f (mem_of_mem_fresh hf).1 hloud, hread]
  rw [scanFiles_eq, scanFiles_eq, fresh_filter]
  simp only [hflatMap (·.scenarios) rfl, hflatMap (·.skipped) rfl]

theorem scanFiles_congr (hseen : ∀ f ∈ files, f.2.1 ∈ seen ↔ f.2.1 ∈ seen')
    (hfound : ∀ f ∈ files, c.found fs f = c.found fs' f) :
    (c.scanFiles fs seen files).1 = (c.scanFiles fs' seen' files).1 := by
  have hflatMap {β : Type} (read : Found → List β) :
      (SourceFile.fresh seen' files).flatMap (fun f => read (c.found fs f)) =
        (SourceFile.fresh seen' files).flatMap fun f => read (c.found fs' f) :=
    List.flatMap_congr fun f hf => by rw [hfound f (mem_of_mem_fresh hf).1]
  rw [scanFiles_eq, scanFiles_eq, fresh_congr hseen, hflatMap (·.scenarios), hflatMap (·.skipped)]

end Collector

end ScenarioDocs
