import ScenarioDocs.Proofs.Discovery.Batches
import ScenarioDocs.Proofs.FileSystem.Tree

/-!
# Visits

A recursive path visits exactly the directories that it reaches: the depth of
the file system is enough for all of them. Each is visited by one path only,
which leads there unless it is too long.
-/

namespace ScenarioDocs

open FileSystem

variable {fs : FileSystem} {p : SourcePath} {paths : List SourcePath} {u v w : Visit} {dir loc : Location}
  {name : Text} {levels : Nat} {id : FileId} {extensions : List Text}

/-! ## What a directory gives -/

namespace Collector

variable {c : Collector} {entry : Entry}

theorem fileAt?_iff : fs.fileAt? v entry = some (loc, id) ↔
    (entry = .file id ∧ isTooLong v.path = false ∧ loc = v.loc) ∨
      ∃ target, entry = .link target ∧ fs.find v.path = .ok (loc, .file id) := by
  cases entry with
  | directory => simp [fileAt?]
  | file id' =>
    cases hlong : isTooLong v.path <;> simp [fileAt?, hlong, eq_comm, and_comm]
  | link target =>
    simp only [fileAt?]
    split
    · rename_i hfind
      simp [hfind]
    · rename_i hother
      simpa using hother loc id

def sourceFile? (c : Collector) (fs : FileSystem) (v : Visit) (name : Text) (entry : Entry) : Option SourceFile :=
  match fs.fileAt? (v.child name) entry, Path.extension? name with
  | some file, some e => if c.extensions.contains e then some ((v.child name).path, file) else none
  | _, _ => none

theorem sourceFiles_eq : fs.sourceFiles c.extensions v =
    (fs.children v.loc).filterMap fun child => c.sourceFile? fs v child.1 child.2 := rfl

theorem sourceFile?_eq_some_iff {name : Text} {f : SourceFile} : c.sourceFile? fs v name entry = some f ↔
    fs.fileAt? (v.child name) entry = some f.2 ∧ f.1 = (v.child name).path ∧
      ∃ e, Path.extension? name = some e ∧ c.extensions.contains e = true := by
  obtain ⟨path, file⟩ := f
  unfold sourceFile?
  cases fs.fileAt? (v.child name) entry with
  | none => simp
  | some file' =>
    cases Path.extension? name with
    | none => simp
    | some e =>
      simp only [Option.ite_none_right_eq_some, Option.some.injEq, Prod.mk.injEq, exists_eq_left']
      constructor
      · rintro ⟨he, rfl, rfl⟩
        exact ⟨rfl, rfl, he⟩
      · rintro ⟨rfl, rfl, he⟩
        exact ⟨he, rfl, rfl⟩

def subdirectory? (v : Visit) (name : Text) (entry : Entry) : Option Visit :=
  if entry = .directory ∧ ¬isSkippedDirectory name then some (v.child name) else none

theorem subdirectories_eq :
    fs.subdirectories v = (fs.children v.loc).filterMap fun child => subdirectory? v child.1 child.2 := rfl

end Collector

/-! ## Subdirectories -/

def FileSystem.entered (fs : FileSystem) (dir : Location) : List Text :=
  (fs.children dir).filterMap fun (name, entry) =>
    if entry = .directory ∧ ¬isSkippedDirectory name then some name else none

theorem FileSystem.mem_entered_iff (hd : fs.Distinct) : name ∈ fs.entered dir ↔
    fs.entry? (dir.child name) = some .directory ∧ isSkippedDirectory name = false := by
  unfold entered
  rw [List.mem_filterMap]
  constructor
  · rintro ⟨⟨name', entry⟩, hmem, h⟩
    obtain ⟨⟨rfl, hskip⟩, hname⟩ := Option.ite_none_right_eq_some.1 h
    obtain rfl := Option.some.inj hname
    exact ⟨hd.mem_children_iff.1 hmem, by simpa using hskip⟩
  · rintro ⟨hentry, hskip⟩
    exact ⟨(name, .directory), hd.mem_children_iff.2 hentry, by simp [hskip]⟩

theorem FileSystem.subdirectories_eq_map (fs : FileSystem) (v : Visit) :
    fs.subdirectories v = (fs.entered v.loc).map v.child := by
  rw [subdirectories, entered, List.map_filterMap]
  refine List.filterMap_congr fun ⟨name, entry⟩ _ => ?_
  dsimp only
  split <;> rfl

theorem mem_subdirectories_iff (hd : fs.Distinct) : w ∈ fs.subdirectories v ↔ ∃ name, w = v.child name ∧
    fs.entry? (v.loc.child name) = some .directory ∧ isSkippedDirectory name = false := by
  simp only [subdirectories_eq_map, List.mem_map, mem_entered_iff hd]
  constructor
  · rintro ⟨name, hname, rfl⟩
    exact ⟨name, rfl, hname⟩
  · rintro ⟨name, rfl, hname⟩
    exact ⟨name, hname, rfl⟩

theorem self_mem_visits (fs : FileSystem) (levels : Nat) (v : Visit) : v ∈ fs.visits levels v := by
  cases levels with
  | zero => exact List.mem_singleton_self v
  | succ levels => exact List.mem_cons_self ..

theorem mem_visits_succ : w ∈ fs.visits (levels + 1) v ↔ w = v ∨ ∃ u ∈ fs.subdirectories v, w ∈ fs.visits levels u := by
  rw [visits, List.mem_cons, List.mem_flatMap]

theorem directory_of_mem_visits (hd : fs.Distinct) (hv : fs.entry? v.loc = some .directory)
    (hw : w ∈ fs.visits levels v) : fs.entry? w.loc = some .directory := by
  induction levels generalizing v with
  | zero =>
    rw [List.mem_singleton.1 hw]
    exact hv
  | succ levels ih =>
    obtain rfl | ⟨u, hu, hw⟩ := mem_visits_succ.1 hw
    · exact hv
    · obtain ⟨name, rfl, hentry, -⟩ := (mem_subdirectories_iff hd).1 hu
      exact ih hentry hw

/-- Below a visited directory everything is visited down to the last level. -/
theorem subdirectory_mem_visits (ht : fs.IsTree) (hw : w ∈ fs.visits levels v) (hu : u ∈ fs.subdirectories w)
    (hdepth : u.loc.depth ≤ v.loc.depth + levels) : u ∈ fs.visits levels v := by
  have hbelow {w u : Visit} (h : u ∈ fs.subdirectories w) : u.loc.depth = w.loc.depth + 1 := by
    obtain ⟨name, rfl, -⟩ := (mem_subdirectories_iff ht.distinct).1 h
    rfl
  induction levels generalizing v with
  | zero =>
    rw [List.mem_singleton.1 hw] at hu
    have := hbelow hu
    omega
  | succ levels ih =>
    rw [mem_visits_succ] at hw ⊢
    rcases hw with rfl | ⟨x, hx, hw⟩
    · exact .inr ⟨u, hu, self_mem_visits fs levels u⟩
    · have := hbelow hx
      exact .inr ⟨x, hx, ih hw (by omega)⟩

namespace SourcePath

theorem reaches_of_mem_visits (ht : fs.IsTree) (hrec : p.recursive = true) (hv : p.Reaches fs v)
    (hw : w ∈ fs.visits levels v) : p.Reaches fs w := by
  induction levels generalizing v with
  | zero =>
    rw [List.mem_singleton.1 hw]
    exact hv
  | succ levels ih =>
    rcases mem_visits_succ.1 hw with rfl | ⟨u, hu, hw⟩
    · exact hv
    · obtain ⟨name, rfl, hentry, hskip⟩ := (mem_subdirectories_iff ht.distinct).1 hu
      exact ih (.child hrec hv hentry hskip) hw

theorem mem_visits_iff (ht : fs.IsTree) : v ∈ p.visits fs ↔ p.Reaches fs v := by
  constructor
  · intro h
    unfold visits at h
    split at h
    · rename_i loc hfind
      by_cases hrec : p.recursive = true
      · rw [if_pos hrec] at h
        exact reaches_of_mem_visits ht hrec (.root hfind) h
      · rw [if_neg hrec] at h
        rw [List.mem_singleton.1 h]
        exact .root hfind
    · cases h
  · intro h
    induction h with
    | root hfind =>
      simp only [visits, hfind]
      split
      · exact self_mem_visits ..
      · exact List.mem_singleton_self _
    | @child w name hrec _ hentry hskip ih =>
      unfold visits at ih ⊢
      split at ih
      · rename_i root hfind
        rw [if_pos hrec] at ih ⊢
        -- there are levels enough for every entry
        have hdepth : (w.loc.child name).depth ≤ fs.depth := ht.depth_le hentry
        exact subdirectory_mem_visits ht ih ((mem_subdirectories_iff ht.distinct).2 ⟨name, rfl, hentry, hskip⟩)
          (Nat.le_add_left_of_le hdepth)
      · cases ih

theorem coversDirectory_iff : p.CoversDirectory fs dir ↔ ∃ path, p.Reaches fs ⟨path, dir⟩ := by
  constructor
  · intro h
    cases h with
    | root hfind => exact ⟨_, .root hfind⟩
    | entered hrec hfind henter =>
      induction henter with
      | root => exact ⟨_, .root hfind⟩
      | child _ hentry hskip ih =>
        obtain ⟨path, hpath⟩ := ih
        exact ⟨_, .child hrec hpath hentry hskip⟩
  · rintro ⟨path, h⟩
    generalize hv : (⟨path, dir⟩ : Visit) = v at h
    have hdir : p.CoversDirectory fs v.loc := by
      clear hv
      induction h with
      | root hfind => exact .root hfind
      | child hrec _ hentry hskip ih =>
        cases ih with
        | root hfind => exact .entered hrec hfind (.child .root hentry hskip)
        | entered _ hfind henter => exact .entered hrec hfind (.child henter hentry hskip)
    rw [← hv] at hdir
    exact hdir

/-! ## The way to a directory -/

theorem depth_le_of_reaches {root : Location} (hfind : fs.find p.root = .ok (root, .directory)) (h : p.Reaches fs v) :
    root.depth ≤ v.loc.depth ∧ (v.loc.depth = root.depth → v = ⟨p.root, root⟩) := by
  induction h with
  | root hfind' =>
    rw [hfind] at hfind'
    cases hfind'
    exact ⟨Nat.le_refl _, fun _ => rfl⟩
  | @child w name _ _ _ _ ih =>
    have hdepth : (w.child name).loc.depth = w.loc.depth + 1 := rfl
    constructor <;> omega

/-- A source path reaches a directory in one way. -/
theorem reaches_unique (hv : p.Reaches fs v) (hw : p.Reaches fs w) (hloc : v.loc = w.loc) : v = w := by
  induction hv generalizing w with
  | root hfind => exact ((depth_le_of_reaches hfind hw).2 (congrArg Location.depth hloc.symm)).symm
  | @child v name hrec hv _ _ ih =>
    cases hw with
    | root hfind =>
      have hdepth := (depth_le_of_reaches hfind hv).1
      rw [← show v.loc.depth + 1 = _ from congrArg Location.depth hloc] at hdepth
      omega
    | @child w name' _ hw _ _ =>
      obtain ⟨hparent, rfl⟩ := Location.child_inj.1 hloc
      rw [ih hw hparent]

end SourcePath

end ScenarioDocs
