import ScenarioDocs.Proofs.Document.Attempts
import ScenarioDocs.Proofs.Document.Snapshots

/-!
# What a sink may change

Opening a sink makes the directories that are missing above its document and
the lock file; storing, however often, changes the document and the temporary
file. Every other location holds what it held, whichever of the calls to the
system fail.
-/

namespace ScenarioDocs

open FileSystem

variable {fs fs' fs'' mid : FileSystem} {path parent text : Text} {loc temp doc : Location} {id : FileId} {bs : Bytes}
  {s : FileSink}

/-! ## Where paths lead -/

namespace FileSystem

/-- The path ends in a name at this location, whether or not something is there. -/
def LeadsTo (fs : FileSystem) (path : Text) (loc : Location) : Prop := fs.resolve .entry path = .ok (fs.placeAt loc)

theorem LeadsTo.of_ways (hl : fs.LeadsTo path loc) (h : fs.Ways fs') (hc : fs'.current = fs.current) :
    fs'.LeadsTo path loc := by
  rw [LeadsTo, resolve_of_ways h hc hl, see_placeAt]

theorem leadsTo_of_resolve {entry : Entry} (h : fs.resolve .entry path = .ok (.taken loc entry)) :
    fs.LeadsTo path loc :=
  h.trans (congrArg _ (placeAt_some (entry?_of_resolve h)).symm)

theorem held?_eq_none_iff : fs.held? loc = none ↔ fs.entry? loc = none := Option.map_eq_none_iff

theorem held?_eq_directory_iff : fs.held? loc = some .directory ↔ fs.entry? loc = some .directory := by
  unfold held?
  cases fs.entry? loc with
  | none => simp
  | some entry => cases entry <;> simp

theorem held?_congr (hentry : fs'.entry? loc = fs.entry? loc)
    (hbytes : ∀ id, fs.entry? loc = some (.file id) → fs'.bytes id = fs.bytes id) : fs'.held? loc = fs.held? loc := by
  unfold held?
  rw [hentry]
  cases hloc : fs.entry? loc with
  | none => rfl
  | some entry =>
    cases entry with
    | directory => rfl
    | link target => rfl
    | file id => exact congrArg (fun bs => some (Held.file bs)) (hbytes id hloc)

end FileSystem

/-! ## Missing directories -/

namespace FileSystem

def OnTheWay (fs : FileSystem) (path : Text) (loc : Location) : Prop :=
  ∃ above, Path.Above path above ∧ fs.LeadsTo above loc

/-- The location holds what it held, or it is a directory that was missing above the path. -/
def Kept (fs prepared fs' : FileSystem) (path : Text) (loc : Location) : Prop :=
  fs'.held? loc = fs.held? loc ∨
    fs.held? loc = none ∧ fs'.held? loc = some .directory ∧ prepared.OnTheWay path loc

theorem Kept.of_held? {prepared : FileSystem} (h : fs.Kept prepared fs' path loc)
    (heq : fs''.held? loc = fs'.held? loc) : fs.Kept prepared fs'' path loc := by
  rwa [Kept, heq]

theorem entry?_of_makeDirectory {above : Text} (h : fs.makeDirectory above = .ok fs') (loc : Location) :
    fs'.entry? loc = fs.entry? loc ∨ fs'.LeadsTo above loc := by
  have hadds := makeDirectory_adds h
  obtain ⟨place, hr, h⟩ := bind_eq_ok_iff.1 h
  cases place with
  | unnamed made => cases h
  | taken made entry => cases h
  | free made =>
    have hnone := entry?_of_resolve_free hr
    have hroot : made ≠ .root := ne_root_of_entry? fs (by simp [hnone])
    have hl : fs.LeadsTo above made := hr.trans (congrArg _ (placeAt_none hnone).symm)
    cases h
    by_cases hloc : loc = made
    · exact .inr (hloc ▸ hl.of_ways hadds.grows.ways rfl)
    · exact .inl ((entry?_put hroot).trans (if_neg hloc))

end FileSystem

namespace FileSink

theorem Prepares.adds (h : Prepares path fs fs') : fs.AddsDirectories fs' := by
  induction h with
  | refl => exact .refl fs
  | tail _ hmade ih =>
    obtain ⟨above, -, hmade⟩ := hmade
    exact ih.trans (makeDirectory_adds hmade)

theorem Prepares.made (h : Prepares path fs fs') (loc : Location) :
    fs'.entry? loc = fs.entry? loc ∨ fs'.OnTheWay path loc := by
  induction h with
  | refl => exact .inl rfl
  | tail _ hmade ih =>
    obtain ⟨above, habove, hmade⟩ := hmade
    rcases entry?_of_makeDirectory hmade loc with hsame | hl
    · refine ih.imp hsame.trans fun ⟨above', habove', hl'⟩ => ⟨above', habove', ?_⟩
      have hadds := makeDirectory_adds hmade
      exact hl'.of_ways hadds.grows.ways hadds.current
    · exact .inr ⟨above, habove, hl⟩

/-- Before a sink is opened, no more than the missing directories is made. -/
theorem Prepares.kept (h : Prepares path fs fs') (loc : Location) : fs.Kept fs' fs' path loc := by
  rcases h.adds.entries loc with hsame | ⟨hnone, hdir⟩
  · exact .inl (held?_congr hsame fun id _ => h.adds.bytes id)
  · refine .inr ⟨held?_eq_none_iff.2 hnone, held?_eq_directory_iff.2 hdir, (h.made loc).resolve_left fun hsame => ?_⟩
    rw [hsame, hnone] at hdir
    cases hdir

theorem prepares_ensureDirectory {above : Text} (habove : Path.Above path above) (fs : FileSystem) :
    Prepares path fs (fs.ensureDirectory above).2 := by
  unfold ensureDirectory
  split
  · rename_i h
    exact .single ⟨above, habove, h⟩
  · split <;> exact .refl

theorem prepares_makeDirectories {above : Text} (habove : Path.Above path above) (fs : FileSystem) :
    Prepares path fs (fs.makeDirectories above).2 := by
  fun_induction makeDirectories fs above with
  | case1 => exact .refl
  | case2 _ _ _ h => exact .single ⟨_, habove, h⟩
  | case3 => exact .refl
  | case4 _ _ _ _ hparent _ h ih =>
    have ih := ih (habove.tail hparent)
    rw [h] at ih
    exact ih.trans (prepares_ensureDirectory habove _)
  | case5 _ _ _ _ hparent _ _ h ih =>
    have ih := ih (habove.tail hparent)
    rw [h] at ih
    exact ih
  | case6 => exact .refl
  | case7 => exact .refl

theorem prepares_prepare (path : Text) (fs : FileSystem) : Prepares path fs (prepare path fs).2 := by
  rw [prepare]
  cases hparent : Path.parent? path with
  | none =>
    rw [Option.getD_none, makeDirectories, if_pos rfl]
    exact .refl
  | some parent => exact prepares_makeDirectories (.single hparent) fs

/-! ## Opening -/

/-- No link is in the place of the lock file, and a file in the place of the temporary file has no other name. -/
structure Unshared (path : Text) (fs : FileSystem) : Prop where
  lock : ∀ loc target, fs.resolve .entry (lockPath path) ≠ .ok (.taken loc (.link target))
  temp : ∀ loc entry, fs.resolve .entry (tempPath path) = .ok (.taken loc entry) →
    entry = .directory ∨ ∃ id, entry = .file id ∧ ∀ loc', fs.entry? loc' = some (.file id) → loc' = loc

theorem unshared_of_free {place : Place} (hlock : fs.resolve .entry (lockPath path) = .ok place)
    (hlink : ∀ l target, place ≠ .taken l (.link target))
    (htemp : fs.resolve .entry (tempPath path) = .ok (.free temp)) : Unshared path fs where
  lock l target hr := hlink l target (Except.ok.inj (hlock.symm.trans hr))
  temp l entry hr := by cases htemp.symm.trans hr

section
variable (hu : Unshared path fs) (hknown : fs.Known) (hopen : fs.openForWriting (lockPath path) = .ok (id, fs'))
include hu hknown hopen

theorem held?_of_opened : ∃ lock, fs.LeadsTo (lockPath path) lock ∧
    ∀ loc, loc ≠ lock → fs'.held? loc = fs.held? loc := by
  have hentry : fs.resolve .create (lockPath path) = fs.resolve .entry (lockPath path) :=
    resolve_eq_entry (Path.endsInSlash_sibling path (by decide) (by decide)) hu.lock
  obtain ⟨lock, ⟨hr, rfl⟩ | ⟨hr, rfl, rfl, hroot⟩⟩ := openForWriting_cases hopen
  · exact ⟨lock, leadsTo_of_resolve (hentry ▸ hr), fun _ _ => rfl⟩
  · refine ⟨lock, (hentry ▸ hr).trans (congrArg _ (placeAt_none (entry?_of_resolve_free hr)).symm), fun loc hloc => ?_⟩
    -- the new file is nobody else's
    have hid : ∀ l, fs.entry? l = some (.file fs.next) → l = lock := fun l hl =>
      absurd (hknown l _ hl) (Nat.lt_irrefl _)
    exact held?_of_entry hid (fun _ hne => bytes_setBytes_ne hne) hloc ((entry?_newFile hroot).trans (if_neg hloc))

/-- Opening the lock leaves the temporary file without another name. -/
theorem spare_of_opened (hdir : ∀ loc, fs.resolve .entry (tempPath path) ≠ .ok (.taken loc .directory))
    (lock : FileId) : Spare ⟨path, lock⟩ fs' := by
  have hways := openForWriting_ways hopen
  have hcurrent := openForWriting_current hopen
  have hbefore : ∀ loc entry, fs.resolve .entry (tempPath path) = .ok (.taken loc entry) →
      ∃ id, entry = .file id ∧ ∀ loc', fs.entry? loc' = some (.file id) → loc' = loc := by
    intro loc entry h
    rcases hu.temp loc entry h with rfl | hfile
    · exact absurd h (hdir loc)
    · exact hfile
  obtain ⟨loc, ⟨-, rfl⟩ | ⟨-, rfl, rfl, hroot⟩⟩ := openForWriting_cases hopen
  · exact hbefore
  · intro l entry hr
    have hentry := entry?_of_resolve hr
    have hl : fs.LeadsTo (tempPath path) l := (leadsTo_of_resolve hr).of_ways hways hcurrent.symm
    rw [entry?_newFile hroot] at hentry
    by_cases hloc : l = loc
    · rw [if_pos hloc] at hentry
      refine ⟨fs.next, (Option.some.inj hentry).symm, fun l' hl' => ?_⟩
      rw [entry?_newFile hroot] at hl'
      split at hl'
      · rename_i hsame
        exact hsame.trans hloc.symm
      · exact absurd (hknown l' _ hl') (Nat.lt_irrefl _)
    · rw [if_neg hloc] at hentry
      obtain ⟨id, rfl, halone⟩ := hbefore l entry (hl.trans (congrArg _ (placeAt_some hentry)))
      refine ⟨id, rfl, fun l' hl' => halone l' ?_⟩
      rw [entry?_newFile hroot] at hl'
      split at hl'
      · cases hl'
        exact absurd (hknown l _ hentry) (Nat.lt_irrefl _)
      · exact hl'

end

/-! ## Replacing -/

/-- Nothing but the document and the temporary file has changed, and the temporary file is gone unless it
was `left`. -/
structure Confined (s : FileSink) (left : Bool) (fs fs' : FileSystem) : Prop where
  ways : fs'.Ways fs
  current : fs'.current = fs.current
  others : ∀ loc, ¬fs.LeadsTo s.path loc → ¬fs.LeadsTo (tempPath s.path) loc → fs'.held? loc = fs.held? loc
  temp : left = false → ∀ loc, fs.LeadsTo (tempPath s.path) loc → fs'.entry? loc = none

variable {left : Bool} {answer : Except Error Unit} {e : Error} {texts : List Text}

theorem confined_refl (h : left = false → s.Cleared fs) : s.Confined left fs fs where
  ways := .refl fs
  current := rfl
  others _ _ _ := rfl
  temp hleft loc hl := by
    cases hentry : fs.entry? loc with
    | none => rfl
    | some entry => exact absurd (hl.trans (congrArg _ (placeAt_some hentry))) (h hleft loc entry)

theorem Confined.spare (h : s.Confined false fs fs') : s.Spare fs' := by
  intro loc entry hr
  have hnone := h.temp rfl loc ((leadsTo_of_resolve hr).of_ways h.ways h.current.symm)
  rw [entry?_of_resolve hr] at hnone
  cases hnone

theorem Confined.trans (h : s.Confined false fs fs') (h' : s.Confined left fs' fs'') : s.Confined left fs fs'' where
  ways loc entry hentry hfile := h.ways _ _ (h'.ways _ _ hentry hfile) hfile
  current := h'.current.trans h.current
  others loc hdoc htemp := by
    have hdoc' : ¬fs'.LeadsTo s.path loc := fun hl => hdoc (hl.of_ways h.ways h.current.symm)
    have htemp' : ¬fs'.LeadsTo (tempPath s.path) loc := fun hl => htemp (hl.of_ways h.ways h.current.symm)
    exact (h'.others loc hdoc' htemp').trans (h.others loc hdoc htemp)
  temp hleft loc htemp := by
    by_cases htemp' : fs'.LeadsTo (tempPath s.path) loc
    · exact h'.temp hleft loc htemp'
    · -- the path of the temporary file may lead nowhere now, but the document is not there
      have hdoc' : ¬fs'.LeadsTo s.path loc := fun hl =>
        temp_ne_doc htemp (hl.of_ways h.ways h.current.symm) rfl
      rw [← held?_eq_none_iff, h'.others loc hdoc' htemp', held?_eq_none_iff]
      exact h.temp rfl loc htemp

section
variable (hknown : fs.Known) (hspare : s.Spare fs)
include hknown hspare

theorem Writing.confined (hw : s.Writing fs mid temp id bs)
    (hentries : ∀ loc, loc ≠ temp → fs'.entry? loc = fs.entry? loc ∨
      fs.LeadsTo s.path loc ∧ fs'.entry? loc = some (.file id))
    (htemp : fs'.entry? temp = none ∨ left = true ∧ fs'.entry? temp = some (.file id))
    (hbytes : ∀ id', fs'.bytes id' = mid.bytes id') (hcurrent : fs'.current = mid.current) :
    s.Confined left fs fs' where
  ways := by
    apply Ways.of_entry?
    intro loc
    by_cases hloc : loc = temp
    · rw [hloc]
      exact .inr (htemp.imp_right fun h => ⟨id, h.2⟩)
    · exact (hentries loc hloc).imp Eq.symm fun h => .inr ⟨id, h.2⟩
  current := hcurrent.trans hw.current
  others loc hdoc htemp' := by
    have hloc : loc ≠ temp := by
      rintro rfl
      exact htemp' hw.resolve
    rcases hentries loc hloc with hsame | ⟨hl, -⟩
    · exact held?_of_entry (hw.own hknown hspare) (fun id' hid => (hbytes id').trans (hw.otherBytes id' hid)) hloc hsame
    · exact absurd hl hdoc
  temp hleft loc hl := by
    rw [placeAt_inj (Except.ok.inj (hl.symm.trans hw.resolve))]
    exact htemp.resolve_right fun h => by simp [hleft] at h

theorem Writing.confined_discard (hw : s.Writing fs mid temp id bs) : s.Confined false fs (s.discard mid) := by
  rw [hw.discard_eq]
  have hentry (loc : Location) :
      FileSystem.entry? (mid.erase temp) loc = if loc = temp then none else fs.entry? loc := by
    rw [entry?_erase hw.temp_ne_root, hw.entries]
    split <;> rfl
  exact hw.confined hknown hspare (fun loc hloc => .inl ((hentry loc).trans (if_neg hloc)))
    (.inl ((hentry temp).trans (if_pos rfl))) (fun _ => rfl) rfl

theorem Writing.confined_left (hw : s.Writing fs mid temp id bs) : s.Confined true fs mid :=
  hw.confined hknown hspare (fun loc hloc => .inl ((hw.entries loc).trans (if_neg hloc)))
    (.inr ⟨rfl, (hw.entries temp).trans (if_pos rfl)⟩) (fun _ => rfl) rfl

theorem Writing.confined_publish (hw : s.Writing fs mid temp id bs) (h : s.publish mid = .ok fs') :
    s.Confined false fs fs' := by
  obtain ⟨doc, hdoc, hdir, rfl⟩ := hw.publish_eq hknown hspare h
  have hroot : doc ≠ .root := ne_root_of_entry? mid hdir
  have hentry (loc : Location) : FileSystem.entry? ((mid.erase temp).put doc (.file id)) loc =
      if loc = doc then some (.file id) else if loc = temp then none else fs.entry? loc := by
    rw [entry?_put hroot, entry?_erase hw.temp_ne_root, hw.entries]
    split
    · rfl
    · split <;> rfl
  refine hw.confined hknown hspare (fun loc hloc => ?_) (.inl ?_) (fun _ => rfl) rfl
  · rw [hentry, if_neg hloc]
    split
    · rename_i hsame
      exact .inr ⟨hsame ▸ hdoc, rfl⟩
    · exact .inl rfl
  · rw [hentry, if_neg (temp_ne_doc hw.resolve hdoc), if_pos rfl]

theorem Runs.confined_done (h : s.Runs text fs ⟨fs', .done answer⟩) : s.Confined false fs fs' := by
  have hsound := h.sound hspare.no_link
  cases answer with
  | ok u =>
    obtain ⟨written, temp, id, hw, hpublish⟩ := hsound
    exact hw.confined_publish hknown hspare hpublish
  | error e =>
    obtain ⟨cause, mid, -, hbegun, hdiscard⟩ := hsound
    obtain rfl : fs' = s.discard mid := hdiscard
    rcases hbegun with rfl | ⟨temp, id, bs, hw⟩
    · by_cases hcleared : s.Cleared mid
      · rw [hcleared.discard_eq]
        exact confined_refl fun _ => hcleared
      · obtain ⟨temp, id, hw⟩ := hspare.writing_of_not_cleared hcleared
        exact hw.confined_discard hknown hspare
    · exact hw.confined_discard hknown hspare

theorem Runs.confined_left (h : s.Runs text fs ⟨fs', .left e⟩) : s.Confined true fs fs' := by
  obtain ⟨cause, -, rfl | ⟨temp, id, bs, hw⟩⟩ := h.sound hspare.no_link
  · exact confined_refl nofun
  · exact hw.confined_left hknown hspare

end

/-- However many texts are stored, one after the other, no more changes than for one. -/
theorem StoresAll.confined (h : s.StoresAll texts fs answer left fs') (hne : texts ≠ []) (hknown : fs.Known)
    (hspare : s.Spare fs) : s.Confined left fs fs' := by
  induction h with
  | nil => exact absurd rfl hne
  | @stored text texts fs mid fs' answer left hruns hrest ih =>
    have hone := hruns.confined_done hknown hspare
    by_cases hlast : texts = []
    · subst hlast
      cases hrest
      exact hone
    · exact hone.trans (ih hlast (hruns.later.known hknown) hone.spare)
  | failed hruns => exact hruns.confined_done hknown hspare
  | left hruns => exact hruns.confined_left hknown hspare

/-- Nothing is stored where the temporary file would be a directory. -/
theorem StoresAll.of_directory (h : s.StoresAll texts fs answer left fs')
    (hdir : fs.resolve .entry (tempPath s.path) = .ok (.taken loc .directory)) : fs' = fs := by
  have hlink : ∀ loc target, fs.resolve .entry (tempPath s.path) ≠ .ok (.taken loc (.link target)) := by simp [hdir]
  have hwriting {mid : FileSystem} {temp : Location} {id : FileId} {bs : Bytes} (hw : s.Writing fs mid temp id bs) :
      False := by
    have hplace := Except.ok.inj (hw.resolve.symm.trans hdir)
    rcases hw.before with hnone | hfile
    · rw [placeAt_none hnone] at hplace
      cases hplace
    · rw [placeAt_some hfile] at hplace
      cases hplace
  have hbegun {mid : FileSystem} (hb : s.Begun fs mid) : mid = fs := hb.resolve_right fun ⟨_, _, _, hw⟩ => hwriting hw
  cases h with
  | nil => rfl
  | stored hruns =>
    obtain ⟨written, temp, id, hw, -⟩ := hruns.sound hlink
    exact (hwriting hw).elim
  | failed hruns =>
    obtain ⟨cause, mid, -, hb, hdiscard⟩ := hruns.sound hlink
    rw [hbegun hb] at hdiscard
    exact hdiscard.trans ((discard_cases hlink).resolve_right fun ⟨_, _, hw⟩ => hwriting hw)
  | left hruns =>
    obtain ⟨cause, -, hb⟩ := hruns.sound hlink
    exact hbegun hb

/-! ## A document from opening to closing -/

/-- What is stored without other faults than those of the files is stored in one of the runs. -/
theorem storesAll_sink (s : FileSink) (texts : List Text) (fs : FileSystem) :
    s.StoresAll texts fs (s.sink.storeAll texts fs).1 false (s.sink.storeAll texts fs).2 := by
  induction texts generalizing fs with
  | nil => exact .nil fs
  | cons text texts ih =>
    have hruns := runs_sink s text fs
    rw [Sink.storeAll]
    rcases hsink : s.sink text fs with ⟨e | ⟨⟩, mid⟩
    · rw [hsink] at hruns
      exact .failed hruns
    · rw [hsink] at hruns
      exact .stored hruns (ih mid)

end FileSink

end ScenarioDocs
