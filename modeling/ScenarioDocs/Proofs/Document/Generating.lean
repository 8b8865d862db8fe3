import ScenarioDocs.Command.Run
import ScenarioDocs.Proofs.Discovery.Undisturbed
import ScenarioDocs.Proofs.Document.Rewriting
import ScenarioDocs.Proofs.Document.Unmarked
import ScenarioDocs.Proofs.Source.OneLine

/-!
# Generating and checking

A document that was generated is current, and generating it again leaves it as
it is: the directories and files that come with a document give a search
nothing to find.
-/

namespace ScenarioDocs

open FileSystem

variable {c : Collector} {s : FileSink} {fs fs' fs1 fs2 : FileSystem} {path : Text} {loc doc : Location} {id : FileId}
  {bs : Bytes} {scopes : List Scope} {specs : List Text} {findings : Findings} {report : Report}

structure Collector.Room (c : Collector) (path : Text) (fs : FileSystem) : Prop where
  document : ∀ loc entry, fs.resolve .entry path = .ok (.taken loc entry) → ∃ id, entry = .file id ∧ c.IsSilent fs id
  lock : ∀ loc entry, fs.resolve .entry (FileSink.lockPath path) = .ok (.taken loc entry) → ∃ id, entry = .file id
  temp : ∀ loc entry, fs.resolve .entry (FileSink.tempPath path) ≠ .ok (.taken loc entry)

/-! ## What is left behind is silent -/

theorem Scanner.isSilent_nil {s : Scanner} : s.IsSilent (Utf8.decodeLossy []) := by
  have hnil : Utf8.decodeLossy [] = [] := Utf8.decodeLossy_encode []
  rw [hnil]
  exact nofun

theorem Collector.oneLine_of_collect (h : c.collect fs specs = .ok findings) :
    ∀ r ∈ Document.scenarios findings.scopes, r.OneLine := by
  obtain ⟨rfl, -⟩ := collect_ok h
  intro r hr
  have hr := (gather_scenarios _ _ _).mem_iff.1 hr
  obtain ⟨f, -, hr⟩ := List.mem_flatMap.1 hr
  exact c.scanner.oneLine_of_mem_scan hr

theorem Collector.scenarios_of_silent (h : c.collect fs specs = .ok findings)
    (hsilent : ∀ b ∈ Batch.opened [] ((specs.map SourcePath.ofSpec).flatMap (c.batches .nothing fs)), ∀ f ∈ b.files,
      c.IsSilent fs f.2.2) : Document.scenarios findings.scopes = [] := by
  obtain ⟨rfl, -⟩ := collect_ok h
  refine List.eq_nil_iff_forall_not_mem.2 fun r hr => ?_
  have hr := (gather_scenarios _ _ _).mem_iff.1 hr
  obtain ⟨f, hf, hr⟩ := List.mem_flatMap.1 hr
  obtain ⟨b, hb, hf⟩ := List.mem_flatMap.1 (mem_of_mem_fresh hf).1
  rw [found, Scanner.scan_of_silent (hsilent b hb f hf)] at hr
  cases hr

theorem Collector.isSilent_text (h : c.collect fs specs = .ok findings) :
    c.scanner.IsSilent (Document.text findings.scopes) :=
  Scanner.isSilent_of_unmarked (Document.unmarked_text (c.oneLine_of_collect h))

theorem Collector.unheard_of_rewrites (hd : fs'.Distinct) (hk : fs.Known) (h : fs.Rewrites fs' loc bs)
    (hbefore : fs.entry? loc = none ∨ ∃ id, fs.entry? loc = some (.file id) ∧ c.IsSilent fs id)
    (hsilent : c.scanner.IsSilent (Utf8.decodeLossy bs)) : c.Unheard fs fs' where
  distinct := hd
  current := h.current
  bytes l id hid := h.bytes id (hk l id hid)
  entries l := by
    by_cases hl : l = loc
    · obtain ⟨id, -, hid, hbs⟩ := h.file
      rw [hl]
      refine .inr (.inr ⟨hbefore, id, hid, ?_⟩)
      rw [IsSilent, hbs]
      exact hsilent
    · exact .inl (h.others l hl)

theorem FileSystem.newFile_rewrites (hroot : loc ≠ .root) : fs.Rewrites (fs.newFile loc).2 loc [] where
  file := ⟨fs.next, Nat.le_refl _, by rw [entry?_newFile hroot, if_pos rfl], bytes_setBytes⟩
  others l hl := by rw [entry?_newFile hroot, if_neg hl]
  bytes id hid := bytes_setBytes_ne (Nat.ne_of_lt hid)
  next := Nat.le_succ _
  locked := rfl
  current := rfl

/-- What a path leads to past a new file is the new file or was there. -/
theorem FileSystem.resolve_newFile {q : Text} {l : Location} {entry : Entry} (hroot : loc ≠ .root)
    (h : (fs.newFile loc).2.resolve .entry q = .ok (.taken l entry)) : fs.resolve .entry q = .ok (fs.placeAt l) ∧
      if l = loc then entry = .file fs.next else fs.entry? l = some entry := by
  have hways : Ways (fs.newFile loc).2 fs := by
    apply Ways.of_entry?
    intro l
    rw [entry?_newFile hroot]
    by_cases hl : l = loc
    · rw [if_pos hl]
      exact .inr (.inr ⟨_, rfl⟩)
    · rw [if_neg hl]
      exact .inl rfl
  refine ⟨resolve_of_ways hways rfl h, ?_⟩
  have hentry := entry?_of_resolve h
  rw [entry?_newFile hroot] at hentry
  split at hentry <;> simp_all

/-! ## Opening the sink -/

theorem FileSink.sibling_ne_sibling {ending ending' : Text} {loc' : Location} (hslash : '/' ∉ ending)
    (hlength : 2 < ending.length) (hslash' : '/' ∉ ending') (hlength' : 2 < ending'.length) (hne : ending ≠ ending')
    (h : fs.resolve .entry (Path.sibling path ending) = .ok (fs.placeAt loc))
    (h' : fs.resolve .entry (Path.sibling path ending') = .ok (fs.placeAt loc')) : loc ≠ loc' := by
  obtain ⟨d, hd, hplace⟩ := sibling_of_resolve hslash hlength h
  obtain ⟨d', hd', hplace'⟩ := sibling_of_resolve hslash' hlength' h'
  rw [placeAt_inj hplace, placeAt_inj hplace']
  intro hsame
  exact hne (List.append_cancel_left (Location.child_inj.1 hsame).2)

section
variable (hroom : c.Room path fs)
include hroom

theorem Collector.Room.before (hdoc : fs.resolve .entry path = .ok (fs.placeAt doc)) :
    fs.entry? doc = none ∨ ∃ id, fs.entry? doc = some (.file id) ∧ c.IsSilent fs id := by
  cases hentry : fs.entry? doc with
  | none => exact .inl rfl
  | some entry =>
    obtain ⟨id, rfl, hsilent⟩ := hroom.document doc entry (hdoc.trans (congrArg _ (placeAt_some hentry)))
    exact .inr ⟨id, rfl, hsilent⟩

theorem Collector.Room.resolve_lock :
    fs.resolve .create (FileSink.lockPath path) = fs.resolve .entry (FileSink.lockPath path) := by
  apply resolve_eq_entry (Path.endsInSlash_sibling path (by decide) (by decide))
  intro loc target hlink
  obtain ⟨id, hid⟩ := hroom.lock loc _ hlink
  cases hid

theorem Collector.Room.ready (hk : fs.Known) (hd : fs.Distinct) (id : FileId) : FileSink.Ready ⟨path, id⟩ fs := by
  refine ⟨hk, hd, hroom.temp, fun loc target hlink => ?_⟩
  obtain ⟨id, hid, -⟩ := hroom.document loc _ hlink
  cases hid

theorem Collector.Room.newFile (hk : fs.Known) (hlock : fs.resolve .entry (FileSink.lockPath path) = .ok (.free loc)) :
    c.Room path (fs.newFile loc).2 := by
  have hnone := entry?_of_resolve_free hlock
  have hroot : loc ≠ .root := ne_root_of_entry? fs (by simp [hnone])
  rw [← placeAt_none hnone] at hlock
  refine ⟨fun l entry htaken => ?_, fun l entry htaken => ?_, fun l entry htaken => ?_⟩
  · obtain ⟨hdoc, hentry⟩ := resolve_newFile hroot htaken
    split at hentry
    · refine ⟨fs.next, hentry, ?_⟩
      have hbytes : FileSystem.bytes (fs.newFile loc).2 fs.next = [] := bytes_setBytes
      rw [IsSilent, hbytes]
      exact Scanner.isSilent_nil
    · obtain hfree | ⟨id, hid, hsilent⟩ := hroom.before hdoc
      · rw [hfree] at hentry
        cases hentry
      · rw [hid] at hentry
        cases hentry
        exact ⟨id, rfl, hsilent.of_bytes ((newFile_rewrites hroot).bytes id (hk l id hid))⟩
  · obtain ⟨hlock', hentry⟩ := resolve_newFile hroot htaken
    have hl : loc = l := placeAt_inj (Except.ok.inj (hlock.symm.trans hlock'))
    rw [if_pos hl.symm] at hentry
    exact ⟨_, hentry⟩
  · obtain ⟨htemp, hentry⟩ := resolve_newFile hroot htaken
    have hne : loc ≠ l :=
      FileSink.sibling_ne_sibling (by decide) (by decide) (by decide) (by decide) (by decide) hlock htemp
    rw [if_neg hne.symm] at hentry
    exact hroom.temp l entry (htemp.trans (congrArg _ (placeAt_some hentry)))

theorem Collector.Room.openForWriting (hk : fs.Known) (hd : fs.Distinct)
    (hopen : fs.openForWriting (FileSink.lockPath path) = .ok (id, fs')) :
    c.Room path fs' ∧ c.Unheard fs fs' ∧
      ∃ lock, fs'.resolve .entry (FileSink.lockPath path) = .ok (.taken lock (.file id)) := by
  have hd' := Distinct.openForWriting hd hopen
  obtain ⟨loc, ⟨hr, rfl⟩ | ⟨hr, rfl, rfl, hroot⟩⟩ := openForWriting_cases hopen
  · rw [hroom.resolve_lock] at hr
    exact ⟨hroom, unheard_of_adds c (.refl _) hd, loc, hr⟩
  · rw [hroom.resolve_lock] at hr
    have hnone := entry?_of_resolve_free hr
    have hunheard := unheard_of_rewrites hd' hk (newFile_rewrites hroot) (.inl hnone) c.scanner.isSilent_nil
    refine ⟨hroom.newFile hk hr, hunheard, loc, ?_⟩
    have hgrows := openForWriting_grows hopen
    rw [resolve_of_ways hgrows.ways (openForWriting_current hopen) hr]
    exact congrArg _ (placeAt_some (by rw [entry?_newFile hroot, if_pos rfl]))

theorem Collector.Room.withLocks (locked : List FileId) : c.Room path { fs with locked := locked } where
  document loc entry htaken := hroom.document loc entry ((resolve_withLocks ..).symm.trans htaken)
  lock loc entry htaken := hroom.lock loc entry ((resolve_withLocks ..).symm.trans htaken)
  temp loc entry htaken := hroom.temp loc entry ((resolve_withLocks ..).symm.trans htaken)

end

theorem Collector.Room.create (ht : fs.IsTree) (hroom : c.Room path (FileSink.prepare path fs).2)
    (hcreate : FileSink.create path fs = (.ok s, fs')) :
    s.path = path ∧ c.Room path fs' ∧ fs.Grows fs' ∧ c.Unheard fs fs' ∧ s.Ready fs' ∧
      ∃ lock, fs'.resolve .entry (FileSink.lockPath path) = .ok (.taken lock (.file s.lock)) := by
  obtain ⟨fs1, id, fs2, hprepare, hopen, -, rfl, rfl⟩ := FileSink.create_ok_inv hcreate
  have hadds := FileSink.prepare_adds path fs
  have hd : (FileSink.prepare path fs).2.Distinct := Distinct.makeDirectories ht.distinct _
  rw [hprepare] at hroom hadds hd
  have hk := hadds.later.known ht.isKnown
  obtain ⟨hroom, hopened, lock, hlock⟩ := hroom.openForWriting hk hd hopen
  have hready : FileSink.Ready ⟨path, id⟩ fs2 :=
    hroom.ready ((openForWriting_later hopen).known hk) (hd.openForWriting hopen) id
  refine ⟨rfl, hroom.withLocks _, fun loc entry hentry => ?_, ?_, hready.withLocks _, lock, ?_⟩
  · exact openForWriting_grows hopen loc entry (hadds.grows loc entry hentry)
  · exact ((unheard_of_adds c hadds hd).trans hadds.grows hopened).withLocks _
  · exact (resolve_withLocks ..).trans hlock

/-! ## Storing -/

theorem Command.store_ok_iff : store path scopes fs = (.ok report, fs') ↔ ∃ s fs1 fs2,
    FileSink.create path fs = (.ok s, fs1) ∧ s.sink.storeAll (Document.snapshots scopes) fs1 = (.ok (), fs2) ∧
      report = Document.report scopes ∧ fs' = fs2.unlock s.lock := by
  constructor
  · intro h
    unfold store at h
    split at h
    · cases h
    · rename_i s fs1 hcreate
      rw [Document.render_eq] at h
      rcases hstore : s.sink.storeAll (Document.snapshots scopes) fs1 with ⟨_ | _, fs2⟩
      · rw [hstore] at h
        cases h
      · rw [hstore] at h
        cases h
        exact ⟨s, fs1, fs2, hcreate, hstore, rfl, rfl⟩
  · rintro ⟨s, fs1, fs2, hcreate, hstore, rfl, rfl⟩
    rw [store, hcreate]
    simp only
    rw [Document.render_eq, hstore]
    rfl

structure FileSink.Settled (path : Text) (fs : FileSystem) (id : FileId) : Prop extends Steady ⟨path, id⟩ fs where
  lock : fs.openForWriting (lockPath path) = .ok (id, fs)
  unlocked : id ∉ fs.locked

/-- The lock stays where it is, whatever becomes of the document. -/
theorem FileSink.Steady.settled {lock : Location} (h : s.Steady fs')
    (hlock : fs.resolve .entry (lockPath s.path) = .ok (.taken lock (.file s.lock)))
    (hdoc : fs.resolve .entry s.path = .ok (fs.placeAt doc))
    (hbefore : fs.entry? doc = none ∨ ∃ id, fs.entry? doc = some (.file id)) (hrewrites : fs.Rewrites fs' doc bs) :
    Settled s.path (fs'.unlock s.lock) s.lock := by
  have hentry := entry?_of_resolve hlock
  rw [← placeAt_some hentry] at hlock
  have hne : lock ≠ doc := sibling_ne_doc (by decide) (by decide) hlock hdoc
  have hlock' : fs'.resolve .entry (lockPath s.path) = .ok (.taken lock (.file s.lock)) := by
    rw [resolve_of_ways (hrewrites.ways hbefore) hrewrites.current hlock, see_placeAt, placeAt_some]
    exact (hrewrites.others lock hne).trans hentry
  have hslash : endsInSlash (lockPath s.path) = false := Path.endsInSlash_sibling s.path (by decide) (by decide)
  have hcreate : (fs'.unlock s.lock).resolve .create (lockPath s.path) = .ok (.taken lock (.file s.lock)) := by
    rw [← hlock', ← resolve_eq_entry hslash (by simp [hlock'])]
    exact resolve_withLocks ..
  refine ⟨h.withLocks _, ?_, by simp [unlock]⟩
  rw [FileSystem.openForWriting, hcreate]
  rfl

theorem FileSink.Settled.store (h : Settled path fs id) (scopes : List Scope) : ∃ fs',
    Command.store path scopes fs = (.ok (Document.report scopes), fs') ∧
      fs'.read path = .ok (Utf8.encode (Document.text scopes)) := by
  obtain ⟨bs, hread⟩ := h.document
  obtain ⟨loc, id', hfile⟩ := exists_file_of_read hread
  obtain ⟨dir, hdir⟩ := directory?_parent_of_find (find_file_iff.2 hfile)
  have hsteady : Steady ⟨path, id⟩ (fs.lock id) := h.toSteady.withLocks _
  obtain ⟨fs', hstore, hread'⟩ := hsteady.storeAll (Document.getLast?_snapshots scopes)
  have hcreate : create path fs = (.ok ⟨path, id⟩, fs.lock id) := by
    rw [create_eq (prepare_eq hdir) h.lock, if_neg (by simpa [isLocked] using h.unlocked)]
  refine ⟨fs'.unlock id, ?_, ?_⟩
  · exact Command.store_ok_iff.2 ⟨_, _, fs', hcreate, hstore, rfl, rfl⟩
  · rw [Document.text_eq, ← hread']
    exact read_withLocks ..

/-- A generation gives a search nothing to find, and leaves a document that is current and can be generated again. -/
theorem Collector.Room.store (ht : fs.IsTree) (hroom : c.Room path (FileSink.prepare path fs).2)
    (hsilent : c.scanner.IsSilent (Document.text scopes)) (hok : Command.store path scopes fs = (.ok report, fs')) :
    c.Unheard fs fs' ∧ report = Document.report scopes ∧ fs'.read path = .ok (Utf8.encode (Document.text scopes)) ∧
      ∃ id, FileSink.Settled path fs' id := by
  obtain ⟨s, fs1, fs2, hcreate, hstore, rfl, rfl⟩ := Command.store_ok_iff.1 hok
  obtain ⟨rfl, hroom, hgrows, hunheard, hready, lock, hlock⟩ := hroom.create ht hcreate
  obtain ⟨doc, hdoc, hrewrites, hsteady, hread⟩ := hready.storeAll hstore (Document.getLast?_snapshots scopes)
  rw [← Document.text_eq] at hrewrites hread
  have hbefore := hroom.before hdoc
  have hfile : fs1.entry? doc = none ∨ ∃ id, fs1.entry? doc = some (.file id) :=
    hbefore.imp_right fun ⟨id, hid, _⟩ => ⟨id, hid⟩
  have hwritten : c.Unheard fs1 fs2 := by
    apply unheard_of_rewrites hsteady.distinct hready.known hrewrites hbefore
    rw [Utf8.decodeLossy_encode]
    exact hsilent
  refine ⟨(hunheard.trans hgrows hwritten).withLocks _, rfl, ?_, s.lock, hsteady.settled hlock hdoc hfile hrewrites⟩
  exact (read_withLocks ..).trans hread

namespace Command

/-- A generation led from `fs` to `fs'`, and a second one would change nothing. -/
structure Settles (c : Collector) (specs : List Text) (path : Text) (findings : Findings) (report : Report)
    (fs fs' : FileSystem) : Prop where
  collected : c.Undisturbed fs fs' (specs.map .ofSpec) → c.collect fs' specs = .ok findings
  current : Document.status fs' path findings.scopes = .ok .current
  again : ∃ fs'', store path findings.scopes fs' = (.ok report, fs'') ∧ fs''.read path = fs'.read path
  /-- The document was current before exactly if the generation has not changed it. -/
  before : Document.status fs path findings.scopes = .ok .current ↔
    ∃ bs, fs.read path = .ok bs ∧ fs'.read path = .ok bs

theorem store_settles (ht : fs.IsTree) (hcollect : c.collect fs specs = .ok findings)
    (hroom : c.Room path (FileSink.prepare path fs).2)
    (hstore : store path findings.scopes fs = (.ok report, fs')) : Settles c specs path findings report fs fs' := by
  obtain ⟨hunheard, hreport, hread, id, hsettled⟩ := hroom.store ht (Collector.isSilent_text hcollect) hstore
  obtain ⟨fs'', hagain, hread'⟩ := hsettled.store findings.scopes
  constructor
  case collected => exact fun hu => Collector.collect_undisturbed hunheard ht hu hcollect
  case current => exact Document.status_eq_current_iff.2 hread
  case again =>
    rw [hreport]
    exact ⟨fs'', hagain, hread'.trans hread.symm⟩
  case before =>
    rw [Document.status_eq_current_iff]
    constructor
    · intro hbefore
      exact ⟨_, hbefore, hread⟩
    · rintro ⟨bs, hbefore, hafter⟩
      rw [hbefore, ← hafter, hread]

/-! ## Searches with a document among the files -/

def isTaken (fs : FileSystem) (path : Text) : Bool :=
  match fs.resolve .entry path with
  | .ok (.taken ..) => true
  | _ => false

theorem resolve_of_not_isTaken (h : isTaken fs path = false) (loc : Location) (entry : Entry) :
    fs.resolve .entry path ≠ .ok (.taken loc entry) := by
  intro htaken
  rw [isTaken, htaken] at h
  cases h

theorem room_of_not_isTaken (hdocument : isTaken fs path = false) (hlock : isTaken fs (FileSink.lockPath path) = false)
    (htemp : isTaken fs (FileSink.tempPath path) = false) : c.Room path fs where
  document loc entry htaken := absurd htaken (resolve_of_not_isTaken hdocument loc entry)
  lock loc entry htaken := absurd htaken (resolve_of_not_isTaken hlock loc entry)
  temp := resolve_of_not_isTaken htemp

theorem store_one (name : Text) (r : Scenario) (after : Text → FileSystem) (hopen : (FileSink.create path fs).1 = .ok s)
    (hsink : ∀ t, s.sink t (FileSink.create path fs).2 = (.ok (), after t)) :
    store path [⟨name, [r]⟩] fs =
      (.ok (Document.report [⟨name, [r]⟩]), (after (Document.text [⟨name, [r]⟩])).unlock s.lock) := by
  refine store_ok_iff.2 ⟨s, _, _, Prod.ext hopen rfl, ?_, rfl, rfl⟩
  have hsnapshots : Document.snapshots [⟨name, [r]⟩] = [Document.text [⟨name, [r]⟩]] := by
    simp [Document.snapshots, Document.snapshotsFrom, Document.text_eq, Document.ofScenarios]
  rw [hsnapshots, Sink.storeAll, hsink]
  rfl

def goFiles : Collector := ⟨.standard, ["go"]⟩

def searched : FileSystem :=
  let s := (Location.root.child "work").child "s"
  ⟨[(s.child "a.go", .file 0), (s, .directory), (s.parent, .directory)],
    [(0, Utf8.encode "// +docgenerator:pod")], 1, [], s.parent⟩

def documented (t : Text) : FileSystem :=
  let s := (Location.root.child "work").child "s"
  ⟨(s.child "d.go", .file 2) :: (s.child "d.go.lock", .file 1) :: searched.entries,
    (2, Utf8.encode t) :: (1, []) :: searched.contents, 3, [1], s.parent⟩

theorem undisturbed_documented (t : Text) :
    goFiles.Undisturbed searched ((documented t).unlock 1) ((["s"] : List Text).map SourcePath.ofSpec) := by
  have hshort : ((["s"] : List Text).map SourcePath.ofSpec).all (fun p =>
      (p.visits ((documented t).unlock 1)).all fun v => !isTooLong v.path && (!isTooLong v.loc.path &&
        (FileSystem.sourceFiles ((documented t).unlock 1) goFiles.extensions v).all fun f => !isTooLong f.2.1.path)) =
      true := by
    cbv
  simp only [List.all_eq_true, Bool.and_eq_true, Bool.not_eq_true'] at hshort
  refine ⟨fun p _ v _ name target e hlink => ?_, fun p hp v hv => (hshort p hp v hv).1,
    fun p hp v hv _ => (hshort p hp v hv).2.1, fun p hp v hv f hf _ => (hshort p hp v hv).2.2 f hf⟩
  have htree : searched.IsTree := by decide
  have hroot : v.loc.child name ≠ .root := ne_root_of_entry? searched (by simp [hlink])
  have hmem := htree.mem_entries_iff.2 ⟨hroot, hlink⟩
  simp [searched] at hmem

/-- The document becomes one of the files that are searched. -/
theorem store_settles_searched :
    ∃ findings fs report, goFiles.collect searched ["s"] = .ok findings ∧
      store "s/d.go" findings.scopes searched = (.ok report, fs) ∧ goFiles.collect fs ["s"] = .ok findings ∧
      Document.status fs "s/d.go" findings.scopes = .ok .current ∧
      (∃ fs', store "s/d.go" findings.scopes fs = (.ok report, fs') ∧ fs'.read "s/d.go" = fs.read "s/d.go") ∧
      Document.status searched "s/d.go" findings.scopes ≠ .ok .current := by
  have hcollect : goFiles.collect searched ["s"] = .ok ⟨[⟨"s", [.blank]⟩], []⟩ := by cbv
  have hroom : goFiles.Room "s/d.go" (FileSink.prepare "s/d.go" searched).2 :=
    room_of_not_isTaken (by cbv) (by cbv) (by cbv)
  have hopen : (FileSink.create "s/d.go" searched).1 = .ok ⟨"s/d.go", 1⟩ := by cbv
  have hstore := store_one "s" .blank documented hopen fun t => by cbv
  have hsettles := store_settles (by decide) hcollect hroom hstore
  refine ⟨_, _, _, hcollect, hstore, hsettles.collected (undisturbed_documented _), hsettles.current, hsettles.again,
    fun hold => ?_⟩
  obtain ⟨bs, hread, -⟩ := hsettles.before.1 hold
  have hmissing : searched.read "s/d.go" = .error .notFound := by cbv
  rw [hmissing] at hread
  cases hread

def Repeats (c : Collector) (specs : List Text) (path : Text) (fs : FileSystem) : Prop :=
  ∀ findings report fs', c.collect fs specs = .ok findings → c.Room path fs →
    store path findings.scopes fs = (.ok report, fs') → c.collect fs' specs = .ok findings

def marked : FileSystem :=
  let work := Location.root.child "work"
  ⟨[(work.child "d.go", .file 0), (work, .directory)], [(0, Utf8.encode "// +docgenerator:pod")], 1, [], work⟩

def overwritten (t : Text) : FileSystem :=
  let work := Location.root.child "work"
  ⟨[(work.child "d.go", .file 2), (work.child "d.go.lock", .file 1), (work.child "new", .directory),
      (work, .directory)],
    [(2, Utf8.encode t), (1, []), (0, Utf8.encode "// +docgenerator:pod")], 3, [1], work⟩

/-- A link to a file with a marker, through a directory that is not there. -/
def dangling : FileSystem :=
  let work := Location.root.child "work"
  ⟨[(work.child "a.go", .link "new/../b"), (work.child "b", .file 0), (work, .directory)],
    [(0, Utf8.encode "// +docgenerator:pod")], 1, [], work⟩

/-- With the directory `new` that is made for a document, its path can come to lead to a file with a marker,
and so can a link that led nowhere. -/
theorem not_repeats : ¬Repeats goFiles ["."] "new/../d.go" marked ∧ ¬Repeats goFiles ["."] "new/d" dangling := by
  constructor
  · intro h
    have hcollect : goFiles.collect marked ["."] = .ok ⟨[⟨".", [.blank]⟩], []⟩ := by cbv
    have hopen : (FileSink.create "new/../d.go" marked).1 = .ok ⟨"new/../d.go", 1⟩ := by cbv
    have hstore := store_one "." .blank overwritten hopen fun t => by cbv
    have hagain := h _ _ _ hcollect (room_of_not_isTaken (by cbv) (by cbv) (by cbv)) hstore
    have hbatches (t : Text) : Batch.opened []
        (((["."] : List Text).map SourcePath.ofSpec).flatMap (goFiles.batches .nothing ((overwritten t).unlock 1))) =
        [⟨".", some (Location.root.child "work"), [("./d.go", (Location.root.child "work").child "d.go", 2)]⟩] := by
      cbv
    have hsilent : goFiles.IsSilent ((overwritten (Document.text [⟨".", [.blank]⟩])).unlock 1) 2 := by
      show goFiles.scanner.IsSilent (Utf8.decodeLossy (Utf8.encode _))
      rw [Utf8.decodeLossy_encode]
      exact Collector.isSilent_text hcollect
    have hnone : Document.scenarios [⟨".", [.blank]⟩] = [] := by
      apply Collector.scenarios_of_silent hagain
      rw [hbatches]
      exact List.forall_mem_singleton.2 (List.forall_mem_singleton.2 hsilent)
    cases hnone
  · intro h
    have hcollect : goFiles.collect dangling ["."] = .ok ⟨[], []⟩ := by cbv
    have hstore : (store "new/d" [] dangling).1 = .ok ⟨0, 0, 0⟩ := by cbv
    have hagain := h _ _ _ hcollect (room_of_not_isTaken (by cbv) (by cbv) (by cbv)) (Prod.ext hstore rfl)
    have hmore : goFiles.collect (store "new/d" [] dangling).2 ["."] = .ok ⟨[⟨".", [.blank]⟩], []⟩ := by cbv
    cases hmore.symm.trans hagain

end Command

end ScenarioDocs
