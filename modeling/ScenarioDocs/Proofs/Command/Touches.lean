import ScenarioDocs.Command.Run
import ScenarioDocs.Proofs.Document.Confined
import ScenarioDocs.Proofs.FileSystem.Tree

/-!
# What a command touches

Commands that only look change nothing. The others change what they are for,
whichever of their calls to the system fail, and a generation that gives up
before it has found its records changes nothing either.
-/

namespace ScenarioDocs

open FileSystem

variable {fs fs' : FileSystem} {path : Text} {loc : Location} {bs : Bytes} {id : FileId} {scopes : List Scope}

/-! ## One file -/

/-- Writing to a path that does not lead to a link changes one file. -/
theorem FileSystem.write_inv (hslash : endsInSlash path = false) (hl : fs.LeadsTo path loc)
    (hlink : ∀ target, fs.entry? loc ≠ some (.link target)) (h : fs.write path bs = .ok fs') : ∃ id,
      (fs.entry? loc = some (.file id) ∨ id = fs.next) ∧ (∀ l, l ≠ loc → fs'.entry? l = fs.entry? l) ∧
        ∀ id', id' ≠ id → fs'.bytes id' = fs.bytes id' := by
  have hnotLink : ∀ l target, fs.resolve .entry path ≠ .ok (.taken l (.link target)) := by
    intro l target hr
    obtain rfl := placeAt_inj (Except.ok.inj (hl.symm.trans (leadsTo_of_resolve hr)))
    exact hlink target (entry?_of_resolve hr)
  have hcreate : fs.resolve .create path = .ok (fs.placeAt loc) := (resolve_eq_entry hslash hnotLink).trans hl
  obtain ⟨⟨id, fs2⟩, hempty, h⟩ := bind_eq_ok_iff.1 h
  obtain ⟨⟨id', fs1⟩, hopen, hset⟩ := bind_eq_ok_iff.1 hempty
  cases hset
  cases h
  have hbytes (i : FileId) (hi : i ≠ id) : FileSystem.bytes ((fs1.setBytes id []).appendBytes id bs) i = fs1.bytes i :=
    (bytes_appendBytes_ne hi).trans (bytes_setBytes_ne hi)
  obtain ⟨l, ⟨hr, rfl⟩ | ⟨hr, rfl, rfl, hroot⟩⟩ := openForWriting_cases hopen
  · have hentry := entry?_of_resolve hr
    obtain rfl := placeAt_inj (Except.ok.inj (hcreate.symm.trans (hr.trans (congrArg _ (placeAt_some hentry).symm))))
    exact ⟨id, .inl hentry, fun _ _ => rfl, hbytes⟩
  · have hentry := entry?_of_resolve_free hr
    obtain rfl := placeAt_inj (Except.ok.inj (hcreate.symm.trans (hr.trans (congrArg _ (placeAt_none hentry).symm))))
    refine ⟨fs.next, .inr rfl, fun l hl => (entry?_newFile hroot).trans (if_neg hl), fun i hi => ?_⟩
    exact (hbytes i hi).trans (bytes_setBytes_ne hi)

namespace Command

def configLocation (fs : FileSystem) : Location := fs.current.child Config.fileName

/-- Nothing but the configuration has changed, and that only if it was missing or is to be overwritten. -/
structure OnlyConfig (force : Bool) (fs fs' : FileSystem) : Prop where
  entries : ∀ loc, loc ≠ configLocation fs → fs'.entry? loc = fs.entry? loc
  /-- A file with another name beside the configuration's would show what was written. -/
  held : ∀ loc, loc ≠ configLocation fs →
    (∀ id, fs.entry? (configLocation fs) = some (.file id) → fs.entry? loc ≠ some (.file id)) →
      fs'.held? loc = fs.held? loc
  refused : fs.entry? (configLocation fs) ≠ none → force = false → fs' = fs

def configPath : Text := Path.join "." Config.fileName

/-- What `init` may leave: the writing can fail after any part of the text. -/
inductive Inits (force : Bool) (fs : FileSystem) : FileSystem → Prop
  | gaveUp : Inits force fs fs
  | wrote {some rest : Bytes} {fs' : FileSystem} : ¬(fs.pathExists configPath = true ∧ force = false) →
      Utf8.encode Config.standard.print = some ++ rest → fs.write configPath some = .ok fs' → Inits force fs fs'

inductive Own (fs : FileSystem) (path : Text) (loc : Location) : Prop
  | document (h : fs.LeadsTo path loc)
  | temp (h : fs.LeadsTo (FileSink.tempPath path) loc)
  | lock (h : fs.LeadsTo (FileSink.lockPath path) loc)

/-- Nothing but what a document comes with has changed, and directories that were missing above it were made. -/
structure OnlyDocument (path : Text) (fs prepared : FileSystem) (stage : FileSink.Stage) (fs' : FileSystem) : Prop where
  others : ∀ loc, ¬Own prepared path loc → fs.Kept prepared fs' path loc
  temp : stage = .opened false → ∀ loc, prepared.LeadsTo (FileSink.tempPath path) loc →
    prepared.entry? loc ≠ some .directory → fs'.entry? loc = none
  refused : stage = .refused → ∀ loc, prepared.LeadsTo path loc → fs.Kept prepared fs' path loc

/-! ## Generating -/

theorem render_storeAll (s : FileSink) (scopes : List Scope) (fs : FileSystem) :
    (Document.render s.sink scopes fs).2 = (s.sink.storeAll (Document.snapshots scopes) fs).2 := by
  rw [Document.render_eq]
  rcases s.sink.storeAll (Document.snapshots scopes) fs with ⟨_ | _, fs'⟩ <;> rfl

theorem snapshots_ne_nil (scopes : List Scope) : Document.snapshots scopes ≠ [] := by
  have hlength := Document.length_snapshots scopes
  exact List.length_pos_iff.1 (by omega)

section
variable {prepared opened stored : FileSystem} {texts : List Text} {answer : Except Error Unit} {left : Bool}
  {stage : FileSink.Stage} (hu : FileSink.Unshared path prepared)
include hu

/-- What is stored once the lock was opened changes the document and the temporary file. -/
theorem held?_of_storesAll (hknown : prepared.Known)
    (hopen : prepared.openForWriting (FileSink.lockPath path) = .ok (id, opened))
    (hstores : FileSink.StoresAll ⟨path, id⟩ texts (opened.lock id) answer left stored) (hne : texts ≠ []) :
    (∀ loc, ¬prepared.LeadsTo path loc → ¬prepared.LeadsTo (FileSink.tempPath path) loc →
      stored.held? loc = opened.held? loc) ∧
      (left = false → ∀ loc, prepared.LeadsTo (FileSink.tempPath path) loc →
        prepared.entry? loc ≠ some .directory → stored.entry? loc = none) := by
  have hways : (opened.lock id).Ways prepared := fun loc entry => openForWriting_ways hopen loc entry
  have hgrows : prepared.Grows (opened.lock id) := fun loc entry => openForWriting_grows hopen loc entry
  have hcurrent : (opened.lock id).current = prepared.current :=
    (openForWriting_current hopen : opened.current = prepared.current)
  have hlocked (loc : Location) : (opened.lock id).held? loc = opened.held? loc := held?_congr rfl fun _ _ => rfl
  -- where the temporary file would be a directory, nothing is stored
  by_cases hdir : ∃ loc, prepared.resolve .entry (FileSink.tempPath path) = .ok (.taken loc .directory)
  · obtain ⟨dir, hr⟩ := hdir
    have hl := leadsTo_of_resolve hr
    have hr' : (opened.lock id).resolve .entry (FileSink.tempPath path) = .ok (.taken dir .directory) :=
      (hl.of_ways hgrows.ways hcurrent).trans (congrArg _ (placeAt_some (hgrows _ _ (entry?_of_resolve hr))))
    rw [hstores.of_directory hr']
    refine ⟨fun loc _ _ => hlocked loc, fun _ loc hloc hne => ?_⟩
    rw [placeAt_inj (Except.ok.inj (hloc.symm.trans hl))] at hne
    exact absurd (entry?_of_resolve hr) hne
  · have hspare : FileSink.Spare ⟨path, id⟩ (opened.lock id) := fun loc entry hr =>
      FileSink.spare_of_opened hu hknown hopen (fun l hl => hdir ⟨l, hl⟩) id loc entry
        ((resolve_withLocks ..).symm.trans hr)
    have hknown' : (opened.lock id).Known := (openForWriting_later hopen).known hknown
    have hconfined := hstores.confined hne hknown' hspare
    refine ⟨fun loc hdoc htemp => (hconfined.others loc ?_ ?_).trans (hlocked loc), fun hleft loc hloc _ => ?_⟩
    · exact fun hl => hdoc (hl.of_ways hways hcurrent.symm)
    · exact fun hl => htemp (hl.of_ways hways hcurrent.symm)
    · exact hconfined.temp hleft loc (hloc.of_ways hgrows.ways hcurrent)

theorem onlyDocument_of_writes (hknown : fs.Known) (hne : texts ≠ [])
    (h : FileSink.Writes path texts fs prepared stage fs') : OnlyDocument path fs prepared stage fs' := by
  cases h with
  | unopened hprepares =>
    constructor
    case others => exact fun loc _ => hprepares.kept loc
    case temp => exact nofun
    case refused => exact nofun
  | refused hprepares hopen =>
    have hknown' := hprepares.adds.later.known hknown
    obtain ⟨lock, hlock, hopened⟩ := FileSink.held?_of_opened hu hknown' hopen
    constructor
    case others =>
      exact fun loc hown => (hprepares.kept loc).of_held? (hopened loc fun h => hown (.lock (h ▸ hlock)))
    case temp => exact nofun
    case refused =>
      intro _ loc hl
      have hne : loc ≠ lock := (FileSink.sibling_ne_doc (s := ⟨path, 0⟩) (by decide) (by decide) hlock hl).symm
      exact (hprepares.kept loc).of_held? (hopened loc hne)
  | @opened id opened stored answer left hprepares hopen _ hstores =>
    have hknown' := hprepares.adds.later.known hknown
    obtain ⟨lock, hlock, hopened⟩ := FileSink.held?_of_opened hu hknown' hopen
    obtain ⟨hothers, htemp⟩ := held?_of_storesAll hu hknown' hopen hstores hne
    constructor
    case others =>
      intro loc hown
      have hstored := hothers loc (fun h => hown (.document h)) fun h => hown (.temp h)
      exact (hprepares.kept loc).of_held? (hstored.trans (hopened loc fun h => hown (.lock (h ▸ hlock))))
    case temp =>
      rintro ⟨⟩
      exact htemp rfl
    case refused => exact nofun

end

/-- The generation that meets no faults but those of the files it finds is one of the runs. -/
theorem writes_store (path : Text) (scopes : List Scope) (fs : FileSystem) :
    FileSink.Writes path (Document.snapshots scopes) fs (FileSink.prepare path fs).2
      (.of (FileSink.create path fs).1) (store path scopes fs).2 := by
  have hprepares := FileSink.prepares_prepare path fs
  rcases FileSink.create_cases path fs with ⟨prepared, id, opened, hprepare, hopen⟩ | ⟨e, he⟩
  · have hcreate := FileSink.create_eq hprepare hopen
    rw [hprepare] at hprepares ⊢
    cases hlocked : opened.isLocked id with
    | true =>
      rw [hlocked, if_pos rfl] at hcreate
      rw [store, hcreate]
      exact .refused hprepares hopen
    | false =>
      rw [hlocked, if_neg (by decide)] at hcreate
      have hstores := FileSink.storesAll_sink ⟨path, id⟩ (Document.snapshots scopes) (opened.lock id)
      rw [← render_storeAll] at hstores
      rw [store, hcreate]
      exact .opened hprepares hopen hlocked hstores
  · rw [store, he]
    exact .unopened hprepares

/-! ## Saving the configuration -/

theorem leadsTo_config (fs : FileSystem) : fs.LeadsTo configPath (configLocation fs) := by
  have hsteps : FileSystem.steps configPath = [['.'], Config.fileName] := by decide
  rw [LeadsTo, FileSystem.resolve, if_neg (by decide), if_neg (by decide), if_neg (by decide), hsteps, walk_current]
  exact walk_last ⟨by decide, by decide, by decide⟩

theorem pathExists_config (hlink : ∀ target, fs.entry? (configLocation fs) ≠ some (.link target))
    (hentry : fs.entry? (configLocation fs) ≠ none) : fs.pathExists configPath = true := by
  obtain ⟨entry, hentry⟩ := Option.ne_none_iff_exists'.1 hentry
  have hr : fs.resolve .entry configPath = .ok (.taken (configLocation fs) entry) :=
    (leadsTo_config fs).trans (congrArg _ (placeAt_some hentry))
  have hfollow : fs.resolve .follow configPath = fs.resolve .entry configPath := by
    apply resolve_eq_entry (by decide)
    intro loc target hend
    cases hr.symm.trans hend
    exact hlink target hentry
  have hfind : fs.find configPath = .ok (configLocation fs, entry) := find_eq_ok_iff.2 ⟨_, hfollow.trans hr, .inl rfl⟩
  rw [pathExists, hfind]
  rfl

theorem inits_init (force : Bool) (fs : FileSystem) : Inits force fs (init force fs).2 := by
  unfold init
  split
  · exact .gaveUp
  · rename_i hwanted
    cases hwrite : fs.write configPath (Utf8.encode Config.standard.print) with
    | error e =>
      have hsave : Config.standard.save fs "." = .error (.unwritable e) := by
        rw [Config.save, ← configPath, hwrite]
      simp only [hsave]
      exact .gaveUp
    | ok fs' =>
      have hsave : Config.standard.save fs "." = .ok (configPath, fs') := by
        rw [Config.save, ← configPath, hwrite]
      simp only [hsave]
      exact .wrote (by simpa [configPath] using hwanted) (List.append_nil _).symm hwrite

theorem onlyConfig_of_inits {force : Bool} (hknown : fs.Known)
    (hlink : ∀ target, fs.entry? (configLocation fs) ≠ some (.link target)) (h : Inits force fs fs') :
    OnlyConfig force fs fs' := by
  cases h with
  | gaveUp => exact ⟨fun _ _ => rfl, fun _ _ _ => rfl, fun _ _ => rfl⟩
  | wrote hwanted _ hwrite =>
    obtain ⟨id, hid, hentries, hbytes⟩ := write_inv (by decide) (leadsTo_config fs) hlink hwrite
    refine ⟨hentries, fun loc hloc hother => held?_congr (hentries loc hloc) fun id' hfile => hbytes id' ?_, ?_⟩
    · rintro rfl
      rcases hid with hconfig | rfl
      · exact hother _ hconfig hfile
      · exact absurd (hknown loc _ hfile) (Nat.lt_irrefl _)
    · exact fun hentry hforce => absurd ⟨pathExists_config hlink hentry, hforce⟩ hwanted

/-! ## Any command -/

/-- What a command may change, whatever its outcome is and whichever of its calls to the system fail. -/
theorem execute_touches (args : List Text) (hknown : fs.Known) :
    match Request.parse? args with
    | none | some .help | some .version | some (.check _) | some (.scan _ _) => (execute args fs).2 = fs
    | some (.init force) => Inits force fs (execute args fs).2 ∧
        ((∀ target, fs.entry? (configLocation fs) ≠ some (.link target)) →
          ∀ fs', Inits force fs fs' → OnlyConfig force fs fs')
    | some (.generate o) =>
      match gather o fs with
      | .error _ => (execute args fs).2 = fs
      | .ok (c, found) =>
        FileSink.Writes c.docPath (Document.snapshots found.scopes) fs (FileSink.prepare c.docPath fs).2
          (.of (FileSink.create c.docPath fs).1) (execute args fs).2 ∧
        ∀ scopes prepared stage fs', FileSink.Writes c.docPath (Document.snapshots scopes) fs prepared stage fs' →
          FileSink.Unshared c.docPath prepared → OnlyDocument c.docPath fs prepared stage fs' := by
  cases hparse : Request.parse? args with
  | none => rw [execute, hparse]
  | some request =>
    have hrun : execute args fs = run request fs := by rw [execute, hparse]
    rw [hrun]
    cases request with
    | help => rfl
    | version => rfl
    | check o => rfl
    | scan o format => rfl
    | init force => exact ⟨inits_init force fs, fun hlink _ => onlyConfig_of_inits hknown hlink⟩
    | generate o =>
      show (match gather o fs with
        | .error _ => (generate o fs).2 = fs
        | .ok (c, found) => FileSink.Writes c.docPath _ fs _ _ (generate o fs).2 ∧ _)
      rw [generate]
      cases hgather : gather o fs with
      | error f => rfl
      | ok found =>
        exact ⟨writes_store found.1.docPath found.2.scopes fs, fun scopes prepared stage fs' hwrites hu =>
          onlyDocument_of_writes hu hknown (snapshots_ne_nil scopes) hwrites⟩

/-! ## Without a configuration -/

/-- Where no configuration was saved, the command line alone counts. -/
theorem gather_eq {o : Overrides} {found : Findings} (hmissing : fs.pathExists configPath = false)
    (hconfig : o.config = none) (hvalid : (Overrides.apply o .standard).validate = .ok ())
    (hcollect : collect (Overrides.apply o .standard) fs = .ok found) :
    gather o fs = .ok (Overrides.apply o .standard, found) := by
  have hconfigured : configured o fs = .ok .standard := by
    have hload : Config.load fs "." = .ok .standard := by
      show (if fs.pathExists configPath = true then Config.loadFrom fs configPath else .ok .standard) = _
      rw [hmissing]
      rfl
    simp only [configured, hconfig, hload]
    rfl
  have hresolve : resolve o fs = .ok (Overrides.apply o .standard) := by
    rw [resolve, hconfigured]
    simp only [bind, Except.bind, hvalid]
    rfl
  rw [gather, hresolve]
  simp only [bind, Except.bind, hcollect]
  rfl

theorem execute_generate {args : List Text} {o : Overrides} {c : Config} {found : Findings}
    (hparse : Request.parse? args = some (.generate o)) (hgather : gather o fs = .ok (c, found)) :
    (execute args fs).2 = (store c.docPath found.scopes fs).2 := by
  rw [execute, hparse]
  show (generate o fs).2 = _
  rw [generate, hgather]

/-- What `-p . -o new --doc-name d` gives. -/
def newDocument : Overrides := ⟨none, some "d", some "new", ["."]⟩

theorem execute_touches_new :
    FileSystem.Known .fresh ∧ (∀ target, FileSystem.fresh.entry? (configLocation .fresh) ≠ some (.link target)) ∧
      FileSink.Unshared "new/d" (FileSink.prepare "new/d" .fresh).2 ∧
      OnlyConfig false .fresh (execute ["init"] .fresh).2 ∧
      OnlyDocument "new/d" .fresh (FileSink.prepare "new/d" .fresh).2 (.opened false)
        (execute ["generate", "-p", ".", "-o", "new", "--doc-name", "d"] .fresh).2 := by
  have hfresh : FileSystem.IsTree .fresh := by decide
  have hlink : ∀ target, FileSystem.fresh.entry? (configLocation .fresh) ≠ some (.link target) := by
    have hnone : FileSystem.fresh.entry? (configLocation .fresh) = none := by decide
    simp [hnone]
  have hunshared : FileSink.Unshared "new/d" (FileSink.prepare "new/d" .fresh).2 := by
    have hlock : (FileSink.prepare "new/d" .fresh).2.resolve .entry (FileSink.lockPath "new/d") =
        .ok (.free (((Location.root.child "work").child "new").child "d.lock")) := by cbv
    have htemp : (FileSink.prepare "new/d" .fresh).2.resolve .entry (FileSink.tempPath "new/d") =
        .ok (.free (((Location.root.child "work").child "new").child "d.tmp")) := by cbv
    exact FileSink.unshared_of_free hlock (by simp) htemp
  have hinit := execute_touches ["init"] hfresh.isKnown
  have hgenerate := execute_touches ["generate", "-p", ".", "-o", "new", "--doc-name", "d"] hfresh.isKnown
  have hgather : gather newDocument .fresh = .ok (Overrides.apply newDocument .standard, ⟨[], []⟩) :=
    gather_eq (by cbv) rfl (by decide +kernel) (by cbv)
  rw [show Request.parse? ["init"] = some (.init false) by decide +kernel] at hinit
  rw [show Request.parse? ["generate", "-p", ".", "-o", "new", "--doc-name", "d"] = some (.generate newDocument) by
    decide +kernel] at hgenerate
  simp only [hgather] at hgenerate
  have hstage : FileSink.Stage.of (FileSink.create "new/d" .fresh).1 = .opened false := by cbv
  have hruns := hgenerate.2 _ _ _ _ hgenerate.1
  rw [show (Overrides.apply newDocument .standard).docPath = "new/d" from rfl, hstage] at hruns
  exact ⟨hfresh.isKnown, hlink, hunshared, hinit.2 hlink _ hinit.1, hruns hunshared⟩

def sinkOpen : FileSystem := (FileSink.create "a" .fresh).2

/-- What `-p . -o a/.. --doc-name a` gives. -/
def detour : Overrides := ⟨none, some "a", some "a/..", ["."]⟩

def here : Overrides := ⟨none, some "d", some ".", ["."]⟩

/-- A generation beside the temporary file of an earlier run, which can neither rename that file nor remove it. -/
theorem writes_here :
    let opened := (FileSink.leftover.newFile ((Location.root.child "work").child "d.lock")).2
    let text := Document.heading
    FileSink.Writes "./d" (Document.snapshots []) FileSink.leftover FileSink.leftover (.opened true)
      (FileSink.close ⟨"./d", 2⟩ (((opened.lock 2).setBytes 1 []).appendBytes 1 (Utf8.encode text))) := by
  intro opened text
  have hopen : FileSink.leftover.openForWriting (FileSink.lockPath "./d") = .ok (2, opened) := by cbv
  have htemp : FileSink.openTemp ⟨"./d", 2⟩ (opened.lock 2) = .ok (1, (opened.lock 2).setBytes 1 []) := by cbv
  have hfailed := (FileSink.runs_flushed htemp text).tail (.notMoved (.described "Permission denied (os error 13)"))
  exact .opened .refl hopen (by decide) (.left (hfailed.tail .notDiscarded))

/-- A document that is missing, and whose path leads through a directory of the same name, becomes that directory
when its lock is held by someone else. And the temporary file stays where it cannot be removed. -/
theorem execute_makes_refused :
    (let document := (Location.root.child "work").child "a"
    let fs' := (execute ["generate", "-p", ".", "-o", "a/..", "--doc-name", "a"] sinkOpen).2
    Request.parse? ["generate", "-p", ".", "-o", "a/..", "--doc-name", "a"] = some (.generate detour) ∧
      gather detour sinkOpen = .ok (Overrides.apply detour .standard, ⟨[], []⟩) ∧
      (Overrides.apply detour .standard).docPath = "a/../a" ∧
      FileSink.Unshared "a/../a" (FileSink.prepare "a/../a" sinkOpen).2 ∧
      (FileSink.create "a/../a" sinkOpen).1 = .error (.locked "a/../a") ∧
      (FileSink.prepare "a/../a" sinkOpen).2.LeadsTo "a/../a" document ∧
      sinkOpen.held? document = none ∧ fs'.held? document = some .directory) ∧
    ∃ fs', Request.parse? ["generate", "-p", ".", "-o", ".", "--doc-name", "d"] = some (.generate here) ∧
      gather here FileSink.leftover = .ok (Overrides.apply here .standard, ⟨[], []⟩) ∧
      (Overrides.apply here .standard).docPath = "./d" ∧ FileSink.Unshared "./d" FileSink.leftover ∧
      FileSink.Writes "./d" (Document.snapshots []) FileSink.leftover FileSink.leftover (.opened true) fs' ∧
      fs'.held? ((Location.root.child "work").child "d.tmp") = some (.file (Utf8.encode Document.heading)) := by
  constructor
  · intro document fs'
    have hparse : Request.parse? ["generate", "-p", ".", "-o", "a/..", "--doc-name", "a"] = some (.generate detour) := by
      decide +kernel
    have hgather : gather detour sinkOpen = .ok (Overrides.apply detour .standard, ⟨[], []⟩) :=
      gather_eq (by cbv) rfl (by decide +kernel) (by cbv)
    have hlock : (FileSink.prepare "a/../a" sinkOpen).2.resolve .entry (FileSink.lockPath "a/../a") =
        .ok (.taken ((Location.root.child "work").child "a.lock") (.file 0)) := by cbv
    have htemp : (FileSink.prepare "a/../a" sinkOpen).2.resolve .entry (FileSink.tempPath "a/../a") =
        .ok (.free ((Location.root.child "work").child "a.tmp")) := by cbv
    have hdocument : (FileSink.prepare "a/../a" sinkOpen).2.resolve .entry "a/../a" =
        .ok (.taken ((Location.root.child "work").child "a") .directory) := by cbv
    have hrefused : (FileSink.create "a/../a" sinkOpen).1 = .error (.locked "a/../a") := by cbv
    have hbefore : sinkOpen.held? ((Location.root.child "work").child "a") = none := by cbv
    have hafter : (store "a/../a" [] sinkOpen).2.held? ((Location.root.child "work").child "a") = some .directory := by
      cbv
    refine ⟨hparse, hgather, rfl, FileSink.unshared_of_free hlock (by simp) htemp, hrefused,
      leadsTo_of_resolve hdocument, hbefore, ?_⟩
    rw [show fs' = (store "a/../a" [] sinkOpen).2 from execute_generate hparse hgather]
    exact hafter
  · have hlock : FileSink.leftover.resolve .entry (FileSink.lockPath "./d") =
        .ok (.free ((Location.root.child "work").child "d.lock")) := by cbv
    have hpath : FileSink.leftover.resolve .entry (FileSink.tempPath "./d") =
        FileSink.leftover.resolve .entry (FileSink.tempPath "d") := by cbv
    have hunshared : FileSink.Unshared "./d" FileSink.leftover := by
      refine ⟨fun loc target h => ?_, fun loc entry h => .inr (FileSink.spare_leftover loc entry (hpath ▸ h))⟩
      cases hlock.symm.trans h
    exact ⟨_, by decide +kernel, gather_eq (by cbv) rfl (by decide +kernel) (by cbv), rfl, hunshared,
      writes_here, by cbv⟩

end Command

end ScenarioDocs
