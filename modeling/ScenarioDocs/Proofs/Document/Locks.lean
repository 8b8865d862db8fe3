import ScenarioDocs.Document.Replacement
import ScenarioDocs.Proofs.FileSystem.Later

/-!
# Locks

Opening a sink creates directories and a lock file, and nothing that is there
is changed. However a document's path is spelled, its sinks meet at one lock
file.
-/

namespace ScenarioDocs

open FileSystem

variable {fs fs' fs1 fs2 : FileSystem} {path text ending : Text} {place : DocumentPlace} {s : FileSink} {id : FileId}
  {e : Error} {d loc : Location}

/-! ## Neighbours -/

theorem Path.noSlash_split (p : Text) : '/' ∉ (split p).2 := by
  unfold split
  split
  · rename_i name h
    exact (spells_of_fileName? h).noSlash
  · exact List.not_mem_nil

theorem Path.spells_sibling (p : Text) (hslash : '/' ∉ ending) (hlength : 2 < ending.length) :
    Spells (sibling p ending) (split p).1 ((split p).2 ++ ending) := by
  have hne (x : Text) (hx : x.length ≤ 2) : (split p).2 ++ ending ≠ x := by
    intro h
    have := congrArg List.length h
    rw [List.length_append] at this
    omega
  rw [sibling_eq]
  apply spells_join
  · rw [List.mem_append, not_or]
    exact ⟨noSlash_split p, hslash⟩
  · exact hne [] (by decide)
  · exact hne ['.'] (by decide)
  · exact hne ['.', '.'] (by decide)

/-- A path beside the document is walked from the document's directory, with the links that are left there. -/
theorem FileSystem.resolve_sibling_inv {mode : LastName} {p : Place} (hslash : '/' ∉ ending)
    (hlength : 2 < ending.length) (h : fs.resolve mode (Path.sibling path ending) = .ok p) :
    ∃ d, fs.directory? (Path.split path).1 = some d ∧
      ∃ k ≤ linkLimit, fs.walk mode k d [(Path.split path).2 ++ ending] false = .ok p := by
  have hspells := Path.spells_sibling path hslash hlength
  obtain ⟨d, hd⟩ := directory?_of_spells hspells h
  obtain ⟨k, hleads⟩ := exists_leads hd
  obtain ⟨hnul, -, hshort, -⟩ := resolve_eq_walk h
  have hnul' : '\x00' ∉ (Path.split path).2 ++ ending := by
    rw [Path.sibling_eq, mem_join_iff (by decide) hspells.noSlash, not_or] at hnul
    exact hnul.2
  have hwalk := hleads.resolve_join mode hspells.nonempty hspells.noSlash hnul'
  rw [← Path.sibling_eq, hshort, if_neg (by decide), h] at hwalk
  exact ⟨d, hd, k, hleads.links, hwalk.symm⟩

/-! ## Places -/

namespace FileSystem

theorem place?_eq_some_iff : fs.place? path = some place ↔
    fs.directory? (Path.split path).1 = some place.dir ∧ (Path.split path).2 = place.name := by
  unfold place?
  rw [Option.map_eq_some_iff]
  constructor
  · rintro ⟨d, hd, rfl⟩
    exact ⟨hd, rfl⟩
  · rintro ⟨hd, hname⟩
    exact ⟨place.dir, hd, by rw [hname]⟩

theorem lockAt?_eq_some_iff :
    fs.lockAt? place = some id ↔ ∃ loc, fs.fileIn? place.dir (place.name ++ ".lock") = some (loc, id) := by
  simp [lockAt?]

theorem lockAt?_of_grows (h : fs.Grows fs') (hlock : fs.lockAt? place = some id) : fs'.lockAt? place = some id := by
  rw [lockAt?_eq_some_iff] at hlock ⊢
  obtain ⟨loc, hfile⟩ := hlock
  exact ⟨loc, fileIn?_of_grows h hfile⟩

/-- The lock file that is opened for a path is the one at the place that the path spells. -/
theorem lockAt?_of_openForWriting (h : fs.openForWriting (FileSink.lockPath path) = .ok (id, fs')) :
    ∃ place, fs'.place? path = some place ∧ fs'.lockAt? place = some id := by
  have hgrows := openForWriting_grows h
  obtain ⟨loc, hopen⟩ := openForWriting_cases h
  obtain ⟨p, hr, hp, hend⟩ : ∃ p, fs.resolve .create (FileSink.lockPath path) = .ok p ∧
      (p = .free loc ∨ ∃ id, p = .taken loc (.file id)) ∧ fs'.entry? loc = some (.file id) := by
    rcases hopen with ⟨hr, rfl⟩ | ⟨hr, rfl, rfl, hroot⟩
    · exact ⟨_, hr, .inr ⟨id, rfl⟩, entry?_of_resolve hr⟩
    · exact ⟨_, hr, .inl rfl, by rw [entry?_newFile hroot, if_pos rfl]⟩
  obtain ⟨d, hd, k, hk, hwalk⟩ := resolve_sibling_inv (by decide) (by decide) hr
  have hfollow := walk_of_create hgrows.ways hwalk hp hend (by simp)
  refine ⟨⟨d, (Path.split path).2⟩, place?_eq_some_iff.2 ⟨?_, rfl⟩, lockAt?_eq_some_iff.2 ⟨loc, ?_⟩⟩
  · exact directory?_of_ways hgrows.ways (openForWriting_current h) hd
  · rw [fileIn?_eq_some_iff]
    rcases walk_fewer hk hfollow with hlinks | hwalk'
    · cases hlinks
    · exact hwalk'

end FileSystem

namespace FileSink

/-! ## Opening -/

theorem prepare_adds (path : Text) (fs : FileSystem) : fs.AddsDirectories (prepare path fs).2 :=
  makeDirectories_adds fs _

theorem prepare_eq (h : fs.directory? ((Path.parent? path).getD []) = some d) : prepare path fs = (.ok (), fs) :=
  makeDirectories_eq h

theorem create_eq (hprepare : prepare path fs = (.ok (), fs1))
    (hopen : fs1.openForWriting (lockPath path) = .ok (id, fs2)) :
    create path fs = if fs2.isLocked id then (.error (.locked path), fs2) else (.ok ⟨path, id⟩, fs2.lock id) := by
  rw [create, hprepare]
  simp only [hopen]

theorem create_cases (path : Text) (fs : FileSystem) :
    (∃ fs1 id fs2, prepare path fs = (.ok (), fs1) ∧ fs1.openForWriting (lockPath path) = .ok (id, fs2)) ∨
      ∃ e, create path fs = (.error (.system e), (prepare path fs).2) := by
  rcases hprepare : prepare path fs with ⟨r, fs1⟩
  cases r with
  | error e => exact .inr ⟨e, by rw [create, hprepare]⟩
  | ok u =>
    cases hopen : fs1.openForWriting (lockPath path) with
    | error e => exact .inr ⟨e, by rw [create, hprepare]; simp only [hopen]⟩
    | ok opened => exact .inl ⟨fs1, opened.1, opened.2, rfl, hopen⟩

theorem create_ok_inv (h : create path fs = (.ok s, fs')) : ∃ fs1 id fs2, prepare path fs = (.ok (), fs1) ∧
    fs1.openForWriting (lockPath path) = .ok (id, fs2) ∧ id ∉ fs2.locked ∧ s = ⟨path, id⟩ ∧ fs' = fs2.lock id := by
  rcases create_cases path fs with ⟨fs1, id, fs2, hprepare, hopen⟩ | ⟨e, he⟩
  · rw [create_eq hprepare hopen] at h
    split at h
    · cases h
    · rename_i hlocked
      cases h
      exact ⟨fs1, id, fs2, hprepare, hopen, by simpa [isLocked] using hlocked, rfl, rfl⟩
  · rw [he] at h
    cases h

theorem opened_later (hprepare : prepare path fs = (.ok (), fs1))
    (hopen : fs1.openForWriting (lockPath path) = .ok (id, fs2)) : fs.Later fs2 := by
  have hadds := prepare_adds path fs
  rw [hprepare] at hadds
  exact hadds.later.trans (openForWriting_later hopen)

theorem known_create {path : Text} (hknown : fs.Known) : (create path fs).2.Known := by
  rcases create_cases path fs with ⟨fs1, id, fs2, hprepare, hopen⟩ | ⟨e, he⟩
  · have hknown2 := (opened_later hprepare hopen).known hknown
    rw [create_eq hprepare hopen]
    split
    · exact hknown2
    · exact hknown2
  · rw [he]
    exact (prepare_adds path fs).later.known hknown

theorem create_error_inv (hlocked : ∀ id ∈ fs.locked, id < fs.next) (h : create path fs = (.error e, fs')) :
    fs' = (prepare path fs).2 := by
  rcases create_cases path fs with ⟨fs1, id, fs2, hprepare, hopen⟩ | ⟨e, he⟩
  · rw [create_eq hprepare hopen] at h
    split at h
    · rename_i hlock
      cases h
      rw [hprepare]
      have hadds := prepare_adds path fs
      rw [hprepare] at hadds
      obtain ⟨loc, ⟨-, rfl⟩ | ⟨-, rfl, rfl, -⟩⟩ := openForWriting_cases hopen
      · rfl
      · -- a new file is locked by nobody
        have hmem : fs1.next ∈ (fs1.newFile loc).2.locked := by simpa [isLocked] using hlock
        change fs1.next ∈ fs1.locked at hmem
        rw [hadds.locked] at hmem
        exact absurd (hlocked _ hmem) (by rw [hadds.next]; exact Nat.lt_irrefl _)
    · cases h
  · rw [he] at h
    cases h
    rfl

/-! ## Replacing -/

theorem discard_later (s : FileSink) (fs : FileSystem) : fs.Later (s.discard fs) := by
  unfold discard
  split
  · rename_i h
    exact remove_later h
  · exact .refl fs

theorem runs_flushed (hopen : s.openTemp fs = .ok (id, fs')) (text : Text) :
    s.Runs text fs ⟨fs'.appendBytes id (Utf8.encode text), .flushed⟩ := by
  have hwrote : s.Step text ⟨fs', .writing id (Utf8.encode text ++ [])⟩
      ⟨fs'.appendBytes id (Utf8.encode text), .writing id []⟩ := .wrote _ []
  rw [List.append_nil] at hwrote
  exact ((Relation.ReflTransGen.single (.opened hopen)).tail hwrote).tail .flushed

/-- The replacement that meets no faults but those of the files it finds is one of the runs. -/
theorem runs_sink (s : FileSink) (text : Text) (fs : FileSystem) :
    s.Runs text fs ⟨(s.sink text fs).2, .done (s.sink text fs).1⟩ := by
  cases hopen : s.openTemp fs with
  | error e =>
    have hsink : s.sink text fs = (.error (.write s.path e), s.discard fs) := by rw [sink, hopen]
    rw [hsink]
    exact .tail (.single (.notOpened e)) .discarded
  | ok r =>
    obtain ⟨id, fs1⟩ := r
    have hflushed := runs_flushed hopen text
    cases hpublish : s.publish (fs1.appendBytes id (Utf8.encode text)) with
    | error e =>
      have hsink : s.sink text fs =
          (.error (.write s.path e), s.discard (fs1.appendBytes id (Utf8.encode text))) := by
        simp [sink, hopen, hpublish]
      rw [hsink]
      exact (hflushed.tail (.notMoved e)).tail .discarded
    | ok fs2 =>
      have hsink : s.sink text fs = (.ok (), fs2) := by simp [sink, hopen, hpublish]
      rw [hsink]
      exact hflushed.tail (.moved hpublish)

theorem Step.later {text : Text} {a b : Attempt} (h : s.Step text a b) : a.fs.Later b.fs := by
  cases h with
  | opened hopen => exact create_later hopen
  | wrote some rest => exact setBytes_later _ _ _
  | moved hpublish => exact move_later hpublish
  | discarded => exact discard_later s _
  | notOpened | flushed | notWritten | notMoved | notDiscarded => exact .refl _

theorem Runs.later {text : Text} {a : Attempt} (h : s.Runs text fs a) : fs.Later a.fs := by
  induction h with
  | refl => exact .refl fs
  | tail _ hstep ih => exact ih.trans hstep.later

theorem sink_later (s : FileSink) (text : Text) (fs : FileSystem) : fs.Later (s.sink text fs).2 :=
  (runs_sink s text fs).later

/-- New directories do not keep a sink from replacing, unless they are in the place of its files. -/
theorem sink_of_adds (h : fs.AddsDirectories fs') (hok : (s.sink text fs).1 = .ok ())
    (htemp : fs'.isDirectory (tempPath s.path) = false) (hdocument : fs'.isDirectory s.path = false) :
    (s.sink text fs').1 = .ok () := by
  unfold sink at hok ⊢
  split at hok
  · cases hok
  · rename_i id fs1 hopen
    obtain ⟨⟨id', fs2⟩, hforWriting, hempty⟩ := bind_eq_ok_iff.1 hopen
    cases hempty
    obtain ⟨fs2', hforWriting', hadds⟩ := openForWriting_of_adds h hforWriting htemp
    have hopen' : s.openTemp fs' = .ok (id, fs2'.setBytes id []) := by
      rw [openTemp, FileSystem.create, hforWriting']
      rfl
    have hwritten := (hadds.setBytes id []).appendBytes id (Utf8.encode text)
    have hdocument' : ((fs2'.setBytes id []).appendBytes id (Utf8.encode text)).isDirectory s.path = false := by
      rw [← Bool.not_eq_true, isDirectory_iff] at hdocument ⊢
      rintro ⟨d, hd⟩
      have hways : ((fs2'.setBytes id []).appendBytes id (Utf8.encode text)).Ways fs' := fun loc entry =>
        openForWriting_ways hforWriting' loc entry
      exact hdocument ⟨d, find_directory_of_ways hways (openForWriting_current hforWriting').symm hd⟩
    simp only at hok
    split at hok
    · rename_i fs3 hpublish
      obtain ⟨fs3', hpublish'⟩ := move_of_adds hwritten ⟨fs3, hpublish⟩ hdocument'
      rw [hopen']
      simp only
      rw [show s.publish _ = .ok fs3' from hpublish']
    · cases hok

end FileSink

end ScenarioDocs
