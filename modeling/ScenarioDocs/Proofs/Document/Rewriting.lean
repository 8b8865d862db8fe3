import ScenarioDocs.Proofs.Document.Attempts
import ScenarioDocs.Proofs.Document.Snapshots
import ScenarioDocs.Proofs.FileSystem.Children

/-!
# Storing again and again

However often a sink stores a document, all that comes of it is one new file,
which holds the text stored last; and where a document could be stored once, it
can be stored again.
-/

namespace ScenarioDocs

open FileSystem

namespace FileSystem

/-- A new file with these bytes is at the location, and everything else is as before. -/
structure Rewrites (fs fs' : FileSystem) (loc : Location) (bs : Bytes) : Prop where
  file : ∃ id, fs.next ≤ id ∧ fs'.entry? loc = some (.file id) ∧ fs'.bytes id = bs
  others : ∀ l, l ≠ loc → fs'.entry? l = fs.entry? l
  bytes : ∀ id < fs.next, fs'.bytes id = fs.bytes id
  next : fs.next ≤ fs'.next
  locked : fs'.locked = fs.locked
  current : fs'.current = fs.current

theorem Rewrites.trans {fs fs' fs'' : FileSystem} {loc : Location} {bs bs' : Bytes} (h : fs.Rewrites fs' loc bs)
    (h' : fs'.Rewrites fs'' loc bs') : fs.Rewrites fs'' loc bs' where
  file := by
    obtain ⟨id, hnext, hid⟩ := h'.file
    exact ⟨id, Nat.le_trans h.next hnext, hid⟩
  others l hl := (h'.others l hl).trans (h.others l hl)
  bytes id hid := (h'.bytes id (Nat.lt_of_lt_of_le hid h.next)).trans (h.bytes id hid)
  next := Nat.le_trans h.next h'.next
  locked := h'.locked.trans h.locked
  current := h'.current.trans h.current

/-- What is put in the place of a file or of nothing bars no way. -/
theorem Rewrites.ways {fs fs' : FileSystem} {loc : Location} {bs : Bytes} (h : fs.Rewrites fs' loc bs)
    (hbefore : fs.entry? loc = none ∨ ∃ id, fs.entry? loc = some (.file id)) : fs.Ways fs' := by
  apply Ways.of_entry?
  intro l
  by_cases hl : l = loc
  · rw [hl]
    exact .inr hbefore
  · exact .inl (h.others l hl)

end FileSystem

namespace FileSink

variable {s : FileSink} {fs fs' mid : FileSystem} {text : Text} {texts : List Text} {loc doc temp : Location}
  {id : FileId}

structure Ready (s : FileSink) (fs : FileSystem) : Prop where
  known : fs.Known
  distinct : fs.Distinct
  cleared : s.Cleared fs
  unlinked : ∀ loc target, fs.resolve .entry s.path ≠ .ok (.taken loc (.link target))

theorem Ready.plain (h : s.Ready fs) : s.Plain fs where
  temp loc target := h.cleared loc (.link target)
  document loc target hlink := absurd hlink (h.unlinked loc target)

theorem Ready.spare (h : s.Ready fs) : s.Spare fs := fun loc entry htaken => absurd htaken (h.cleared loc entry)

structure Steady (s : FileSink) (fs : FileSystem) : Prop extends s.Ready fs where
  temp : ∃ temp, fs.resolve .entry (tempPath s.path) = .ok (.free temp)
  document : ∃ bs, fs.read s.path = .ok bs

theorem Ready.withLocks (h : s.Ready fs) (locked : List FileId) : s.Ready { fs with locked := locked } := by
  refine ⟨h.known, h.distinct, fun loc entry => ?_, fun loc target => ?_⟩
  · rw [resolve_withLocks]
    exact h.cleared loc entry
  · rw [resolve_withLocks]
    exact h.unlinked loc target

theorem Steady.withLocks (h : s.Steady fs) (locked : List FileId) : s.Steady { fs with locked := locked } := by
  refine ⟨h.toReady.withLocks locked, ?_, ?_⟩
  · rw [resolve_withLocks]
    exact h.temp
  · rw [read_withLocks]
    exact h.document

theorem distinct_openTemp (h : fs.Distinct) (hopen : s.openTemp fs = .ok (id, fs')) : fs'.Distinct := by
  obtain ⟨⟨id', fs1⟩, hforWriting, hempty⟩ := bind_eq_ok_iff.1 hopen
  cases hempty
  exact (h.openForWriting hforWriting : fs1.Distinct)

/-! ## One replacement -/

section
variable (h : s.Ready fs)
include h

theorem Ready.free_of_writing {bs : Bytes} (hw : s.Writing fs mid temp id bs) :
    fs.entry? temp = none := by
  obtain hnone | hfile := hw.before
  · exact hnone
  · exact absurd (hw.resolve.trans (congrArg _ (placeAt_some hfile))) (h.cleared temp _)

theorem Ready.ways (hpub : s.Published text fs fs' temp doc id) : fs.Ways fs' := by
  apply Ways.of_entry?
  intro l
  by_cases hdoc : l = doc
  · rw [hdoc]
    right
    cases hentry : fs.entry? doc with
    | none => exact .inl rfl
    | some entry =>
      cases entry with
      | directory => exact absurd hentry hpub.before
      | file id => exact .inr ⟨id, rfl⟩
      | link target => exact absurd (hpub.resolve.trans (congrArg _ (placeAt_some hentry))) (h.unlinked doc target)
  · by_cases htemp : l = temp
    · rw [htemp]
      exact .inr (hpub.spare.imp_right fun h => ⟨id, h⟩)
    · exact .inl (hpub.others l hdoc htemp)

section
variable (hw : s.Writing fs mid temp id (Utf8.encode text)) (hpublish : s.publish mid = .ok fs')
  (hpub : s.Published text fs fs' temp doc id)
include hw hpublish hpub

theorem Ready.resolve_temp : fs'.resolve .entry (tempPath s.path) = .ok (.free temp) := by
  have htemp : fs'.resolve .entry (tempPath s.path) = .ok (fs'.placeAt temp) := by
    rw [resolve_of_ways (h.ways hpub) hpub.current hw.resolve, see_placeAt]
  cases hentry : fs'.entry? temp with
  | none => rw [htemp, placeAt_none hentry]
  | some entry =>
    have hcleared : s.Cleared fs' := (hw.replaced h.known h.spare hpublish).2
    exact absurd (htemp.trans (congrArg _ (placeAt_some hentry))) (hcleared temp entry)

theorem Ready.rewrites (hlater : fs.Later fs') : fs.Rewrites fs' doc (Utf8.encode text) := by
  have hnone := h.free_of_writing hw
  have hnext := hw.fresh hnone
  have hbytes (id' : FileId) : fs'.bytes id' = mid.bytes id' := by
    obtain ⟨doc', -, -, hmoved⟩ := hw.publish_eq h.known h.spare hpublish
    rw [hmoved]
    rfl
  refine ⟨⟨id, Nat.le_of_eq hnext.symm, hpub.document, hpub.bytes⟩, fun l hl => ?_, fun id' hid => ?_, hlater.next,
    hlater.locked, hpub.current⟩
  · by_cases hl' : l = temp
    · rw [hl', entry?_of_resolve_free (h.resolve_temp hw hpublish hpub), hnone]
    · exact hpub.others l hl hl'
  · rw [hbytes, hw.otherBytes id' (by rw [hnext]; exact Nat.ne_of_lt hid)]

theorem Ready.steady (hd : mid.Distinct) (hlater : fs.Later fs') : s.Steady fs' where
  known := hlater.known h.known
  distinct := hd.move hpublish
  cleared := (hw.replaced h.known h.spare hpublish).2
  unlinked loc target hlink := by cases (hpub.resolve_document h.plain).symm.trans hlink
  temp := ⟨temp, h.resolve_temp hw hpublish hpub⟩
  document := ⟨_, hpub.read h.plain⟩

end

/-- A replacement puts one new file at the document, and leaves the sink where it can go on. -/
theorem Ready.sink (hsink : s.sink text fs = (.ok (), fs')) : ∃ doc,
    fs.resolve .entry s.path = .ok (fs.placeAt doc) ∧ fs'.resolve .entry s.path = .ok (fs'.placeAt doc) ∧
      fs.Rewrites fs' doc (Utf8.encode text) ∧ s.Steady fs' := by
  have hlater := sink_later s text fs
  rw [hsink] at hlater
  unfold FileSink.sink at hsink
  split at hsink
  · cases hsink
  · rename_i id fs1 hopen
    simp only at hsink
    split at hsink
    · rename_i fs2 hpublish
      cases hsink
      obtain ⟨temp, hopened⟩ := writing_of_openTemp h.plain.temp hopen
      have hw : s.Writing fs (fs1.appendBytes id (Utf8.encode text)) temp id (Utf8.encode text) := hopened.append _
      obtain ⟨doc, hpub⟩ := hw.published hpublish
      have hdocument := hpub.resolve_document h.plain
      have hdistinct : fs1.Distinct := distinct_openTemp h.distinct hopen
      refine ⟨doc, hpub.resolve, ?_, h.rewrites hw hpublish hpub hlater, h.steady hw hpublish hpub hdistinct hlater⟩
      rw [hdocument, placeAt_some hpub.document]
    · cases hsink

end

theorem Steady.sink (h : s.Steady fs) (text : Text) : ∃ fs', s.sink text fs = (.ok (), fs') ∧ s.Steady fs' ∧
    fs'.read s.path = .ok (Utf8.encode text) := by
  obtain ⟨temp, htemp⟩ := h.temp
  obtain ⟨bs, hread⟩ := h.document
  have hcreate : fs.resolve .create (tempPath s.path) = .ok (.free temp) := by
    rw [resolve_create h.plain.temp, htemp]
  have hopen : s.openTemp fs = .ok (fs.next, (fs.newFile temp).2.setBytes fs.next []) := by
    rw [openTemp, FileSystem.create, openForWriting, hcreate]
    rfl
  obtain ⟨temp', hw⟩ := written_of_openTemp h.plain.temp hopen text
  obtain ⟨fs', hpublish⟩ := hw.exists_publish hread
  have hsink : s.sink text fs = (.ok (), fs') := by
    rw [FileSink.sink, hopen]
    simp only
    rw [hpublish]
  obtain ⟨-, -, -, -, hsteady⟩ := h.toReady.sink hsink
  exact ⟨fs', hsink, hsteady, (sink_ok h.plain hsink).1⟩

/-! ## Many replacements -/

/-- Of all that was stored only the last text is left. -/
theorem Ready.storeAll (h : s.Ready fs) (hstore : s.sink.storeAll texts fs = (.ok (), fs'))
    (hlast : texts.getLast? = some text) : ∃ doc, fs.resolve .entry s.path = .ok (fs.placeAt doc) ∧
      fs.Rewrites fs' doc (Utf8.encode text) ∧ s.Steady fs' ∧ fs'.read s.path = .ok (Utf8.encode text) := by
  induction texts generalizing fs with
  | nil => cases hlast
  | cons t texts ih =>
    rw [Sink.storeAll] at hstore
    rcases hsink : s.sink t fs with ⟨_ | _, fs1⟩
    · rw [hsink] at hstore
      cases hstore
    · rw [hsink] at hstore
      obtain ⟨doc, hdoc, hdoc1, hrewrites, hsteady⟩ := h.sink hsink
      cases texts with
      | nil =>
        cases hstore
        cases hlast
        exact ⟨doc, hdoc, hrewrites, hsteady, (sink_ok h.plain hsink).1⟩
      | cons t' texts =>
        rw [List.getLast?_cons_cons] at hlast
        obtain ⟨doc', hdoc', hrewrites', hsteady', hread⟩ := ih hsteady.toReady hstore hlast
        obtain rfl : doc = doc' := placeAt_inj (Except.ok.inj (hdoc1.symm.trans hdoc'))
        exact ⟨doc, hdoc, hrewrites.trans hrewrites', hsteady', hread⟩

theorem Steady.storeAll (h : s.Steady fs) (hlast : texts.getLast? = some text) :
    ∃ fs', s.sink.storeAll texts fs = (.ok (), fs') ∧ fs'.read s.path = .ok (Utf8.encode text) := by
  induction texts generalizing fs with
  | nil => cases hlast
  | cons t texts ih =>
    obtain ⟨fs1, hsink, hsteady, hread⟩ := h.sink t
    rw [Sink.storeAll, hsink]
    cases texts with
    | nil =>
      cases hlast
      exact ⟨fs1, rfl, hread⟩
    | cons t' texts =>
      rw [List.getLast?_cons_cons] at hlast
      exact ih hsteady hlast

end FileSink

end ScenarioDocs
