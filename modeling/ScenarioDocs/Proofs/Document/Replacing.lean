import Mathlib.Data.List.Basic
import ScenarioDocs.Proofs.Document.Status
import ScenarioDocs.Proofs.FileSystem.Operations

/-!
# What a replacement leaves behind

Unless links stand in its way, a replacement that succeeds leaves a document
that reads as the text, and nothing in the way of the next one. One that fails
leaves the document's status as it was.
-/

namespace ScenarioDocs

open FileSystem

theorem Path.getLast?_join {base p : Text} (h : p ≠ []) : (Path.join base p).getLast? = p.getLast? := by
  unfold join
  split
  · rfl
  · split
    · exact List.getLast?_append_of_ne_nil base h
    · rw [List.append_cons, List.getLast?_append_of_ne_nil _ h]

theorem Path.endsInSlash_sibling (p : Text) {ending : Text} (hne : ending ≠ []) (h : ending.getLast? ≠ some '/') :
    endsInSlash (sibling p ending) = false := by
  have hlast : (sibling p ending).getLast? = ending.getLast? := by
    unfold sibling
    split
    · rw [getLast?_join (by simp [hne]), List.getLast?_append_of_ne_nil _ hne]
    · exact getLast?_join hne
  rw [endsInSlash, hlast]
  simpa using h

namespace FileSink

/-- No link stands at the temporary file; and if one stands at the document, the way to it does
not lead through it. -/
structure Plain (s : FileSink) (fs : FileSystem) : Prop where
  temp : ∀ loc target, fs.resolve .entry (tempPath s.path) ≠ .ok (.taken loc (.link target))
  document : ∀ loc target, fs.resolve .entry s.path = .ok (.taken loc (.link target)) →
    (fs.erase loc).resolve .entry s.path = .ok (.free loc)

structure Writing (s : FileSink) (fs mid : FileSystem) (temp : Location) (id : FileId) (bs : Bytes) : Prop where
  resolve : fs.resolve .entry (tempPath s.path) = .ok (fs.placeAt temp)
  before : fs.entry? temp = none ∨ fs.entry? temp = some (.file id)
  entries : ∀ loc, mid.entry? loc = if loc = temp then some (.file id) else fs.entry? loc
  bytes : mid.bytes id = bs
  otherBytes : ∀ id', id' ≠ id → mid.bytes id' = fs.bytes id'
  fresh : fs.entry? temp = none → id = fs.next
  current : mid.current = fs.current

/-- The document is the file that was written, and the temporary file is gone or is the document. -/
structure Published (s : FileSink) (text : Text) (fs fs' : FileSystem) (temp doc : Location) (id : FileId) :
    Prop where
  slash : endsInSlash s.path = false
  resolve : fs.resolve .entry s.path = .ok (fs.placeAt doc)
  before : fs.entry? doc ≠ some .directory
  spare : fs.entry? temp = none ∨ fs.entry? temp = some (.file id)
  document : fs'.entry? doc = some (.file id)
  left : fs'.entry? temp = none ∨ fs'.entry? temp = some (.file id)
  others : ∀ loc, loc ≠ doc → loc ≠ temp → fs'.entry? loc = fs.entry? loc
  bytes : fs'.bytes id = Utf8.encode text
  current : fs'.current = fs.current

variable {s : FileSink} {text : Text} {fs fs' mid : FileSystem} {temp doc : Location} {id : FileId}
  {e : SystemError} {scopes : List Scope} {bs : Bytes}

theorem endsInSlash_tempPath (path : Text) : endsInSlash (tempPath path) = false :=
  Path.endsInSlash_sibling path (by decide) (by decide)

/-! ## The temporary file -/

theorem Writing.append (h : s.Writing fs mid temp id bs) (more : Bytes) :
    s.Writing fs (mid.appendBytes id more) temp id (bs ++ more) where
  resolve := h.resolve
  before := h.before
  entries := h.entries
  bytes := by rw [appendBytes, bytes_setBytes, h.bytes]
  otherBytes id' hid := by rw [bytes_appendBytes_ne hid, h.otherBytes id' hid]
  fresh := h.fresh
  current := h.current

section
variable (htemp : ∀ loc target, fs.resolve .entry (tempPath s.path) ≠ .ok (.taken loc (.link target)))
include htemp

theorem resolve_create :
    fs.resolve .create (tempPath s.path) = fs.resolve .entry (tempPath s.path) :=
  resolve_eq_entry (endsInSlash_tempPath s.path) htemp

theorem writing_of_openTemp (h : s.openTemp fs = .ok (id, fs')) : ∃ temp, s.Writing fs fs' temp id [] := by
  obtain ⟨⟨id', fs1⟩, hopen, h⟩ := bind_eq_ok_iff.1 h
  obtain ⟨place, hr, hopen⟩ := bind_eq_ok_iff.1 hopen
  rw [resolve_create htemp] at hr
  cases h
  -- a file that is missing is made, one that is there is emptied
  cases place with
  | unnamed temp => cases hopen
  | free temp =>
    have hnone := entry?_of_resolve_free hr
    have hroot : temp ≠ .root := ne_root_of_entry? fs (by simp [hnone])
    cases hopen
    refine ⟨temp, ?_, .inl hnone, fun loc => entry?_put hroot, bytes_setBytes, fun id' hid => ?_, fun _ => rfl, rfl⟩
    · rw [placeAt_none hnone]
      exact hr
    · rw [bytes_setBytes_ne hid]
      exact bytes_setBytes_ne hid
  | taken temp entry =>
    have hsome := entry?_of_resolve hr
    cases entry with
    | directory => cases hopen
    | link target => exact absurd hr (htemp temp target)
    | file id' =>
      cases hopen
      refine ⟨temp, ?_, .inr hsome, fun loc => ?_, bytes_setBytes, fun id'' hid => bytes_setBytes_ne hid,
        fun hnone => ?_, rfl⟩
      · rw [placeAt_some hsome]
        exact hr
      · by_cases hloc : loc = temp
        · rw [if_pos hloc, hloc]
          exact hsome
        · rw [if_neg hloc]
          rfl
      · rw [hnone] at hsome
        cases hsome

theorem written_of_openTemp (h : s.openTemp fs = .ok (id, fs')) (text : Text) :
    ∃ temp, s.Writing fs (fs'.appendBytes id (Utf8.encode text)) temp id (Utf8.encode text) := by
  obtain ⟨temp, hw⟩ := writing_of_openTemp htemp h
  exact ⟨temp, hw.append (Utf8.encode text)⟩

/-- A temporary file that cannot be opened cannot be removed either. -/
theorem discard_of_openTemp (h : s.openTemp fs = .error e) : s.discard fs = fs := by
  unfold openTemp FileSystem.create openForWriting at h
  rw [resolve_create htemp] at h
  unfold discard remove
  cases hr : fs.resolve .entry (tempPath s.path) with
  | error e => rfl
  | ok place =>
    cases place with
    | unnamed temp => rfl
    | free temp => rfl
    | taken temp entry =>
      cases entry with
      | directory => rfl
      | link target => exact absurd hr (htemp temp target)
      | file id => simp [hr, bind, Except.bind, pure, Except.pure] at h

end

/-! ## Ways -/

section
variable (hw : s.Writing fs mid temp id bs)
include hw

theorem Writing.ways : fs.Ways mid := by
  apply Ways.of_entry?
  intro loc
  by_cases hloc : loc = temp
  · rw [hloc]
    exact .inr (hw.before.imp_right fun h => ⟨id, h⟩)
  · exact .inl (by rw [hw.entries, if_neg hloc])

theorem Writing.ways_back : mid.Ways fs := by
  apply Ways.of_entry?
  intro loc
  by_cases hloc : loc = temp
  · exact .inr (.inr ⟨id, by rw [hw.entries, if_pos hloc]⟩)
  · exact .inl (by rw [hw.entries, if_neg hloc])

theorem Writing.resolve_temp : mid.resolve .entry (tempPath s.path) = .ok (.taken temp (.file id)) := by
  rw [resolve_of_ways hw.ways hw.current hw.resolve, see_placeAt]
  exact congrArg Except.ok (placeAt_some (by rw [hw.entries, if_pos rfl]))

theorem Writing.discard_eq : s.discard mid = mid.erase temp := by
  unfold discard remove
  simp [hw.resolve_temp, endsInSlash_tempPath, bind, Except.bind, pure, Except.pure]

theorem Writing.temp_ne_root : temp ≠ .root := by
  apply ne_root_of_entry? mid
  rw [hw.entries, if_pos rfl]
  simp

/-- Without the temporary file nothing can be found that was not found before. -/
theorem Writing.read_erase (h : fs.read s.path = .error .notFound) :
    (mid.erase temp).read s.path = .error .notFound := by
  have hentry (loc : Location) : FileSystem.entry? (mid.erase temp) loc = fs.entry? loc ∨
      ∃ id, fs.entry? loc = some (.file id) := by
    rw [entry?_erase hw.temp_ne_root, hw.entries]
    by_cases hloc : loc = temp
    · rw [if_pos hloc, hloc]
      exact hw.before.imp (fun h => h.symm) fun h => ⟨id, h⟩
    · rw [if_neg hloc, if_neg hloc]
      exact .inl rfl
  rw [read_eq_notFound_iff] at h ⊢
  rcases h with h | ⟨loc, h⟩
  · exact .inl (resolve_absent hentry hw.current (.inl rfl) h)
  · exact .inr ⟨loc, resolve_absent hentry hw.current (.inr ⟨loc, rfl⟩) h⟩

/-! ## The document -/

theorem Writing.exists_publish {bs' : Bytes} (h : fs.read s.path = .ok bs') : ∃ fs', s.publish mid = .ok fs' := by
  obtain ⟨hslash, loc, entry, hne, hr⟩ := exists_entry_of_read h
  have hr' := resolve_of_ways hw.ways hw.current hr
  by_cases hloc : loc = temp
  · have hentry : mid.entry? loc = some (.file id) := by rw [hw.entries, if_pos hloc]
    rw [see, placeAt_some hentry] at hr'
    exact exists_move_file hw.resolve_temp hr' (by simp) hslash
  · have hentry : mid.entry? loc = some entry := by rw [hw.entries, if_neg hloc, entry?_of_resolve hr]
    rw [see, placeAt_some hentry] at hr'
    exact exists_move_file hw.resolve_temp hr' hne hslash

end

theorem Writing.published (hw : s.Writing fs mid temp id (Utf8.encode text)) (h : s.publish mid = .ok fs') :
    ∃ doc, s.Published text fs fs' temp doc id := by
  obtain ⟨doc, hslash, hdoc, hdir, hmoved⟩ := move_file_inv hw.resolve_temp h
  have hresolve := resolve_of_ways hw.ways_back hw.current.symm hdoc
  rw [see_placeAt] at hresolve
  have hbefore : fs.entry? doc ≠ some .directory := fun hd => hdir (hw.ways _ _ hd (by simp))
  have hroot : doc ≠ .root := ne_root_of_entry? mid hdir
  have hroot' := hw.temp_ne_root
  rcases hmoved with ⟨rfl, hfile⟩ | rfl
  · refine ⟨doc, hslash, hresolve, hbefore, hw.before, hfile, .inr ?_, fun loc _ hloc => ?_, hw.bytes, hw.current⟩
    · rw [hw.entries, if_pos rfl]
    · rw [hw.entries, if_neg hloc]
  · refine ⟨doc, hslash, hresolve, hbefore, hw.before, ?_, ?_, fun loc hloc hloc' => ?_, hw.bytes, hw.current⟩
    · rw [entry?_put hroot, if_pos rfl]
    · rw [entry?_put hroot, entry?_erase hroot', if_pos rfl]
      split
      · exact .inr rfl
      · exact .inl rfl
    · rw [entry?_put hroot, if_neg hloc, entry?_erase hroot', if_neg hloc', hw.entries, if_neg hloc']

section
variable (hpub : s.Published text fs fs' temp doc id)
include hpub

theorem Published.ways_back : fs'.Ways fs := by
  apply Ways.of_entry?
  intro loc
  by_cases hdoc : loc = doc
  · rw [hdoc]
    exact .inr (.inr ⟨id, hpub.document⟩)
  · by_cases htemp : loc = temp
    · rw [htemp]
      exact .inr (hpub.left.imp_right fun h => ⟨id, h⟩)
    · exact .inl (hpub.others loc hdoc htemp).symm

theorem Published.resolve_erase (hp : s.Plain fs) : (fs.erase doc).resolve .entry s.path = .ok (.free doc) := by
  have hroot : doc ≠ .root := ne_root_of_entry? fs hpub.before
  have hfree (h : fs.entry? doc = none ∨ ∃ id, fs.entry? doc = some (.file id)) :
      (fs.erase doc).resolve .entry s.path = .ok (.free doc) := by
    have hways : fs.Ways (fs.erase doc) := by
      apply Ways.of_entry?
      intro loc
      by_cases hloc : loc = doc
      · exact .inr (hloc ▸ h)
      · exact .inl (by rw [entry?_erase hroot, if_neg hloc])
    rw [resolve_of_ways hways rfl hpub.resolve, see_placeAt]
    exact congrArg Except.ok (placeAt_none (by rw [entry?_erase hroot, if_pos rfl]))
  cases hentry : fs.entry? doc with
  | none => exact hfree (.inl hentry)
  | some entry =>
    cases entry with
    | directory => exact absurd hentry hpub.before
    | file id' => exact hfree (.inr ⟨id', hentry⟩)
    | link target => exact hp.document doc target (by rw [hpub.resolve, placeAt_some hentry])

theorem Published.ways : (fs.erase doc).Ways fs' := by
  have hroot : doc ≠ .root := ne_root_of_entry? fs hpub.before
  apply Ways.of_entry?
  intro loc
  rw [entry?_erase hroot]
  by_cases hdoc : loc = doc
  · exact .inr (.inl (if_pos hdoc))
  · rw [if_neg hdoc]
    by_cases htemp : loc = temp
    · rw [htemp]
      exact .inr (hpub.spare.imp_right fun h => ⟨id, h⟩)
    · exact .inl (hpub.others loc hdoc htemp)

theorem Published.resolve_document (hp : s.Plain fs) :
    fs'.resolve .entry s.path = .ok (.taken doc (.file id)) := by
  rw [resolve_of_ways hpub.ways hpub.current (hpub.resolve_erase hp)]
  exact congrArg Except.ok (placeAt_some hpub.document)

theorem Published.read (hp : s.Plain fs) : fs'.read s.path = .ok (Utf8.encode text) := by
  have hentry := hpub.resolve_document hp
  have hfollow : fs'.resolve .follow s.path = .ok (.taken doc (.file id)) := by
    rw [resolve_eq_entry hpub.slash (by simp [hentry]), hentry]
  simp [FileSystem.read, find, hfollow, hpub.bytes, bind, Except.bind, pure, Except.pure]

theorem Published.plain (hp : s.Plain fs) : s.Plain fs' where
  temp := by
    intro loc target h
    have hlink := hpub.ways_back loc _ (entry?_of_resolve h) (by simp)
    have hr := resolve_of_ways hpub.ways_back hpub.current.symm h
    exact hp.temp loc target (hr.trans (congrArg Except.ok (placeAt_some hlink)))
  document := by
    intro loc target h
    rw [hpub.resolve_document hp] at h
    cases h

end

/-! ## Whole replacements -/

theorem sink_ok (hp : s.Plain fs) (h : s.sink text fs = (.ok (), fs')) :
    fs'.read s.path = .ok (Utf8.encode text) ∧ s.Plain fs' := by
  unfold sink at h
  split at h
  · cases h
  · rename_i id fs1 hopen
    obtain ⟨temp, hw⟩ := written_of_openTemp hp.temp hopen text
    simp only at h
    split at h
    · rename_i fs2 hpublish
      cases h
      obtain ⟨doc, hpub⟩ := hw.published hpublish
      exact ⟨hpub.read hp, hpub.plain hp⟩
    · cases h

theorem sink_error {e : Error} {status : Status} (hp : s.Plain fs) (h : s.sink text fs = (.error e, fs'))
    (hstatus : Document.status fs s.path scopes = .ok status) :
    Document.status fs' s.path scopes = .ok status := by
  unfold sink at h
  split at h
  · rename_i hopen
    rw [discard_of_openTemp hp.temp hopen] at h
    cases h
    exact hstatus
  · rename_i id fs1 hopen
    obtain ⟨temp, hw⟩ := written_of_openTemp hp.temp hopen text
    simp only at h
    split at h
    · cases h
    · rename_i hpublish
      rw [hw.discard_eq] at h
      cases h
      by_cases hmissing : status = .missing
      · subst hmissing
        rw [Document.status_eq_missing_iff] at hstatus ⊢
        exact hw.read_erase hstatus
      · obtain ⟨bs, hread⟩ := Document.exists_read_of_status hstatus hmissing
        obtain ⟨fs2, hpublished⟩ := hw.exists_publish hread
        rw [hpublished] at hpublish
        cases hpublish

end FileSink

end ScenarioDocs
