import Mathlib
import ScenarioDocs.Proofs.Document.Apart
import ScenarioDocs.Proofs.FileSystem.Tree

/-!
# All or nothing

Whatever fails during a replacement, the document is what it was or holds the
whole new text, and at the end there is no temporary file unless its removal
failed, too. Whoever looks in between sees the temporary file at most.
-/

namespace ScenarioDocs.FileSink

open FileSystem

variable {s : FileSink} {text : Text} {fs fs' mid written : FileSystem} {temp doc : Location} {id : FileId}
  {bs : Bytes} {a b : Attempt} {place : Place}

/-! ## What a replacement may find and leave -/

/-- Where the temporary file belongs is nothing, or a file that has no other name. -/
def Spare (s : FileSink) (fs : FileSystem) : Prop :=
  ∀ loc entry, fs.resolve .entry (tempPath s.path) = .ok (.taken loc entry) →
    ∃ id, entry = .file id ∧ ∀ loc', fs.entry? loc' = some (.file id) → loc' = loc

def Cleared (s : FileSink) (fs : FileSystem) : Prop :=
  ∀ loc entry, fs.resolve .entry (tempPath s.path) ≠ .ok (.taken loc entry)

structure Untouched (s : FileSink) (fs fs' : FileSystem) : Prop where
  document : ∀ place, fs.resolve .entry s.path = .ok place → fs'.resolve .entry s.path = .ok place
  others : ∀ loc, fs.resolve .entry (tempPath s.path) ≠ .ok (fs.placeAt loc) → fs'.held? loc = fs.held? loc

/-- A file with the text is at the place the document's path led to; everything but that and the
temporary file is what it was. -/
structure Replaced (s : FileSink) (text : Text) (fs fs' : FileSystem) (doc : Location) : Prop where
  place : fs.resolve .entry s.path = .ok (fs.placeAt doc)
  document : fs'.held? doc = some (.file (Utf8.encode text))
  others : ∀ loc, loc ≠ doc → fs.resolve .entry (tempPath s.path) ≠ .ok (fs.placeAt loc) → fs'.held? loc = fs.held? loc
  /-- The path still leads there, unless it led through a link that the file has replaced. -/
  read : s.Plain fs → fs'.read s.path = .ok (Utf8.encode text)

theorem Spare.no_link (h : s.Spare fs) (loc : Location) (target : Text) :
    fs.resolve .entry (tempPath s.path) ≠ .ok (.taken loc (.link target)) := by
  intro hlink
  obtain ⟨id, hid, -⟩ := h loc _ hlink
  cases hid

theorem sibling_ne_doc {ending : Text} (hslash : '/' ∉ ending) (hlength : 2 < ending.length) {loc : Location}
    (hsibling : fs.resolve .entry (Path.sibling s.path ending) = .ok (fs.placeAt loc))
    (hdoc : fs.resolve .entry s.path = .ok (fs.placeAt doc)) : loc ≠ doc := by
  obtain ⟨d, hd, hplace⟩ := sibling_of_resolve hslash hlength hsibling
  have hdir (dir : Location) (h : fs.directory? (Path.split s.path).1 = some dir) : dir = d := by
    rw [hd] at h
    exact (Option.some.inj h).symm
  let p : DocumentPlace := ⟨d, (Path.split s.path).2⟩
  have hnamed : p.name ≠ [] := by
    show (Path.split s.path).2 ≠ []
    unfold Path.split
    split
    · rename_i name hfile
      exact (Path.spells_of_fileName? hfile).nonempty
    · rename_i hfile
      obtain ⟨d', hd'⟩ := unnamed_of_resolve hfile hdoc
      unfold placeAt at hd'
      split at hd' <;> cases hd'
  rw [placeAt_inj hplace, show doc = p.document from document_of_resolve hdir rfl hnamed hdoc]
  intro hsame
  have hname := congrArg List.length (Location.child_inj.1 hsame).2
  rw [List.length_append] at hname
  change (Path.split s.path).2.length + ending.length = (Path.split s.path).2.length at hname
  omega

theorem temp_ne_doc (htemp : fs.resolve .entry (tempPath s.path) = .ok (fs.placeAt temp))
    (hdoc : fs.resolve .entry s.path = .ok (fs.placeAt doc)) : temp ≠ doc :=
  sibling_ne_doc (by decide) (by decide) htemp hdoc

/-! ## Without the document -/

theorem Untouched.refl (s : FileSink) (fs : FileSystem) : s.Untouched fs fs := ⟨fun _ h => h, fun _ _ => rfl⟩

section
variable (htemp : fs.resolve .entry (tempPath s.path) = .ok (fs.placeAt temp))
  (hid : ∀ loc, fs.entry? loc = some (.file id) → loc = temp)
  (hbefore : fs.entry? temp = none ∨ fs.entry? temp = some (.file id))
include htemp hid hbefore

theorem untouched_of_entries (hentries : ∀ loc, loc ≠ temp → fs'.entry? loc = fs.entry? loc)
    (hbytes : ∀ id', id' ≠ id → fs'.bytes id' = fs.bytes id') (hcurrent : fs'.current = fs.current) :
    s.Untouched fs fs' := by
  have hways : fs.Ways fs' := by
    apply Ways.of_entry?
    intro loc
    by_cases hloc : loc = temp
    · rw [hloc]
      exact .inr (hbefore.imp_right fun h => ⟨id, h⟩)
    · exact .inl (hentries loc hloc)
  have hsee (loc : Location) (hloc : fs.resolve .entry s.path = .ok (fs.placeAt loc)) :
      fs'.placeAt loc = fs.placeAt loc := by
    unfold placeAt
    rw [hentries loc (temp_ne_doc htemp hloc).symm]
  constructor
  · intro place hplace
    rw [resolve_of_ways hways hcurrent hplace]
    have hsame := see_of_resolve hplace
    cases place with
    | unnamed d => rfl
    | taken loc entry => exact congrArg Except.ok ((hsee loc (hplace.trans (congrArg _ hsame.symm))).trans hsame)
    | free loc => exact congrArg Except.ok ((hsee loc (hplace.trans (congrArg _ hsame.symm))).trans hsame)
  · intro loc hloc
    have hne : loc ≠ temp := by
      rintro rfl
      exact hloc htemp
    exact held?_of_entry hid hbytes hne (hentries loc hne)

end

theorem Writing.own (hw : s.Writing fs mid temp id bs) (hknown : fs.Known) (hspare : s.Spare fs) :
    ∀ loc, fs.entry? loc = some (.file id) → loc = temp := by
  intro loc hloc
  obtain hnone | hfile := hw.before
  · have hlt := hknown loc id hloc
    rw [hw.fresh hnone] at hlt
    exact absurd hlt (Nat.lt_irrefl _)
  · have hresolve := hw.resolve
    rw [placeAt_some hfile] at hresolve
    obtain ⟨id', hid, halone⟩ := hspare temp _ hresolve
    cases hid
    exact halone loc hloc

theorem Writing.discarded (hw : s.Writing fs mid temp id bs) (hknown : fs.Known) (hspare : s.Spare fs) :
    s.Untouched fs (s.discard mid) := by
  rw [hw.discard_eq]
  refine untouched_of_entries hw.resolve (hw.own hknown hspare) hw.before (fun loc hloc => ?_) hw.otherBytes hw.current
  rw [entry?_erase hw.temp_ne_root, if_neg hloc, hw.entries, if_neg hloc]

/-! ## Without the temporary file -/

theorem cleared_erase (hroot : temp ≠ .root) (h : fs.resolve .entry (tempPath s.path) = .ok (.taken temp (.file id))) :
    s.Cleared (fs.erase temp) := by
  have hways : fs.Ways (fs.erase temp) := by
    apply Ways.of_entry?
    intro loc
    rw [entry?_erase hroot]
    by_cases hloc : loc = temp
    · rw [hloc]
      exact .inr (.inr ⟨id, entry?_of_resolve h⟩)
    · exact .inl (if_neg hloc)
  intro loc entry hr
  rw [resolve_of_ways hways rfl h, see, placeAt_none (by rw [entry?_erase hroot, if_pos rfl])] at hr
  cases hr

theorem Writing.cleared (hw : s.Writing fs mid temp id bs) : s.Cleared (s.discard mid) := by
  rw [hw.discard_eq]
  exact cleared_erase hw.temp_ne_root hw.resolve_temp

/-- What is at the temporary file before the replacement counts as written. -/
theorem writing_of_taken (h : fs.resolve .entry (tempPath s.path) = .ok (.taken temp (.file id))) :
    s.Writing fs fs temp id (fs.bytes id) := by
  have hfile := entry?_of_resolve h
  refine ⟨?_, .inr hfile, fun loc => ?_, rfl, fun _ _ => rfl, fun hnone => ?_, rfl⟩
  · rw [placeAt_some hfile]
    exact h
  · by_cases hloc : loc = temp
    · rw [if_pos hloc, hloc, hfile]
    · rw [if_neg hloc]
  · rw [hnone] at hfile
    cases hfile

theorem discard_cases (hlink : ∀ loc target, fs.resolve .entry (tempPath s.path) ≠ .ok (.taken loc (.link target))) :
    s.discard fs = fs ∨ ∃ temp id, s.Writing fs fs temp id (fs.bytes id) := by
  unfold discard
  split
  · rename_i fs1 hremove
    obtain ⟨loc, entry, hr, hdir, -⟩ := remove_inv hremove
    cases entry with
    | directory => exact absurd rfl hdir
    | link target => exact absurd hr (hlink loc target)
    | file id => exact .inr ⟨loc, id, writing_of_taken hr⟩
  · exact .inl rfl

theorem Spare.writing_of_not_cleared (hspare : s.Spare fs) (h : ¬s.Cleared fs) :
    ∃ temp id, s.Writing fs fs temp id (fs.bytes id) := by
  simp only [Cleared, not_forall, not_not] at h
  obtain ⟨loc, entry, hr⟩ := h
  obtain ⟨id, rfl, -⟩ := hspare loc entry hr
  exact ⟨loc, id, writing_of_taken hr⟩

theorem Cleared.discard_eq (h : s.Cleared fs) : s.discard fs = fs := by
  unfold discard
  split
  · rename_i fs1 hremove
    obtain ⟨loc, entry, hr, -⟩ := remove_inv hremove
    exact absurd hr (h loc entry)
  · rfl

/-! ## With the document -/

/-- Moving the file that was written is no move of a file onto itself. -/
theorem Writing.publish_eq (hw : s.Writing fs written temp id bs) (hknown : fs.Known) (hspare : s.Spare fs)
    (h : s.publish written = .ok fs') : ∃ doc, fs.resolve .entry s.path = .ok (fs.placeAt doc) ∧
      written.entry? doc ≠ some .directory ∧ fs' = (written.erase temp).put doc (.file id) := by
  obtain ⟨doc, -, hdoc, hdir, hmoved⟩ := move_file_inv hw.resolve_temp h
  have hresolve := resolve_of_ways hw.ways_back hw.current.symm hdoc
  rw [see_placeAt] at hresolve
  have hne := temp_ne_doc hw.resolve hresolve
  obtain ⟨-, hfile⟩ | hmoved := hmoved
  · rw [hw.entries, if_neg hne.symm] at hfile
    exact absurd (hw.own hknown hspare doc hfile).symm hne
  · exact ⟨doc, hresolve, hdir, hmoved⟩

theorem Writing.replaced (hw : s.Writing fs written temp id (Utf8.encode text)) (hknown : fs.Known)
    (hspare : s.Spare fs) (h : s.publish written = .ok fs') : (∃ doc, s.Replaced text fs fs' doc) ∧ s.Cleared fs' := by
  obtain ⟨doc', hpub⟩ := hw.published h
  obtain ⟨doc, hdoc, hdir, rfl⟩ := hw.publish_eq hknown hspare h
  obtain rfl : doc = doc' := placeAt_inj (Except.ok.inj (hdoc.symm.trans hpub.resolve))
  have hne := temp_ne_doc hw.resolve hdoc
  have hroot : doc ≠ .root := ne_root_of_entry? written hdir
  have hentry (loc : Location) : FileSystem.entry? ((written.erase temp).put doc (.file id)) loc =
      if loc = doc then some (.file id) else if loc = temp then none else fs.entry? loc := by
    rw [entry?_put hroot, entry?_erase hw.temp_ne_root, hw.entries]
    by_cases hloc : loc = temp
    · rw [if_pos hloc, if_pos hloc]
    · rw [if_neg hloc, if_neg hloc, if_neg hloc]
  constructor
  · refine ⟨doc, hdoc, ?_, fun loc hloc htemp => ?_, hpub.read⟩
    · rw [held?, hentry, if_pos rfl]
      exact congrArg (fun bs => some (Held.file bs)) hw.bytes
    · have hloc' : loc ≠ temp := by
        rintro rfl
        exact htemp hw.resolve
      refine held?_of_entry (hw.own hknown hspare) hw.otherBytes hloc' ?_
      rw [hentry, if_neg hloc, if_neg hloc']
  · intro loc entry hr
    have hback := resolve_of_ways hpub.ways_back hpub.current.symm hr
    obtain rfl : temp = loc := placeAt_inj (Except.ok.inj (hw.resolve.symm.trans hback))
    have hsome := entry?_of_resolve hr
    rw [hentry, if_neg hne, if_pos rfl] at hsome
    cases hsome

/-! ## Steps and runs -/

def Begun (s : FileSink) (fs mid : FileSystem) : Prop := mid = fs ∨ ∃ temp id bs, s.Writing fs mid temp id bs

def Sound (s : FileSink) (text : Text) (fs : FileSystem) (a : Attempt) : Prop :=
  match a.progress with
  | .started => a.fs = fs
  | .writing id rest => ∃ temp bs, s.Writing fs a.fs temp id bs ∧ bs ++ rest = Utf8.encode text
  | .flushed => ∃ temp id, s.Writing fs a.fs temp id (Utf8.encode text)
  | .failed _ => s.Begun fs a.fs
  | .done (.ok ()) => ∃ written temp id, s.Writing fs written temp id (Utf8.encode text) ∧ s.publish written = .ok a.fs
  | .done (.error e) => ∃ cause mid, e = .write s.path cause ∧ s.Begun fs mid ∧ a.fs = s.discard mid
  | .left e => ∃ cause, e = .write s.path cause ∧ s.Begun fs a.fs

section
variable (hlink : ∀ loc target, fs.resolve .entry (tempPath s.path) ≠ .ok (.taken loc (.link target)))
include hlink

theorem Sound.step (ha : s.Sound text fs a) (hstep : s.Step text a b) : s.Sound text fs b := by
  cases hstep with
  | opened h =>
    cases (ha : _ = fs)
    obtain ⟨temp, hw⟩ := writing_of_openTemp hlink h
    exact ⟨temp, [], hw, rfl⟩
  | notOpened cause => exact .inl ha
  | wrote some rest =>
    obtain ⟨temp, bs, hw, htext⟩ := ha
    exact ⟨temp, bs ++ some, hw.append some, by rw [List.append_assoc, htext]⟩
  | flushed =>
    obtain ⟨temp, bs, hw, htext⟩ := ha
    rw [List.append_nil] at htext
    exact ⟨temp, _, htext ▸ hw⟩
  | notWritten cause =>
    obtain ⟨temp, bs, hw, -⟩ := ha
    exact .inr ⟨temp, _, bs, hw⟩
  | moved h =>
    obtain ⟨temp, id, hw⟩ := ha
    exact ⟨_, temp, id, hw, h⟩
  | notMoved cause =>
    obtain ⟨temp, id, hw⟩ := ha
    exact .inr ⟨temp, id, _, hw⟩
  | discarded => exact ⟨_, _, rfl, ha, rfl⟩
  | notDiscarded => exact ⟨_, rfl, ha⟩

theorem Runs.sound (h : s.Runs text fs a) : s.Sound text fs a := by
  induction h with
  | refl => exact rfl
  | tail _ hstep ih => exact ih.step hlink hstep

end

theorem Begun.discarded (h : s.Begun fs mid) (hknown : fs.Known) (hspare : s.Spare fs) :
    s.Untouched fs (s.discard mid) ∧ s.Cleared (s.discard mid) := by
  have hwritten {temp : Location} {id : FileId} {bs : Bytes} (hw : s.Writing fs mid temp id bs) :=
    And.intro (hw.discarded hknown hspare) hw.cleared
  obtain rfl | ⟨temp, id, bs, hw⟩ := h
  · by_cases hcleared : s.Cleared mid
    · rw [hcleared.discard_eq]
      exact ⟨.refl s mid, hcleared⟩
    · -- the temporary file of an earlier run is removed, too
      obtain ⟨temp, id, hw⟩ := hspare.writing_of_not_cleared hcleared
      exact hwritten hw
  · exact hwritten hw

def leftover : FileSystem :=
  let work := Location.root.child "work"
  ⟨[(work.child "d", .file 0), (work.child "d.tmp", .file 1), (work, .directory)],
    [(0, Utf8.encode "old"), (1, Utf8.encode "half")], 2, [], work⟩

theorem spare_leftover : FileSink.Spare ⟨"d", 2⟩ leftover := by
  have htree : leftover.IsTree := by decide
  have htemp : leftover.resolve .entry (tempPath "d") =
      .ok (.taken ((Location.root.child "work").child "d.tmp") (.file 1)) := by cbv
  intro loc entry h
  cases htemp.symm.trans h
  refine ⟨1, rfl, fun loc' hfile => ?_⟩
  have hroot : loc' ≠ .root := ne_root_of_entry? leftover (by simp [hfile])
  have hmem := htree.mem_entries_iff.2 ⟨hroot, hfile⟩
  simp [leftover] at hmem
  exact hmem

end ScenarioDocs.FileSink
