import ScenarioDocs.Proofs.Document.Locks
import ScenarioDocs.Proofs.Document.Replacing

/-!
# Sinks of different documents

A replacement puts its file at the document and leaves everything else alone,
so sinks can take turns in any order: each document holds what its own sink
has stored last.
-/

namespace ScenarioDocs

open FileSystem

variable {start fs fs' written : FileSystem} {s : FileSink} {p q : DocumentPlace} {dir loc dest : Location}
  {text name : Text} {id : FileId} {place : Place} {k : Nat}

namespace DocumentPlace

theorem temp_ne_document (p : DocumentPlace) : p.temp ≠ p.document := by
  intro h
  have hname := congrArg List.length (Location.child_inj.1 h).2
  rw [List.length_append] at hname
  exact absurd hname (by simp)

theorem document_inj : p.document = q.document ↔ p = q := by
  constructor
  · intro h
    obtain ⟨hdir, hname⟩ := Location.child_inj.1 h
    exact DocumentPlace.ext hdir hname
  · rintro rfl
    rfl

end DocumentPlace

/-! ## Where the paths of a sink lead -/

namespace FileSystem

theorem placeAt_inj (h : fs.placeAt loc = fs.placeAt dest) : loc = dest := by
  unfold placeAt at h
  split at h <;> split at h <;> cases h <;> rfl

/-- A walk that ends in dots does not end at a name. -/
theorem walk_dots_ne_placeAt {after : List Text} (hafter : ∀ x ∈ after, x = ['.']) (hne : after ≠ []) {slash : Bool} :
    fs.walk .entry k dir (name :: after) slash ≠ .ok (fs.placeAt loc) := by
  intro h
  rw [← List.singleton_append] at h
  obtain ⟨q, d, hq, hd⟩ := exists_directory_of_walk hne h false
  obtain ⟨k', -, happend⟩ := walk_append hq hd
  rw [happend _ _ _ hne, ← List.append_nil after, walk_dots hafter, walk] at h
  unfold placeAt at h
  split at h <;> cases h

theorem walk_name (hcurrent : name ≠ ['.']) (hparent : name ≠ ['.', '.']) {slash : Bool}
    (h : fs.walk .entry k dir [name] slash = .ok place) : place = fs.placeAt (dir.child name) := by
  by_cases hlong : nameLimit < (Utf8.encode name).length
  · rw [walk_long hcurrent hparent (by simp) hlong] at h
    cases h
  · rw [walk_last ⟨hcurrent, hparent, hlong⟩] at h
    exact (Except.ok.inj h).symm

theorem sibling_of_resolve {path ending : Text} (hslash : '/' ∉ ending) (hlength : 2 < ending.length)
    (h : fs.resolve .entry (Path.sibling path ending) = .ok place) :
    ∃ dir, fs.directory? (Path.split path).1 = some dir ∧
      place = fs.placeAt (dir.child ((Path.split path).2 ++ ending)) := by
  have hspells := Path.spells_sibling path hslash hlength
  obtain ⟨dir, hd, k, -, hwalk⟩ := resolve_sibling_inv hslash hlength h
  exact ⟨dir, hd, walk_name hspells.notCurrent hspells.notParent hwalk⟩

end FileSystem

namespace FileSink

section
variable (hdir : ∀ dir, fs.directory? (Path.split s.path).1 = some dir → dir = p.dir)
  (hname : (Path.split s.path).2 = p.name)
include hdir hname

theorem temp_of_resolve (h : fs.resolve .entry (tempPath s.path) = .ok place) : place = fs.placeAt p.temp := by
  obtain ⟨dir, hd, hplace⟩ := sibling_of_resolve (by decide) (by decide) h
  rw [hplace, hdir dir hd, hname]
  rfl

theorem document_of_resolve (hnamed : p.name ≠ []) (h : fs.resolve .entry s.path = .ok (fs.placeAt dest)) :
    dest = p.document := by
  have hspells : Path.Spells s.path (Path.split s.path).1 (Path.split s.path).2 := by
    unfold Path.split at hname ⊢
    split
    · rename_i name hfile
      exact Path.spells_of_fileName? hfile
    · rename_i hfile
      simp only [hfile] at hname
      exact absurd hname.symm hnamed
  obtain ⟨dir, hd⟩ := directory?_of_spells hspells h
  obtain ⟨k, hleads⟩ := exists_leads hd
  obtain ⟨hnul, -, hshort, -⟩ := resolve_eq_walk h
  obtain ⟨after, hafter, hwalk⟩ := hleads.resolve_spells hspells hnul
  have hwalk := hwalk .entry
  rw [hshort, if_neg (by decide), h] at hwalk
  by_cases hne : after = []
  · subst hne
    have hdest := walk_name hspells.notCurrent hspells.notParent hwalk.symm
    rw [placeAt_inj hdest, hdir dir hd, hname]
    rfl
  · exact absurd hwalk.symm (walk_dots_ne_placeAt hafter hne)

end

/-- A sink's document is a name in a directory, and its temporary file, if there is one, is nobody else's. -/
structure Stands (s : FileSink) (p : DocumentPlace) (start : FileSystem) : Prop where
  place : start.place? s.path = some p
  named : p.name ≠ []
  unlinked : ∀ target, start.entry? p.temp ≠ some (.link target)
  alone : ∀ id loc, start.entry? p.temp = some (.file id) → start.entry? loc = some (.file id) → loc = p.temp

section
variable (hs : s.Stands p start) (hways : fs.Ways start) (hcurrent : start.current = fs.current)
include hs hways hcurrent

theorem Stands.leads (h : fs.directory? (Path.split s.path).1 = some dir) : dir = p.dir := by
  have hdir := directory?_of_ways hways hcurrent h
  rw [(place?_eq_some_iff.1 hs.place).1] at hdir
  exact (Option.some.inj hdir).symm

theorem Stands.resolve_temp (h : fs.resolve .entry (tempPath s.path) = .ok place) : place = fs.placeAt p.temp :=
  temp_of_resolve (fun _ => hs.leads hways hcurrent) (place?_eq_some_iff.1 hs.place).2 h

theorem Stands.resolve_document (h : fs.resolve .entry s.path = .ok (fs.placeAt dest)) : dest = p.document :=
  document_of_resolve (fun _ => hs.leads hways hcurrent) (place?_eq_some_iff.1 hs.place).2 hs.named h

theorem Stands.no_link (loc : Location) (target : Text) :
    fs.resolve .entry (tempPath s.path) ≠ .ok (.taken loc (.link target)) := by
  intro h
  have hplace := hs.resolve_temp hways hcurrent h
  have hloc : loc = p.temp := by
    unfold placeAt at hplace
    split at hplace <;> cases hplace
    rfl
  rw [hloc] at hplace
  exact hs.unlinked target (hways _ _ (entry?_eq_some_iff.2 hplace.symm) (by simp))

end

end FileSink

/-! ## One replacement -/

/-- Only what is at the temporary place is concerned by what happens to its file. -/
theorem FileSystem.held?_of_entry {temp : Location} (hid : ∀ loc, fs.entry? loc = some (.file id) → loc = temp)
    (hbytes : ∀ id', id' ≠ id → fs'.bytes id' = fs.bytes id') (hloc : loc ≠ temp)
    (hentry : fs'.entry? loc = fs.entry? loc) : fs'.held? loc = fs.held? loc := by
  unfold held?
  rw [hentry]
  cases he : fs.entry? loc with
  | none => rfl
  | some entry =>
    cases entry with
    | directory => rfl
    | link target => rfl
    | file id' =>
      have hne : id' ≠ id := by
        rintro rfl
        exact hloc (hid loc he)
      exact congrArg (fun bs => some (Held.file bs)) (hbytes id' hne)

/-- The file that was written is at the temporary place or at the document, or it is gone. -/
structure FileSystem.Moved (fs : FileSystem) (p : DocumentPlace) (id : FileId) (fs' : FileSystem) : Prop where
  /-- The file is a new one, or the one at the temporary place. -/
  own : ∀ loc, fs.entry? loc = some (.file id) → loc = p.temp
  temp : fs'.entry? p.temp = none ∨ fs'.entry? p.temp = some (.file id)
  others : ∀ loc, loc ≠ p.temp → loc ≠ p.document → fs'.entry? loc = fs.entry? loc
  document : fs'.entry? p.document = fs.entry? p.document ∨
    fs'.entry? p.document = some (.file id) ∧ fs'.entry? p.temp = none
  bytes : ∀ id', id' ≠ id → fs'.bytes id' = fs.bytes id'
  current : fs'.current = fs.current

namespace FileSystem.Moved

variable (h : fs.Moved p id fs')
include h

theorem ways : fs'.Ways fs := by
  apply Ways.of_entry?
  intro loc
  by_cases htemp : loc = p.temp
  · rw [htemp]
    exact .inr (h.temp.imp_right fun hfile => ⟨id, hfile⟩)
  · by_cases hdocument : loc = p.document
    · rw [hdocument]
      exact h.document.elim (fun hsame => .inl hsame.symm) fun hfile => .inr (.inr ⟨id, hfile.1⟩)
    · exact .inl (h.others loc htemp hdocument).symm

theorem held?_eq (htemp : loc ≠ p.temp) (hsame : fs'.entry? loc = fs.entry? loc) : fs'.held? loc = fs.held? loc :=
  held?_of_entry h.own h.bytes htemp hsame

/-- Nowhere but at the temporary place and the document is the file that was written. -/
theorem cases_of_file {id' : FileId} (hloc : fs'.entry? loc = some (.file id')) :
    fs.entry? loc = some (.file id') ∨ id' = id ∧ (loc = p.temp ∨ loc = p.document ∧ fs'.entry? p.temp = none) := by
  by_cases htemp : loc = p.temp
  · subst htemp
    rcases h.temp with hnone | hfile
    · rw [hnone] at hloc
      cases hloc
    · rw [hfile] at hloc
      cases hloc
      exact .inr ⟨rfl, .inl rfl⟩
  · by_cases hdocument : loc = p.document
    · subst hdocument
      rcases h.document with hsame | ⟨hfile, hnone⟩
      · exact .inl (hsame.symm.trans hloc)
      · rw [hfile] at hloc
        cases hloc
        exact .inr ⟨rfl, .inr ⟨rfl, hnone⟩⟩
    · exact .inl ((h.others loc htemp hdocument).symm.trans hloc)

/-- A file that is at one place only, apart from this document's, stays so. -/
theorem alone (hne : q.temp ≠ p.document)
    (halone : ∀ id' loc, fs.entry? q.temp = some (.file id') → fs.entry? loc = some (.file id') → loc = q.temp)
    (id' : FileId) (loc : Location) (hq : fs'.entry? q.temp = some (.file id'))
    (hloc : fs'.entry? loc = some (.file id')) : loc = q.temp := by
  rcases h.cases_of_file hq with hbefore | ⟨rfl, htemp | ⟨hdocument, -⟩⟩
  · rcases h.cases_of_file hloc with hbefore' | ⟨rfl, htemp | ⟨-, hnone⟩⟩
    · exact halone id' loc hbefore hbefore'
    · exact htemp.trans (h.own _ hbefore).symm
    · -- the file was moved away from where it was
      rw [h.own _ hbefore, hnone] at hq
      cases hq
  · rcases h.cases_of_file hloc with hbefore' | ⟨-, htemp' | ⟨-, hnone⟩⟩
    · exact (h.own loc hbefore').trans htemp.symm
    · exact htemp'.trans htemp.symm
    · rw [htemp, hnone] at hq
      cases hq
  · exact absurd hdocument hne

end FileSystem.Moved

namespace FileSink

section
variable {bs : Bytes} (hw : s.Writing fs written p.temp id bs)
  (hown : ∀ loc, fs.entry? loc = some (.file id) → loc = p.temp)
include hw hown

theorem Writing.moved (hdir : written.entry? p.document ≠ some .directory) :
    fs.Moved p id ((written.erase p.temp).put p.document (.file id)) ∧
      FileSystem.held? ((written.erase p.temp).put p.document (.file id)) p.document = some (.file bs) := by
  have hne : p.document ≠ p.temp := p.temp_ne_document.symm
  have hroot : p.document ≠ .root := ne_root_of_entry? written hdir
  have hentry (loc : Location) : FileSystem.entry? ((written.erase p.temp).put p.document (.file id)) loc =
      if loc = p.document then some (.file id) else if loc = p.temp then none else fs.entry? loc := by
    rw [entry?_put hroot, entry?_erase hw.temp_ne_root, hw.entries]
    by_cases hloc : loc = p.document
    · rw [if_pos hloc, if_pos hloc]
    · rw [if_neg hloc, if_neg hloc]
      split <;> rfl
  have htemp : FileSystem.entry? ((written.erase p.temp).put p.document (.file id)) p.temp = none := by
    rw [hentry, if_neg hne.symm, if_pos rfl]
  refine ⟨⟨hown, .inl htemp, fun loc htemp hdoc => ?_, .inr ⟨?_, htemp⟩, hw.otherBytes, hw.current⟩, ?_⟩
  · rw [hentry, if_neg hdoc, if_neg htemp]
  · rw [hentry, if_pos rfl]
  · rw [held?, hentry, if_pos rfl]
    exact congrArg (fun bs => some (Held.file bs)) hw.bytes

theorem Writing.dropped : fs.Moved p id (written.erase p.temp) ∧
    FileSystem.entry? (written.erase p.temp) p.document = fs.entry? p.document := by
  have hentry (loc : Location) : FileSystem.entry? (written.erase p.temp) loc =
      if loc = p.temp then none else fs.entry? loc := by
    rw [entry?_erase hw.temp_ne_root, hw.entries]
    split <;> rfl
  have hdocument : FileSystem.entry? (written.erase p.temp) p.document = fs.entry? p.document := by
    rw [hentry, if_neg p.temp_ne_document.symm]
  refine ⟨⟨hown, .inl ?_, fun loc htemp _ => ?_, .inl hdocument, hw.otherBytes, hw.current⟩, hdocument⟩
  · rw [hentry, if_pos rfl]
  · rw [hentry, if_neg htemp]

/-- The written file is where it was written, and the document is what it was. -/
theorem Writing.kept : fs.Moved p id written ∧ written.entry? p.document = fs.entry? p.document := by
  have hdocument : written.entry? p.document = fs.entry? p.document := by
    rw [hw.entries, if_neg p.temp_ne_document.symm]
  refine ⟨⟨hown, .inr ?_, fun loc htemp _ => ?_, .inl hdocument, hw.otherBytes, hw.current⟩, hdocument⟩
  · rw [hw.entries, if_pos rfl]
  · rw [hw.entries, if_neg htemp]

end

end FileSink

end ScenarioDocs
