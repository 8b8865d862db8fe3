import Mathlib
import ScenarioDocs.Proofs.Document.Locks
import ScenarioDocs.Proofs.FileSystem.Tree

/-!
# One writer per document

As long as nobody removes a lock file in use, the file that is at a document's
lock path is the one that its open sink holds, and so a second sink is refused
until the first is closed.
-/

namespace ScenarioDocs

open FileSystem

namespace Session

structure Sound (w : Session) : Prop where
  known : w.fs.Known
  locked : ∀ id, id ∈ w.fs.locked ↔ ∃ o ∈ w.sinks, o.sink.lock = id
  distinct : (w.sinks.map (·.sink.lock)).Nodup
  lockAt : ∀ o ∈ w.sinks, w.fs.lockAt? o.place = some o.sink.lock

/-- What opening comes to while the sinks of a session are open. -/
structure Exclusive (w : Session) : Prop where
  /-- No document has two sinks. -/
  places : (w.sinks.map (·.place)).Nodup
  /-- If the lock file can be opened, the opening is refused exactly when an open sink holds it. -/
  opened : ∀ path fs1 id fs2, FileSink.prepare path w.fs = (.ok (), fs1) →
    fs1.openForWriting (FileSink.lockPath path) = .ok (id, fs2) →
    (∃ place, fs2.place? path = some place ∧ fs2.lockAt? place = some id) ∧
      ((FileSink.create path w.fs).1 = .error (.locked path) ↔ ∃ o ∈ w.sinks, o.sink.lock = id) ∧
      ((FileSink.create path w.fs).1 = .ok ⟨path, id⟩ ↔ ∀ o ∈ w.sinks, o.sink.lock ≠ id)
  /-- A refused opening makes the document's directory if that is missing, and does nothing else. -/
  refused : ∀ path fs, FileSink.create path w.fs = (.error (.locked path), fs) →
    w.fs.AddsDirectories fs ∧
      (∀ d, w.fs.directory? ((Path.parent? path).getD []) = some d → fs = w.fs) ∧
      (∀ document bs, w.fs.read document = .ok bs → fs.read document = .ok bs) ∧
      ∀ o ∈ w.sinks, ∀ text, (o.sink.sink text w.fs).1 = .ok () →
        fs.isDirectory (FileSink.tempPath o.sink.path) = false → fs.isDirectory o.sink.path = false →
        (o.sink.sink text fs).1 = .ok ()
  /-- Once its sink is closed, a document can be opened again. -/
  freed : ∀ o ∈ w.sinks, ∀ path fs1 id fs2, FileSink.prepare path (o.sink.close w.fs) = (.ok (), fs1) →
    fs1.openForWriting (FileSink.lockPath path) = .ok (id, fs2) → fs2.place? path = some o.place →
    (FileSink.create path (o.sink.close w.fs)).1 = .ok ⟨path, o.sink.lock⟩

variable {start v w : Session} {fs fs' fs1 fs2 : FileSystem} {path : Text} {place : DocumentPlace} {id : FileId}
  {o : OpenSink}

/-! ## One step -/

theorem lt_next_of_lockAt? (hk : fs.Known) (h : fs.lockAt? place = some id) : id < fs.next := by
  obtain ⟨loc, hfile⟩ := lockAt?_eq_some_iff.1 h
  exact hk loc id (entry?_of_walk (fileIn?_eq_some_iff.1 hfile))

theorem sound_start (hknown : start.fs.Known) (hlocks : start.fs.locked = []) (hsinks : start.sinks = []) :
    start.Sound where
  known := hknown
  locked := by simp [hlocks, hsinks]
  distinct := by simp [hsinks]
  lockAt := by simp [hsinks]

namespace Sound

variable (h : w.Sound)
include h

theorem locked_lt : ∀ id ∈ w.fs.locked, id < w.fs.next := by
  intro id hid
  obtain ⟨o, ho, rfl⟩ := (h.locked id).1 hid
  exact lt_next_of_lockAt? h.known (h.lockAt o ho)

theorem later (hlater : w.fs.Later fs) (hkeeps : KeepsLocks w ⟨fs, w.sinks⟩) : Sound ⟨fs, w.sinks⟩ where
  known := hlater.known h.known
  locked := by
    rw [hlater.locked]
    exact h.locked
  distinct := h.distinct
  lockAt o ho := (hkeeps o ho).trans (h.lockAt o ho)

theorem opened {s : FileSink} (hcreate : FileSink.create path w.fs = (.ok s, fs)) (hplace : fs.place? path = some place)
    (hkeeps : KeepsLocks w ⟨fs, ⟨s, place⟩ :: w.sinks⟩) : Sound ⟨fs, ⟨s, place⟩ :: w.sinks⟩ := by
  obtain ⟨fs1, id, fs2, hprepare, hopen, hfree, rfl, rfl⟩ := FileSink.create_ok_inv hcreate
  have hlater := FileSink.opened_later hprepare hopen
  refine ⟨hlater.known h.known, fun id' => ?_, ?_, ?_⟩
  · change id' ∈ id :: fs2.locked ↔ _
    rw [List.mem_cons, hlater.locked, h.locked]
    simp [eq_comm]
  · rw [List.map_cons, List.nodup_cons]
    refine ⟨fun hmem => ?_, h.distinct⟩
    obtain ⟨o, ho, hlock⟩ := List.mem_map.1 hmem
    rw [hlater.locked] at hfree
    exact hfree ((h.locked id).2 ⟨o, ho, hlock⟩)
  · rw [List.forall_mem_cons]
    refine ⟨?_, fun o ho => (hkeeps o ho).trans (h.lockAt o ho)⟩
    obtain ⟨place', hplace', hlock⟩ := lockAt?_of_openForWriting hopen
    have hgrows : fs2.Grows (fs2.lock id) := fun _ _ he => he
    have hplace'' : FileSystem.place? (fs2.lock id) path = some place' := by
      rw [place?_eq_some_iff] at hplace' ⊢
      exact ⟨directory?_of_ways hgrows.ways rfl hplace'.1, hplace'.2⟩
    rw [hplace] at hplace''
    cases hplace''
    exact lockAt?_of_grows hgrows hlock

theorem closed (ho : o ∈ w.sinks) (hkeeps : KeepsLocks w ⟨o.sink.close w.fs, w.sinks.erase o⟩) :
    Sound ⟨o.sink.close w.fs, w.sinks.erase o⟩ := by
  have hnodup : w.sinks.Nodup := List.Nodup.of_map _ h.distinct
  refine ⟨h.known, fun id => ?_, ?_, fun o' ho' => ?_⟩
  · change id ∈ w.fs.locked.filter (· ≠ o.sink.lock) ↔ _
    rw [List.mem_filter, h.locked]
    constructor
    · rintro ⟨⟨o', ho', rfl⟩, hne⟩
      refine ⟨o', (List.mem_erase_of_ne ?_).2 ho', rfl⟩
      rintro rfl
      simp at hne
    · rintro ⟨o', ho', rfl⟩
      obtain ⟨hne, ho'⟩ := hnodup.mem_erase_iff.1 ho'
      refine ⟨⟨o', ho', rfl⟩, ?_⟩
      have hlock : o'.sink.lock ≠ o.sink.lock := fun hlock => hne (List.inj_on_of_nodup_map h.distinct ho' ho hlock)
      simpa using hlock
  · exact h.distinct.sublist (List.erase_sublist.map _)
  · have ho' := List.mem_of_mem_erase ho'
    exact (hkeeps o' ho').trans (h.lockAt o' ho')

end Sound

theorem sound_step (h : v.Sound) (hstep : Step v w) (hkeeps : KeepsLocks v w) : w.Sound := by
  cases hstep with
  | opened hcreate hplace => exact h.opened hcreate hplace hkeeps
  | refused hcreate =>
    rw [FileSink.create_error_inv h.locked_lt hcreate] at hkeeps ⊢
    exact h.later (FileSink.prepare_adds _ _).later hkeeps
  | replaced text ho => exact h.later (FileSink.sink_later _ text _) hkeeps
  | closed ho => exact h.closed ho hkeeps
  | other hlater => exact h.later hlater hkeeps

theorem sound_reaches (h : start.Sound) (hreaches : start.Reaches w) : w.Sound := by
  induction hreaches with
  | refl => exact h
  | step _ hstep hkeeps ih => exact sound_step ih hstep hkeeps

/-! ## What follows -/

namespace Sound

variable (h : w.Sound)
include h

theorem places : (w.sinks.map (·.place)).Nodup := by
  rw [List.Nodup, List.pairwise_map]
  apply (List.pairwise_map.1 h.distinct).imp_of_mem
  intro o o' ho ho' hne hplace
  have hlock := h.lockAt o ho
  rw [hplace, h.lockAt o' ho'] at hlock
  exact hne (Option.some.inj hlock).symm

theorem create_iff (hprepare : FileSink.prepare path w.fs = (.ok (), fs1))
    (hopen : fs1.openForWriting (FileSink.lockPath path) = .ok (id, fs2)) :
    ((FileSink.create path w.fs).1 = .error (.locked path) ↔ ∃ o ∈ w.sinks, o.sink.lock = id) ∧
      ((FileSink.create path w.fs).1 = .ok ⟨path, id⟩ ↔ ∀ o ∈ w.sinks, o.sink.lock ≠ id) := by
  have hlocked : fs2.isLocked id = true ↔ ∃ o ∈ w.sinks, o.sink.lock = id := by
    rw [← h.locked, ← (FileSink.opened_later hprepare hopen).locked]
    simp [isLocked]
  rw [FileSink.create_eq hprepare hopen]
  by_cases hheld : ∃ o ∈ w.sinks, o.sink.lock = id
  · rw [if_pos (hlocked.2 hheld)]
    simpa using hheld
  · rw [if_neg fun hl => hheld (hlocked.1 hl)]
    simpa using hheld

theorem refused {e : Error} (hcreate : FileSink.create path w.fs = (.error e, fs)) :
    w.fs.AddsDirectories fs ∧ ∀ d, w.fs.directory? ((Path.parent? path).getD []) = some d → fs = w.fs := by
  rw [FileSink.create_error_inv h.locked_lt hcreate]
  refine ⟨FileSink.prepare_adds path w.fs, fun d hd => ?_⟩
  rw [FileSink.prepare_eq hd]

theorem create_after_close (ho : o ∈ w.sinks) (hprepare : FileSink.prepare path (o.sink.close w.fs) = (.ok (), fs1))
    (hopen : fs1.openForWriting (FileSink.lockPath path) = .ok (id, fs2)) (hplace : fs2.place? path = some o.place) :
    (FileSink.create path (o.sink.close w.fs)).1 = .ok ⟨path, o.sink.lock⟩ := by
  have hadds := FileSink.prepare_adds path (o.sink.close w.fs)
  rw [hprepare] at hadds
  have hgrows : w.fs.Grows fs2 := fun loc entry he => openForWriting_grows hopen loc entry (hadds.grows loc entry he)
  obtain ⟨place, hplace', hlock⟩ := lockAt?_of_openForWriting hopen
  rw [hplace] at hplace'
  cases hplace'
  rw [lockAt?_of_grows hgrows (h.lockAt o ho)] at hlock
  cases hlock
  have hfree : fs2.isLocked o.sink.lock = false := by
    rw [isLocked, (FileSink.opened_later hprepare hopen).locked]
    simp [FileSink.close, unlock]
  rw [FileSink.create_eq hprepare hopen, hfree]
  rfl

end Sound

/-- In every state that sessions reach without losing a lock file, each document has one writer at most. -/
theorem exclusive_of_reaches (hknown : start.fs.Known) (hlocks : start.fs.locked = []) (hsinks : start.sinks = [])
    (hreaches : start.Reaches w) : w.Exclusive := by
  have h : w.Sound := sound_reaches (sound_start hknown hlocks hsinks) hreaches
  refine ⟨h.places, fun path fs1 id fs2 hprepare hopen => ?_, fun path fs hcreate => ?_,
    fun o ho path fs1 id fs2 hprepare hopen hplace => h.create_after_close ho hprepare hopen hplace⟩
  · exact ⟨lockAt?_of_openForWriting hopen, h.create_iff hprepare hopen⟩
  · obtain ⟨hadds, hsame⟩ := h.refused hcreate
    refine ⟨hadds, hsame, fun document bs hread => ?_, fun o _ text hok htemp hdocument => ?_⟩
    · exact read_of_adds hadds hread
    · exact FileSink.sink_of_adds hadds hok htemp hdocument

def oneSink : Session :=
  ⟨(FileSink.create "a" .fresh).2, [⟨⟨"a", 0⟩, ⟨Location.root.child "work", "a"⟩⟩]⟩

theorem reaches_oneSink : Reaches ⟨.fresh, []⟩ oneSink := by
  have hcreate : FileSink.create "a" .fresh = (.ok ⟨"a", 0⟩, (FileSink.create "a" .fresh).2) := by cbv
  have hplace : FileSystem.place? (FileSink.create "a" .fresh).2 "a" = some ⟨Location.root.child "work", "a"⟩ := by cbv
  exact .step (.refl _) (.opened hcreate hplace) fun o ho => absurd ho List.not_mem_nil

theorem exclusive_oneSink : oneSink.Exclusive ∧ (FileSink.create "./a" oneSink.fs).1 = .error (.locked "./a") := by
  have hfresh : FileSystem.IsTree .fresh := by decide
  exact ⟨exclusive_of_reaches hfresh.isKnown rfl rfl reaches_oneSink, by cbv⟩

/-- A refused opening makes a directory in the place of the document, which then cannot be replaced. -/
theorem refused_replaces : ∃ w o path fs text, Reaches ⟨.fresh, []⟩ w ∧ o ∈ w.sinks ∧
    FileSink.create path w.fs = (.error (.locked path), fs) ∧ (o.sink.sink text w.fs).1 = .ok () ∧
      (o.sink.sink text fs).1 = .error (.write o.sink.path .isDirectory) := by
  refine ⟨oneSink, _, "a/../a", (FileSink.create "a/../a" oneSink.fs).2, "text", reaches_oneSink,
    List.mem_singleton_self _, ?_, ?_, ?_⟩ <;> cbv

end Session

end ScenarioDocs
