import Mathlib
import ScenarioDocs.Proofs.Document.Attempts

/-!
# Sinks taking turns

However the replacements of several sinks follow one another, and whichever of
them fail, each document holds what its own sink has stored last, as long as no
document is the temporary file of another one.
-/

namespace ScenarioDocs

open FileSystem

/-! ## One replacement -/

namespace FileSink

section
variable {s : FileSink} {p : DocumentPlace} {start fs mid fs' : FileSystem} {temp : Location} {id : FileId} {bs : Bytes}
  {text : Text} {a : Attempt} {e : Error}
  (hs : s.Stands p start) (hways : fs.Ways start) (hcurrent : start.current = fs.current) (hknown : fs.Known)
  (halone : ∀ id loc, fs.entry? p.temp = some (.file id) → fs.entry? loc = some (.file id) → loc = p.temp)
include hs hways hcurrent

theorem Stands.temp_eq (hw : s.Writing fs mid temp id bs) : temp = p.temp :=
  placeAt_inj (hs.resolve_temp hways hcurrent hw.resolve)

include hknown halone

theorem Stands.own (hw : s.Writing fs mid temp id bs) (loc : Location) (hloc : fs.entry? loc = some (.file id)) :
    loc = p.temp := by
  rcases hw.before with hnone | hfile
  · have hlt := hknown loc id hloc
    rw [hw.fresh hnone] at hlt
    exact absurd hlt (Nat.lt_irrefl _)
  · rw [hs.temp_eq hways hcurrent hw] at hfile
    exact halone id loc hfile hloc

theorem Stands.moved (h : s.Runs text fs ⟨fs', .done (.ok ())⟩) :
    ∃ id, fs.Moved p id fs' ∧ fs'.held? p.document = some (.file (Utf8.encode text)) := by
  obtain ⟨written, temp, id, hw, hpublish⟩ := h.sound (hs.no_link hways hcurrent)
  have hown := hs.own hways hcurrent hknown halone hw
  obtain rfl := hs.temp_eq hways hcurrent hw
  obtain ⟨dest, -, hresolve, hdir, hmoved⟩ := move_file_inv hw.resolve_temp hpublish
  have hways' : written.Ways start := fun loc entry he hfile => hways _ _ (hw.ways_back _ _ he hfile) hfile
  have hdest := hs.resolve_document hways' (hcurrent.trans hw.current.symm) hresolve
  subst hdest
  obtain ⟨rfl, hfile⟩ | rfl := hmoved
  · -- the document would be the temporary file itself
    rw [hw.entries, if_neg p.temp_ne_document.symm] at hfile
    exact absurd (hown _ hfile).symm p.temp_ne_document
  · exact ⟨id, hw.moved hown hdir⟩

/-- A replacement that fails leaves the document, whether it removes its file or not. -/
theorem Stands.failed (h : s.Runs text fs a) (herror : a.progress.answer? = some (.error e)) :
    a.fs = fs ∨ ∃ id, fs.Moved p id a.fs ∧ a.fs.entry? p.document = fs.entry? p.document := by
  have hlink := hs.no_link hways hcurrent
  have hdropped {mid : FileSystem} {temp : Location} {id : FileId} {bs : Bytes} (hw : s.Writing fs mid temp id bs) :
      ∃ id, fs.Moved p id (s.discard mid) ∧ FileSystem.entry? (s.discard mid) p.document = fs.entry? p.document := by
    have hown := hs.own hways hcurrent hknown halone hw
    obtain rfl := hs.temp_eq hways hcurrent hw
    rw [hw.discard_eq]
    exact ⟨id, hw.dropped hown⟩
  have hsound := h.sound hlink
  obtain ⟨fs', progress⟩ := a
  cases progress with
  | started | writing | flushed | failed => cases herror
  | done result =>
    cases herror
    obtain ⟨cause, mid, -, hbegun, hdiscard⟩ := hsound
    cases (hdiscard : fs' = _)
    rcases hbegun with rfl | ⟨temp, id, bs, hw⟩
    · exact (discard_cases hlink).imp id fun ⟨_, _, hw⟩ => hdropped hw
    · exact .inr (hdropped hw)
  | left e =>
    obtain ⟨cause, -, hbegun⟩ := hsound
    rcases hbegun with rfl | ⟨temp, id, bs, hw⟩
    · exact .inl rfl
    · have hown := hs.own hways hcurrent hknown halone hw
      obtain rfl := hs.temp_eq hways hcurrent hw
      exact .inr ⟨id, hw.kept hown⟩

end

end FileSink

/-- Sinks of different documents that are not in each other's way. -/
structure FileSink.Apart {ι : Type} (sinks : ι → FileSink) (places : ι → DocumentPlace) (start : FileSystem) :
    Prop where
  stands : ∀ i, (sinks i).Stands (places i) start
  documents : ∀ i j, i ≠ j → places i ≠ places j
  temps : ∀ i j, i ≠ j → (places i).temp ≠ (places j).document

namespace Turns

variable {ι : Type} {sinks : ι → FileSink} {places : ι → DocumentPlace} {start fs : FileSystem}
  {t : Turns ι} {loc : Location} {held : Held}

def expected (t : Turns ι) (start : FileSystem) (places : ι → DocumentPlace) (i : ι) : Option Held :=
  match t.last i with
  | some text => some (.file (Utf8.encode text))
  | none => start.held? (places i).document

structure Settled (t : Turns ι) (start : FileSystem) (places : ι → DocumentPlace) : Prop where
  ways : t.fs.Ways start
  current : start.current = t.fs.current
  known : t.fs.Known
  alone : ∀ i id loc, t.fs.entry? (places i).temp = some (.file id) → t.fs.entry? loc = some (.file id) →
    loc = (places i).temp
  held : ∀ i, t.fs.held? (places i).document = t.expected start places i

theorem settled_start (hknown : start.Known) (ha : FileSink.Apart sinks places start) :
    Settled ⟨start, fun _ => none⟩ start places where
  ways := .refl start
  current := rfl
  known := hknown
  alone i id loc := (ha.stands i).alone id loc
  held _ := rfl

/-- A replacement that moved its file changes what its own document holds and no other. -/
theorem settled_moved (ha : FileSink.Apart sinks places start) (h : t.Settled start places) {i : ι} {id : FileId}
    {fs' : FileSystem} {last : ι → Option Text} (hm : t.fs.Moved (places i) id fs') (hknown : fs'.Known)
    (hlast : ∀ j, j ≠ i → last j = t.last j)
    (hheld : fs'.held? (places i).document = expected ⟨fs', last⟩ start places i) :
    Settled ⟨fs', last⟩ start places := by
  have hne (j : ι) : (places j).temp ≠ (places i).document := by
    by_cases hj : j = i
    · rw [hj]
      exact (places i).temp_ne_document
    · exact ha.temps j i hj
  refine ⟨fun loc entry hentry hfile => h.ways _ _ (hm.ways _ _ hentry hfile) hfile, h.current.trans hm.current.symm,
    hknown, fun j => hm.alone (hne j) (h.alone j), fun j => ?_⟩
  by_cases hj : j = i
  · rw [hj]
    exact hheld
  · have htemp : (places j).document ≠ (places i).temp := (ha.temps i j (Ne.symm hj)).symm
    have hdocument : (places j).document ≠ (places i).document := fun hsame =>
      ha.documents j i hj (DocumentPlace.document_inj.1 hsame)
    calc fs'.held? (places j).document
        = t.fs.held? (places j).document := hm.held?_eq htemp (hm.others _ htemp hdocument)
      _ = t.expected start places j := h.held j
      _ = expected ⟨fs', last⟩ start places j := by simp only [expected, hlast j hj]

section
variable [DecidableEq ι]

theorem Settled.step (ha : FileSink.Apart sinks places start) (h : t.Settled start places) {i : ι} {text : Text}
    {t' : Turns ι} (hstep : t.Step sinks i text t') : t'.Settled start places := by
  cases hstep with
  | stored hruns =>
    obtain ⟨id, hm, hheld⟩ := (ha.stands i).moved h.ways h.current h.known (h.alone i) hruns
    refine settled_moved ha h hm (hruns.later.known h.known) (fun j hj => if_neg hj) ?_
    simp only [expected, if_true]
    exact hheld
  | failed hruns herror =>
    rcases (ha.stands i).failed h.ways h.current h.known (h.alone i) hruns herror with hsame | ⟨id, hm, hsame⟩
    · rw [hsame]
      exact h
    · exact settled_moved ha h hm (hruns.later.known h.known) (fun _ _ => rfl)
        ((hm.held?_eq (places i).temp_ne_document.symm hsame).trans (h.held i))

theorem Settled.reaches (ha : FileSink.Apart sinks places start) (h : t.Settled start places)
    {calls : List (ι × Text)} {t' : Turns ι} (hreaches : Reaches sinks t calls t') : t'.Settled start places := by
  induction hreaches with
  | nil t => exact h
  | cons hstep _ ih => exact ih (h.step ha hstep)

theorem step_replace (sinks : ι → FileSink) (t : Turns ι) (i : ι) (text : Text) :
    t.Step sinks i text (t.replace sinks (i, text)) := by
  have hruns := FileSink.runs_sink (sinks i) text t.fs
  rw [replace]
  rcases hsink : (sinks i).sink text t.fs with ⟨e | ⟨⟩, fs⟩
  · rw [hsink] at hruns
    exact .failed hruns rfl
  · rw [hsink] at hruns
    exact .stored hruns

theorem reaches_foldl (sinks : ι → FileSink) (t : Turns ι) (calls : List (ι × Text)) :
    Reaches sinks t calls (calls.foldl (replace sinks) t) := by
  induction calls generalizing t with
  | nil => exact .nil t
  | cons call calls ih => exact .cons (step_replace sinks t call.1 call.2) (ih _)

end

/-! ## Opening -/

theorem held?_of_adds {fs' : FileSystem} (h : fs.AddsDirectories fs') (hheld : fs.held? loc = some held) :
    fs'.held? loc = some held := by
  obtain ⟨entry, hentry, rfl⟩ := Option.map_eq_some_iff.1 hheld
  rw [held?, h.grows loc entry hentry]
  cases entry with
  | directory => rfl
  | link target => rfl
  | file id => exact congrArg (fun bs => some (Held.file bs)) (h.bytes id)

theorem held?_of_openForWriting {fs' : FileSystem} {path : Text} {id : FileId} (hknown : fs.Known)
    (h : fs.openForWriting path = .ok (id, fs')) (hheld : fs.held? loc = some held) : fs'.held? loc = some held := by
  obtain ⟨entry, hentry, rfl⟩ := Option.map_eq_some_iff.1 hheld
  have hgrows := openForWriting_grows h loc entry hentry
  obtain ⟨l, ⟨-, rfl⟩ | ⟨-, -, rfl, hroot⟩⟩ := openForWriting_cases h
  · exact hheld
  · rw [held?, hgrows]
    cases entry with
    | directory => rfl
    | link target => rfl
    | file id' =>
      have hne : id' ≠ fs.next := Nat.ne_of_lt (hknown loc id' hentry)
      have hbytes : FileSystem.bytes (fs.newFile l).2 id' = fs.bytes id' := bytes_setBytes_ne hne
      exact congrArg (fun bs => some (Held.file bs)) hbytes

/-- Opening a sink, or failing to, changes nothing that is there. -/
theorem held?_create {path : Text} (hknown : fs.Known) (hheld : fs.held? loc = some held) :
    (FileSink.create path fs).2.held? loc = some held := by
  have hadds := FileSink.prepare_adds path fs
  rcases FileSink.create_cases path fs with ⟨fs1, id, fs2, hprepare, hopen⟩ | ⟨e, he⟩
  · rw [hprepare] at hadds
    have hheld2 := held?_of_openForWriting (hadds.later.known hknown) hopen (held?_of_adds hadds hheld)
    rw [FileSink.create_eq hprepare hopen]
    split
    · exact hheld2
    · exact hheld2
  · rw [he]
    exact held?_of_adds hadds hheld

/-! ## Any number of replacements -/

/-- After any calls, whichever of them fail, each document holds what its sink has stored last. -/
theorem held?_turns [DecidableEq ι] (hknown : start.Known) (ha : FileSink.Apart sinks places start) :
    (∀ calls : List (ι × Text), Reaches sinks ⟨start, fun _ => none⟩ calls
      (calls.foldl (Turns.replace sinks) ⟨start, fun _ => none⟩)) ∧
    (∀ (calls : List (ι × Text)) (t : Turns ι), Reaches sinks ⟨start, fun _ => none⟩ calls t →
      ∀ i, t.fs.held? (places i).document = t.expected start places i) ∧
    ∀ (fs : FileSystem) (path : Text) (loc : Location) (held : Held), fs.Known → fs.held? loc = some held →
      (FileSink.create path fs).2.held? loc = some held :=
  ⟨reaches_foldl sinks _, fun _ _ hreaches => ((settled_start hknown ha).reaches ha hreaches).held,
    fun _ _ _ _ hknown hheld => held?_create hknown hheld⟩

def two (first second : Text) (i : Bool) : FileSink := if i then ⟨first, 0⟩ else ⟨second, 1⟩

def opened (first second : Text) : FileSystem := (FileSink.create second (FileSink.create first .fresh).2).2

def inWork (first second : Text) (i : Bool) : DocumentPlace :=
  ⟨Location.root.child "work", if i then first else second⟩

theorem apart_two : FileSink.Apart (two "d" "e") (inWork "d" "e") (opened "d" "e") := by
  have htemp (i : Bool) : FileSystem.entry? (opened "d" "e") (inWork "d" "e" i).temp = none := by
    cases i <;> cbv
  refine ⟨fun i => ⟨?_, ?_, fun target => ?_, fun id loc h => ?_⟩, ?_, ?_⟩
  · cases i <;> cbv
  · cases i <;> decide
  · rw [htemp]
    simp
  · rw [htemp] at h
    cases h
  · decide
  · decide

theorem step_full (sinks : Bool → FileSink) (t : Turns Bool) (i : Bool) (text : Text) :
    t.Step sinks i text ⟨t.fs, t.last⟩ :=
  .failed (.tail (.single (.notOpened (.described "No space left on device (os error 28)"))) .notDiscarded) rfl

/-- The second call finds the disk full, and its document stays missing. -/
theorem held?_turns_two : ∃ t,
    Reaches (two "d" "e") ⟨opened "d" "e", fun _ => none⟩ [(true, "x"), (false, "y"), (true, "z")] t ∧
      t.fs.held? (inWork "d" "e" true).document = some (.file (Utf8.encode "z")) ∧
      t.fs.held? (inWork "d" "e" false).document = none := by
  have hfresh : FileSystem.IsTree .fresh := by decide
  have hturns := held?_turns (FileSink.known_create (FileSink.known_create hfresh.isKnown)) apart_two
  obtain ⟨t, hreaches, hlast, hlast'⟩ : ∃ t,
      Reaches (two "d" "e") ⟨opened "d" "e", fun _ => none⟩ [(true, "x"), (false, "y"), (true, "z")] t ∧
        t.last true = some ("z" : Text) ∧ t.last false = none :=
    ⟨_, .cons (step_replace _ _ true "x") (.cons (step_full _ _ false "y")
      (.cons (step_replace _ _ true "z") (.nil _))), by cbv, by cbv⟩
  have hheld := hturns.2.1 _ t hreaches
  have hmissing : (opened "d" "e").held? (inWork "d" "e" false).document = none := by cbv
  refine ⟨t, hreaches, ?_, ?_⟩
  · rw [hheld true, expected, hlast]
  · rw [hheld false, expected, hlast']
    exact hmissing

/-- A document that is the temporary file of another one is lost when that is replaced. -/
theorem held?_turns_neighbour : ∃ fs start p q,
    FileSink.create "d" .fresh = (.ok (two "d" "d.tmp" true), fs) ∧
      FileSink.create "d.tmp" fs = (.ok (two "d" "d.tmp" false), start) ∧
      start.place? "d" = some p ∧ start.place? "d.tmp" = some q ∧ p ≠ q ∧
      let t := ([(false, "x"), (true, "y")] : List (Bool × Text)).foldl (Turns.replace (two "d" "d.tmp"))
        ⟨start, fun _ => none⟩
      t.last false = some "x" ∧ t.fs.held? q.document = none := by
  refine ⟨(FileSink.create "d" .fresh).2, opened "d" "d.tmp", inWork "d" "d.tmp" true, inWork "d" "d.tmp" false,
    ?_, ?_, ?_, ?_, by decide, ?_, ?_⟩ <;> cbv

end Turns

end ScenarioDocs
