import Mathlib.Logic.Relation
import ScenarioDocs.Document.File
import ScenarioDocs.FileSystem.Tree

/-!
# Stages of a replacement

What others can see while a document is being replaced, and how sinks that
are open at the same time take turns. A disk may be full and a permission
missing, so any call to the system may fail though nothing in the files is in
its way; the functions that open and replace documents take one of the runs
that are described here.
-/

namespace ScenarioDocs

namespace FileSink

inductive Progress
  | started
  /-- The temporary file is open and takes these bytes next. -/
  | writing (id : FileId) (rest : Bytes)
  | flushed
  | failed (cause : SystemError)
  | done (result : Except Error Unit)
  /-- It failed, and the temporary file could not be removed, which is not told. -/
  | left (e : Error)

def Progress.answer? : Progress → Option (Except Error Unit)
  | .done result => some result
  | .left e => some (.error e)
  | _ => none

structure Attempt where
  fs : FileSystem
  progress : Progress

/-- What the next call to the system does. Every call may fail, for whatever reason, and then
changes nothing; some of the bytes may be written before writing fails. -/
inductive Step (s : FileSink) (text : Text) : Attempt → Attempt → Prop
  | opened {fs fs' : FileSystem} {id : FileId} :
      s.openTemp fs = .ok (id, fs') → Step s text ⟨fs, .started⟩ ⟨fs', .writing id (Utf8.encode text)⟩
  | notOpened {fs : FileSystem} (cause : SystemError) : Step s text ⟨fs, .started⟩ ⟨fs, .failed cause⟩
  | wrote {fs : FileSystem} {id : FileId} (some rest : Bytes) :
      Step s text ⟨fs, .writing id (some ++ rest)⟩ ⟨fs.appendBytes id some, .writing id rest⟩
  | flushed {fs : FileSystem} {id : FileId} : Step s text ⟨fs, .writing id []⟩ ⟨fs, .flushed⟩
  | notWritten {fs : FileSystem} {id : FileId} {rest : Bytes} (cause : SystemError) :
      Step s text ⟨fs, .writing id rest⟩ ⟨fs, .failed cause⟩
  | moved {fs fs' : FileSystem} : s.publish fs = .ok fs' → Step s text ⟨fs, .flushed⟩ ⟨fs', .done (.ok ())⟩
  | notMoved {fs : FileSystem} (cause : SystemError) : Step s text ⟨fs, .flushed⟩ ⟨fs, .failed cause⟩
  | discarded {fs : FileSystem} {cause : SystemError} :
      Step s text ⟨fs, .failed cause⟩ ⟨s.discard fs, .done (.error (.write s.path cause))⟩
  | notDiscarded {fs : FileSystem} {cause : SystemError} :
      Step s text ⟨fs, .failed cause⟩ ⟨fs, .left (.write s.path cause)⟩

/-- A replacement that started from `fs` may have come this far. -/
def Runs (s : FileSink) (text : Text) (fs : FileSystem) (a : Attempt) : Prop :=
  Relation.ReflTransGen (s.Step text) ⟨fs, .started⟩ a

/-- Texts are stored one after the other, up to the first that fails. -/
inductive StoresAll (s : FileSink) : List Text → FileSystem → Except Error Unit → (left : Bool) → FileSystem → Prop
  | nil (fs : FileSystem) : StoresAll s [] fs (.ok ()) false fs
  | stored {text : Text} {texts : List Text} {fs mid fs' : FileSystem} {answer : Except Error Unit} {left : Bool} :
      s.Runs text fs ⟨mid, .done (.ok ())⟩ → StoresAll s texts mid answer left fs' →
      StoresAll s (text :: texts) fs answer left fs'
  | failed {text : Text} {texts : List Text} {fs fs' : FileSystem} {e : Error} :
      s.Runs text fs ⟨fs', .done (.error e)⟩ → StoresAll s (text :: texts) fs (.error e) false fs'
  | left {text : Text} {texts : List Text} {fs fs' : FileSystem} {e : Error} :
      s.Runs text fs ⟨fs', .left e⟩ → StoresAll s (text :: texts) fs (.error e) true fs'

end FileSink

/-! ## A document from opening to closing -/

/-- What is left of a path when some of its last names are cut off. -/
def Path.Above (path above : Text) : Prop := Relation.TransGen (fun p q => parent? p = some q) path above

namespace FileSink

def Prepares (path : Text) : FileSystem → FileSystem → Prop :=
  Relation.ReflTransGen fun fs fs' => ∃ above, Path.Above path above ∧ fs.makeDirectory above = .ok fs'

inductive Stage
  | unopened
  /-- The lock file was opened, but not locked. -/
  | refused
  | opened (left : Bool)
  deriving DecidableEq

def Stage.of : Except Error FileSink → Stage
  | .ok _ => .opened false
  | .error (.locked _) => .refused
  | .error _ => .unopened

/-- A sink is opened, stores texts and is closed. `prepared` are the files when the directories above the
document were made. -/
inductive Writes (path : Text) (texts : List Text) (fs prepared : FileSystem) : Stage → FileSystem → Prop
  | unopened : Prepares path fs prepared → Writes path texts fs prepared .unopened prepared
  | refused {id : FileId} {opened : FileSystem} : Prepares path fs prepared →
      prepared.openForWriting (lockPath path) = .ok (id, opened) → Writes path texts fs prepared .refused opened
  | opened {id : FileId} {opened fs' : FileSystem} {answer : Except Error Unit} {left : Bool} :
      Prepares path fs prepared → prepared.openForWriting (lockPath path) = .ok (id, opened) →
      opened.isLocked id = false →
      StoresAll ⟨path, id⟩ texts (opened.lock id) answer left fs' →
      Writes path texts fs prepared (.opened left) (FileSink.close ⟨path, id⟩ fs')

end FileSink

/-! ## Documents -/

/-- Where a document lies, however its path is spelled. -/
@[ext] structure DocumentPlace where
  dir : Location
  name : Text
  deriving DecidableEq

namespace DocumentPlace

def document (place : DocumentPlace) : Location := place.dir.child place.name

def temp (place : DocumentPlace) : Location := place.dir.child (place.name ++ ".tmp")

end DocumentPlace

def FileSystem.place? (fs : FileSystem) (path : Text) : Option DocumentPlace :=
  (fs.directory? (Path.split path).1).map (⟨·, (Path.split path).2⟩)

def FileSystem.lockAt? (fs : FileSystem) (place : DocumentPlace) : Option FileId :=
  (fs.fileIn? place.dir (place.name ++ ".lock")).map (·.2)

/-! ## Sinks that are open at the same time -/

structure OpenSink where
  sink : FileSink
  place : DocumentPlace
  deriving DecidableEq

structure Session where
  fs : FileSystem
  sinks : List OpenSink

namespace Session

/-- One step of one client, or of anyone else. -/
inductive Step : Session → Session → Prop
  | opened {w : Session} {path : Text} {s : FileSink} {fs : FileSystem} {place : DocumentPlace} :
      FileSink.create path w.fs = (.ok s, fs) → fs.place? path = some place → Step w ⟨fs, ⟨s, place⟩ :: w.sinks⟩
  | refused {w : Session} {path : Text} {e : Error} {fs : FileSystem} :
      FileSink.create path w.fs = (.error e, fs) → Step w ⟨fs, w.sinks⟩
  | replaced {w : Session} {o : OpenSink} (text : Text) : o ∈ w.sinks → Step w ⟨(o.sink.sink text w.fs).2, w.sinks⟩
  | closed {w : Session} {o : OpenSink} : o ∈ w.sinks → Step w ⟨o.sink.close w.fs, w.sinks.erase o⟩
  | other {w : Session} {fs : FileSystem} : w.fs.Later fs → Step w ⟨fs, w.sinks⟩

def KeepsLocks (v w : Session) : Prop := ∀ o ∈ v.sinks, w.fs.lockAt? o.place = v.fs.lockAt? o.place

inductive Reaches : Session → Session → Prop
  | refl (w : Session) : Reaches w w
  | step {u v w : Session} : Reaches u v → Step v w → KeepsLocks v w → Reaches u w

end Session

/-! ## Sinks taking turns -/

inductive Held
  | directory
  | link (target : Text)
  | file (bytes : Bytes)
  deriving DecidableEq

def FileSystem.held? (fs : FileSystem) (loc : Location) : Option Held :=
  (fs.entry? loc).map fun
    | .directory => .directory
    | .link target => .link target
    | .file id => .file (fs.bytes id)

/-- The files after some replacements, and the last text that each sink has stored. -/
structure Turns (ι : Type) where
  fs : FileSystem
  last : ι → Option Text

namespace Turns

variable {ι : Type} [DecidableEq ι]

def stored (t : Turns ι) (i : ι) (text : Text) (fs : FileSystem) : Turns ι :=
  ⟨fs, fun j => if j = i then some text else t.last j⟩

def replace (sinks : ι → FileSink) (t : Turns ι) (call : ι × Text) : Turns ι :=
  match (sinks call.1).sink call.2 t.fs with
  | (.ok (), fs) => t.stored call.1 call.2 fs
  | (.error _, fs) => ⟨fs, t.last⟩

inductive Step (sinks : ι → FileSink) (t : Turns ι) (i : ι) (text : Text) : Turns ι → Prop
  | stored {fs : FileSystem} : (sinks i).Runs text t.fs ⟨fs, .done (.ok ())⟩ → Step sinks t i text (t.stored i text fs)
  | failed {a : FileSink.Attempt} {e : Error} : (sinks i).Runs text t.fs a → a.progress.answer? = some (.error e) →
      Step sinks t i text ⟨a.fs, t.last⟩

inductive Reaches (sinks : ι → FileSink) : Turns ι → List (ι × Text) → Turns ι → Prop
  | nil (t : Turns ι) : Reaches sinks t [] t
  | cons {t t' t'' : Turns ι} {i : ι} {text : Text} {calls : List (ι × Text)} : t.Step sinks i text t' →
      Reaches sinks t' calls t'' → Reaches sinks t ((i, text) :: calls) t''

end Turns

end ScenarioDocs
