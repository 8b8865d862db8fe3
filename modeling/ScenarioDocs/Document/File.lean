import ScenarioDocs.Document.Renderer
import ScenarioDocs.FileSystem.Operations

/-!
# Documents in files

A file sink holds the lock on `<document>.lock` as long as it is open; the
lock file stays when it is closed. A replacement writes `<document>.tmp` and
moves it over the document, so the document holds either the old text or the
new one.
-/

namespace ScenarioDocs

structure FileSink where
  path : Text
  lock : FileId
  deriving DecidableEq

namespace FileSink

def lockPath (path : Text) : Text := Path.sibling path ".lock"

def tempPath (path : Text) : Text := Path.sibling path ".tmp"

/-- Creates the missing directories above the document. -/
def prepare (path : Text) (fs : FileSystem) : Except SystemError Unit × FileSystem :=
  fs.makeDirectories ((Path.parent? path).getD [])

def create (path : Text) (fs : FileSystem) : Except Error FileSink × FileSystem :=
  match prepare path fs with
  | (.error e, fs) => (.error (.system e), fs)
  | (.ok (), fs) =>
    match fs.openForWriting (lockPath path) with
    | .error e => (.error (.system e), fs)
    | .ok (id, fs) =>
      if fs.isLocked id then (.error (.locked path), fs) else (.ok ⟨path, id⟩, fs.lock id)

/-! ## One replacement, stage by stage -/

def openTemp (s : FileSink) (fs : FileSystem) : Except SystemError (FileId × FileSystem) :=
  fs.create (tempPath s.path)

def publish (s : FileSink) (fs : FileSystem) : Except SystemError FileSystem :=
  fs.move (tempPath s.path) s.path

/-- Removes the temporary file after a failure, if it can be removed. -/
def discard (s : FileSink) (fs : FileSystem) : FileSystem :=
  match fs.remove (tempPath s.path) with
  | .ok fs => fs
  | .error _ => fs

def sink (s : FileSink) : Sink FileSystem := fun text fs =>
  match s.openTemp fs with
  | .error e => (.error (.write s.path e), s.discard fs)
  | .ok (id, fs) =>
    let written := fs.appendBytes id (Utf8.encode text)
    match s.publish written with
    | .ok fs => (.ok (), fs)
    | .error e => (.error (.write s.path e), s.discard written)

def close (s : FileSink) (fs : FileSystem) : FileSystem := fs.unlock s.lock

end FileSink

/-! ## Comparing -/

inductive Status
  | current
  | stale
  | missing
  deriving DecidableEq

def Document.status (fs : FileSystem) (path : Text) (scopes : List Scope) : Except Error Status :=
  match fs.readText path with
  | .error .notFound => .ok .missing
  | .error e => .error (.system e)
  | .ok stored => .ok (if stored = Document.text scopes then .current else .stale)

end ScenarioDocs
