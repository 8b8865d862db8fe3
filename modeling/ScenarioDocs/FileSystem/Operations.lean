import ScenarioDocs.FileSystem.Lookup

/-!
# File operations

A single operation either fails and changes nothing or gives the changed file
system. `makeDirectories`, which is several operations, gives the file system
it reached in either case.
-/

namespace ScenarioDocs.FileSystem

/-! ## Reading -/

def read (fs : FileSystem) (path : Text) : Except SystemError Bytes := do
  match ← fs.find path with
  | (_, .file id) => return fs.bytes id
  | _ => throw .isDirectory

def readText (fs : FileSystem) (path : Text) : Except SystemError Text := do
  match Utf8.decode? (← fs.read path) with
  | some t => return t
  | none => throw .notUtf8

/-! ## Files -/

/-- Opens a file for writing and leaves its bytes as they are; a missing one is created. -/
def openForWriting (fs : FileSystem) (path : Text) : Except SystemError (FileId × FileSystem) := do
  match ← fs.resolve .create path with
  | .taken _ (.file id) => return (id, fs)
  | .free loc => return fs.newFile loc
  | _ => throw .isDirectory

def create (fs : FileSystem) (path : Text) : Except SystemError (FileId × FileSystem) := do
  let (id, fs) ← fs.openForWriting path
  return (id, fs.setBytes id [])

def appendBytes (fs : FileSystem) (id : FileId) (bs : Bytes) : FileSystem :=
  fs.setBytes id (fs.bytes id ++ bs)

def write (fs : FileSystem) (path : Text) (bs : Bytes) : Except SystemError FileSystem := do
  let (id, fs) ← fs.create path
  return fs.appendBytes id bs

def remove (fs : FileSystem) (path : Text) : Except SystemError FileSystem := do
  match ← fs.resolve .entry path with
  | .unnamed _ => throw .isDirectory
  | .taken _ .directory => throw .isDirectory
  | .taken loc _ => if endsInSlash path then throw .notDirectory else return fs.erase loc
  | .free _ => throw .notFound

def makeLink (fs : FileSystem) (target path : Text) : Except SystemError FileSystem := do
  if target = [] then throw .notFound
  match ← fs.resolve .entry path with
  | .free loc => if endsInSlash path then throw .notFound else return fs.put loc (.link target)
  | _ => throw .alreadyExists

/-- Moves a file or link to another path, in place of a file or link that is there. Nothing
happens if both are the same file. Directories are neither moved nor replaced. -/
def move (fs : FileSystem) (source target : Text) : Except SystemError FileSystem := do
  match ← fs.resolve .entry source with
  | .unnamed _ => throw .busy
  | .free _ => throw .notFound
  | .taken _ .directory => throw .isDirectory
  | .taken loc moved =>
    match ← fs.resolve .entry target with
    | .unnamed _ => throw .busy
    | .taken loc' replaced =>
      if endsInSlash target then throw .notDirectory
      else match moved, replaced with
        | _, .directory => throw .isDirectory
        | .file id, .file id' =>
          return if id = id' then fs else (fs.erase loc).put loc' moved
        | _, _ => return if loc = loc' then fs else (fs.erase loc).put loc' moved
    | .free loc' =>
      if endsInSlash target then throw .notDirectory else return (fs.erase loc).put loc' moved

/-! ## Directories -/

def makeDirectory (fs : FileSystem) (path : Text) : Except SystemError FileSystem := do
  match ← fs.resolve .entry path with
  | .free loc => return fs.put loc .directory
  | _ => throw .alreadyExists

def ensureDirectory (fs : FileSystem) (path : Text) : Except SystemError Unit × FileSystem :=
  match fs.makeDirectory path with
  | .ok fs => (.ok (), fs)
  | .error e => if fs.isDirectory path then (.ok (), fs) else (.error e, fs)

def makeDirectories (fs : FileSystem) (path : Text) : Except SystemError Unit × FileSystem :=
  if path = [] then (.ok (), fs)
  else match fs.makeDirectory path with
    | .ok fs => (.ok (), fs)
    | .error .notFound =>
      match _h : Path.parent? path with
      | none => (.error .notFound, fs)
      | some parent =>
        match makeDirectories fs parent with
        | (.ok (), fs) => fs.ensureDirectory path
        | (.error e, fs) => (.error e, fs)
    | .error e => if fs.isDirectory path then (.ok (), fs) else (.error e, fs)
termination_by path.length
decreasing_by exact Path.length_parent?_lt (by assumption)

end ScenarioDocs.FileSystem
