import ScenarioDocs.FileSystem.Operations

/-!
# Listings

A listing names what lies below the current directory, one entry a line and
every directory before what is in it: `d` and a path, `f` and a path, or `l`,
a path, a tab and a target. From it and the bytes of the files a file system
is put together, and what a run changed can be told from the two of them.
-/

namespace ScenarioDocs

inductive Listed
  | directory (path : Text)
  | file (path : Text)
  | link (path target : Text)
  deriving DecidableEq

def Listed.ofLine? : Text → Option Listed
  | 'd' :: ' ' :: path => some (.directory path)
  | 'f' :: ' ' :: path => some (.file path)
  | 'l' :: ' ' :: rest =>
    some (.link (rest.takeWhile (· ≠ '\t')) ((rest.dropWhile (· ≠ '\t')).drop 1))
  | _ => none

/-- What has to be done outside to follow a run. -/
inductive Change
  | makeDirectory (path : Text)
  | store (path : Text) (bytes : Bytes)
  | remove (path : Text)
  deriving DecidableEq

namespace FileSystem

def locationOf (fs : FileSystem) (path : Text) : Location := fs.current.descend (steps path)

/-- Adds a listed entry; `bytes` matter for a file only. -/
def addListed (fs : FileSystem) (bytes : Bytes) : Listed → FileSystem
  | .directory path => fs.put (fs.locationOf path) .directory
  | .link path target => fs.put (fs.locationOf path) (.link target)
  | .file path =>
    let (id, fs) := fs.newFile (fs.locationOf path)
    fs.setBytes id bytes

def pathOf? (fs : FileSystem) (loc : Location) : Option Text :=
  (fs.current.stepsFrom? loc).map (Text.join ['/'])

def changeAt (old fs : FileSystem) (loc : Location) (path : Text) : Option Change :=
  match old.entry? loc, fs.entry? loc with
  | some .directory, some .directory => none
  | _, some .directory => some (.makeDirectory path)
  | some (.file id), some (.file id') =>
    if old.bytes id = fs.bytes id' then none else some (.store path (fs.bytes id'))
  | _, some (.file id) => some (.store path (fs.bytes id))
  | some (.file _), none => some (.remove path)
  | some (.link _), none => some (.remove path)
  | _, _ => none

/-- The changes that lead from `old` to `fs`: directories come before what is in them. -/
def changesSince (old fs : FileSystem) : List Change :=
  let here := fs.entries.reverse.map (·.1)
  let gone := (old.entries.map (·.1)).filter fun loc => !here.contains loc
  (here ++ gone).filterMap fun loc =>
    (fs.pathOf? loc).bind fun path => changeAt old fs loc path

end FileSystem

end ScenarioDocs
