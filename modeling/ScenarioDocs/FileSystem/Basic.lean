import ScenarioDocs.FileSystem.Location
import ScenarioDocs.FileSystem.SystemError
import ScenarioDocs.Path
import ScenarioDocs.Text.Utf8

/-!
# File systems

A file system maps locations to directories, files and symbolic links. A file
is an identity; its bytes and its lock belong to the identity, so two locations
may share them and a file that is removed and created again is another file.

Names are texts. A name whose bytes are not UTF-8 has no place here: it would be
shown with replacement characters, so that two such files could be told by one
path. Nor are there permissions or disks that fail. What is defined over a file
system fails only for what is in the tree; the calls that fail for other causes
are described where they matter, by `Refusals` for a search, by
`FileSink.Step` and `FileSink.Writes` for a document and by `Command.Inits` for
a configuration.
-/

namespace ScenarioDocs

abbrev FileId := Nat

inductive Entry
  | directory
  | file (id : FileId)
  /-- The target is a path, read from the directory that holds the link. -/
  | link (target : Text)
  deriving DecidableEq

structure FileSystem where
  entries : List (Location × Entry)
  contents : List (FileId × Bytes)
  /-- The identity of the next file to be created. -/
  next : FileId
  /-- The files that some open sink holds locked. -/
  locked : List FileId
  /-- The directory that relative paths start from. -/
  current : Location
  deriving DecidableEq

namespace FileSystem

/-- One empty directory below the root, which is the current one. -/
def fresh : FileSystem :=
  let work := Location.root.child "work"
  ⟨[(work, .directory)], [], 0, [], work⟩

/-- What is at a location. The root is always a directory. -/
def entry? (fs : FileSystem) (loc : Location) : Option Entry :=
  if loc = .root then some .directory else fs.entries.lookup loc

def put (fs : FileSystem) (loc : Location) (entry : Entry) : FileSystem :=
  { fs with entries := (loc, entry) :: fs.entries.filter (·.1 ≠ loc) }

def erase (fs : FileSystem) (loc : Location) : FileSystem :=
  { fs with entries := fs.entries.filter (·.1 ≠ loc) }

def bytes (fs : FileSystem) (id : FileId) : Bytes := (fs.contents.lookup id).getD []

def setBytes (fs : FileSystem) (id : FileId) (bs : Bytes) : FileSystem :=
  { fs with contents := (id, bs) :: fs.contents.filter (·.1 ≠ id) }

def newFile (fs : FileSystem) (loc : Location) : FileId × FileSystem :=
  (fs.next, { (fs.put loc (.file fs.next)).setBytes fs.next [] with next := fs.next + 1 })

/-- What is in a directory, in the byte order of the names. -/
def children (fs : FileSystem) (dir : Location) : List (Text × Entry) :=
  (fs.entries.filterMap fun (loc, entry) =>
    if loc.parent = dir then loc.name?.map (·, entry) else none).mergeSort
      fun a b => !decide (b.1 < a.1)

def depth (fs : FileSystem) : Nat := (fs.entries.map (·.1.depth)).foldl max 0

/-! ## Locks -/

def isLocked (fs : FileSystem) (id : FileId) : Bool := fs.locked.contains id

def lock (fs : FileSystem) (id : FileId) : FileSystem := { fs with locked := id :: fs.locked }

def unlock (fs : FileSystem) (id : FileId) : FileSystem :=
  { fs with locked := fs.locked.filter (· ≠ id) }

end FileSystem

end ScenarioDocs
