import ScenarioDocs.FileSystem.Basic

/-!
# Following a path

A path is walked name by name from the root or the current directory. Every
name but the last must lead to a directory; symbolic links on the way are
followed, at most `linkLimit` of them.
-/

namespace ScenarioDocs

/-- What to do with the last name of a path. -/
inductive LastName
  /-- Look at what it leads to, through links. -/
  | follow
  /-- Look at the entry itself, even if it is a link. -/
  | entry
  /-- Like `follow`, for opening a file that may have to be created. -/
  | create
  deriving DecidableEq

/-- Where a path leads. -/
inductive Place
  /-- To a directory, but not by its name: the path ends in `.` or `..` or is the root. -/
  | unnamed (loc : Location)
  | taken (loc : Location) (entry : Entry)
  /-- To a free name in a directory. -/
  | free (loc : Location)
  deriving DecidableEq

namespace FileSystem

/-- A name has at most this many bytes. -/
def nameLimit : Nat := 255

/-- A path has less than this many bytes. -/
def pathLimit : Nat := 4096

def linkLimit : Nat := 40

def isTooLong (path : Text) : Bool := pathLimit ≤ (Utf8.encode path).length

def steps (path : Text) : List Text := (Text.pieces '/' path).filter (· ≠ [])

def endsInSlash (path : Text) : Bool := path.getLast? = some '/'

/-- Walks `steps` from the directory `dir`; `slash` tells whether a slash comes after the last. -/
def walk (fs : FileSystem) (mode : LastName) :
    (links : Nat) → (dir : Location) → (steps : List Text) → (slash : Bool) →
      Except SystemError Place
  | _, dir, [], _ => .ok (.unnamed dir)
  | links, dir, step :: rest, slash =>
    if step = ['.'] then walk fs mode links dir rest slash
    else if step = ['.', '.'] then walk fs mode links dir.parent rest slash
    else if rest = [] ∧ mode = .create ∧ slash then .error .isDirectory
    else if nameLimit < (Utf8.encode step).length then .error .nameTooLong
    else
      let loc := dir.child step
      match fs.entry? loc with
      | none => if rest = [] then .ok (.free loc) else .error .notFound
      | some .directory =>
        if rest = [] then .ok (.taken loc .directory) else walk fs mode links loc rest slash
      | some (.file id) =>
        if rest = [] ∧ (mode = .entry ∨ ¬slash) then .ok (.taken loc (.file id))
        else .error .notDirectory
      | some (.link target) =>
        if rest = [] ∧ mode = .entry then .ok (.taken loc (.link target))
        else match links with
          | 0 => .error .tooManyLinks
          | links + 1 =>
            walk fs mode links (if Path.isAbsolute target then .root else dir) (steps target ++ rest)
              (slash || rest = [] && endsInSlash target)
termination_by links _ steps _ => (links, steps.length)

def resolve (fs : FileSystem) (mode : LastName) (path : Text) : Except SystemError Place :=
  if path.contains '\x00' then .error .nulInPath
  else if path = [] then .error .notFound
  else if isTooLong path then .error .nameTooLong
  else fs.walk mode linkLimit (if Path.isAbsolute path then .root else fs.current) (steps path)
    (endsInSlash path)

def find (fs : FileSystem) (path : Text) : Except SystemError (Location × Entry) := do
  match ← fs.resolve .follow path with
  | .unnamed loc => return (loc, .directory)
  | .taken loc entry => return (loc, entry)
  | .free _ => throw .notFound

def pathExists (fs : FileSystem) (path : Text) : Bool := (fs.find path).isOk

def isDirectory (fs : FileSystem) (path : Text) : Bool :=
  match fs.find path with
  | .ok (_, .directory) => true
  | _ => false

/-- The directory that a path stands for; the empty path is the current one. -/
def directory? (fs : FileSystem) (path : Text) : Option Location :=
  match fs.find (if path = [] then ['.'] else path) with
  | .ok (dir, .directory) => some dir
  | _ => none

def fileIn? (fs : FileSystem) (dir : Location) (name : Text) : Option (Location × FileId) :=
  match fs.walk .follow linkLimit dir [name] false with
  | .ok (.taken loc (.file id)) => some (loc, id)
  | _ => none

end FileSystem

end ScenarioDocs
