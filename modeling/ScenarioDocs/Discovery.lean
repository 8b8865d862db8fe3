import ScenarioDocs.FileSystem.Lookup
import ScenarioDocs.Findings

/-!
# Discovery

Collects the markers below source paths. Every directory is one scope; files
are read in the order of their names, each only once however it is reached. A
recursive path visits a directory before its subdirectories, and these in the
order of their names; links to directories are not entered.

Everything is reached by its path from the source path, which also labels what
is found; names are UTF-8. A file whose path is too long or goes through too
many links, or that the system does not show, is passed over; a directory whose
path is too long, or a directory or file that the system does not open, ends
the search. What was read before is recognised by its location, and a location
whose own path is too long ends the search as well.
-/

namespace ScenarioDocs

open Text

/-! ## Source paths -/

structure SourcePath where
  root : Text
  recursive : Bool
  deriving DecidableEq

/-- Reads a source path: a trailing `...` and the slashes before it make it recursive. -/
def SourcePath.ofSpec (spec : Text) : SourcePath :=
  let spec := dropAround (· = '"') (trim spec)
  match before? "..." spec with
  | none => ⟨spec, false⟩
  | some base =>
    let base := dropEndWhile (fun c => c = '/' || c = '\\') base
    ⟨if base = [] then "." else base, true⟩

/-! ## Walking directories -/

def isSkippedDirectory (name : Text) : Bool :=
  name.head? = some '.' || name.head? = some '_' ||
    (["testdata", "vendor", "node_modules", "target"] : List Text).contains name

structure Visit where
  path : Text
  loc : Location
  deriving DecidableEq

def Visit.child (v : Visit) (name : Text) : Visit := ⟨Path.join v.path name, v.loc.child name⟩

/-- A file with the path by which it is read. -/
abbrev SourceFile := Text × Location × FileId

namespace FileSystem

def subdirectories (fs : FileSystem) (v : Visit) : List Visit :=
  (fs.children v.loc).filterMap fun (name, entry) =>
    if entry = .directory ∧ ¬isSkippedDirectory name then some (v.child name) else none

def visits (fs : FileSystem) : (levels : Nat) → Visit → List Visit
  | 0, v => [v]
  | levels + 1, v => v :: (fs.subdirectories v).flatMap (fs.visits levels)

def fileAt? (fs : FileSystem) (v : Visit) : Entry → Option (Location × FileId)
  | .directory => none
  | .file id => if isTooLong v.path then none else some (v.loc, id)
  | .link _ =>
    match fs.find v.path with
    | .ok (loc, .file id) => some (loc, id)
    | _ => none

/-- The files of a directory that have one of the extensions, in the order of their names. -/
def sourceFiles (fs : FileSystem) (extensions : List Text) (v : Visit) : List SourceFile :=
  (fs.children v.loc).filterMap fun (name, entry) =>
    match fs.fileAt? (v.child name) entry, Path.extension? name with
    | some file, some e =>
      if extensions.contains e then some ((v.child name).path, file) else none
    | _, _ => none

end FileSystem

/-! ## Refusals -/

/-- What the system is asked about a path. -/
inductive Call
  /-- Whether it leads anywhere, and whether to a file. -/
  | look
  /-- Which directories are in the one it leads to. -/
  | enter
  /-- Which location it leads to. -/
  | resolve
  /-- What is in the directory it leads to. -/
  | list
  | read
  deriving DecidableEq

/-- The calls that fail though nothing in the tree is in their way: a permission is missing, a disk
fails, or a location on the way cannot be spelled. -/
def Refusals := Call → Text → Option SystemError

namespace Refusals

def nothing : Refusals := fun _ _ => none

variable (refused : Refusals)

def ask (call : Call) (path : Text) : Except SystemError Unit :=
  match refused call path with
  | none => .ok ()
  | some e => .error e

/-- Lists directories one after the other, to see which are below them. -/
def enterAll : List Visit → Except SystemError Unit
  | [] => .ok ()
  | v :: dirs =>
    if FileSystem.isTooLong v.path then .error .nameTooLong
    else do
      refused.ask .enter v.path
      enterAll dirs

/-- Recognises files one after the other, and opens those that were not seen before. -/
def openAll (seen : List Location) : List SourceFile → Except SystemError Unit
  | [] => .ok ()
  | (path, loc, _) :: files =>
    if FileSystem.isTooLong loc.path then .error .nameTooLong
    else do
      refused.ask .resolve path
      if seen.contains loc then openAll seen files
      else
        refused.ask .read path
        openAll (loc :: seen) files

end Refusals

/-! ## Collecting -/

structure Search where
  findings : Findings
  visited : List Location
  seen : List Location
  deriving DecidableEq

structure Collector where
  scanner : Scanner
  extensions : List Text

namespace Collector

def ofExtensions (scanner : Scanner) (extensions : List Text) : Collector :=
  ⟨scanner, extensions.map fun e => e.dropWhile (· = '.')⟩

variable (c : Collector) (refused : Refusals) (fs : FileSystem)

def scanFiles (seen : List Location) : List SourceFile → Found × List Location
  | [] => (⟨[], []⟩, seen)
  | (path, loc, id) :: files =>
    if seen.contains loc then scanFiles seen files
    else
      let found := c.scanner.scan (Utf8.decodeLossy (fs.bytes id)) path
      let (rest, seen) := scanFiles (loc :: seen) files
      (⟨found.scenarios ++ rest.scenarios, found.skipped ++ rest.skipped⟩, seen)

def addFiles (s : Search) (scope : Text) (files : List SourceFile) : Search :=
  let (found, seen) := c.scanFiles fs s.seen files
  { s with findings := s.findings.add scope found, seen := seen }

def filesIn (v : Visit) : List SourceFile :=
  (fs.sourceFiles c.extensions v).filter fun f => (refused .look f.1).isNone

/-- Reads a directory unless it was visited before; what was visited has a path that is short enough. -/
def visit (s : Search) (v : Visit) : Except SystemError Search :=
  if FileSystem.isTooLong v.path then .error .nameTooLong
  else do
    refused.ask .resolve v.path
    if s.visited.contains v.loc then return s
    else if FileSystem.isTooLong v.loc.path then throw .nameTooLong
    else
      refused.ask .list v.path
      refused.openAll s.seen (c.filesIn refused fs v)
      return c.addFiles fs { s with visited := v.loc :: s.visited } v.path (c.filesIn refused fs v)

def collectPath (s : Search) (path : SourcePath) : Except Error Search :=
  match refused .look path.root, fs.find path.root with
  | some _, _ | none, .error _ => .error (.sourceNotFound path.root)
  | none, .ok (loc, .file id) =>
    let files := [(path.root, loc, id)]
    ((refused.openAll s.seen files).map fun _ =>
      c.addFiles fs s ((Path.parent? path.root).getD []) files).mapError .system
  | none, .ok (loc, _) =>
    let root : Visit := ⟨path.root, loc⟩
    let dirs := if path.recursive then fs.visits fs.depth root else [root]
    let entered := if path.recursive then refused.enterAll dirs else .ok ()
    (entered >>= fun _ => dirs.foldlM (c.visit refused fs) s).mapError .system

def collectPaths : Search → List SourcePath → Except Error Search
  | s, [] => .ok s
  | s, path :: paths =>
    match c.collectPath refused fs s path with
    | .ok s => collectPaths s paths
    | .error e => .error e

def collectUnder (specs : List Text) : Except Error Findings :=
  (c.collectPaths refused fs ⟨.empty, [], []⟩ (specs.map .ofSpec)).map (·.findings)

/-- Collects where nothing but the tree itself is in the way. -/
def collect (specs : List Text) : Except Error Findings := c.collectUnder .nothing fs specs

end Collector

end ScenarioDocs
