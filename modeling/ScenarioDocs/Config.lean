import ScenarioDocs.Error
import ScenarioDocs.FileSystem.Operations
import ScenarioDocs.Text.Blank
import ScenarioDocs.Text.Quoted
import ScenarioDocs.Toml.Printer
import ScenarioDocs.Toml.Reader

/-!
# Configuration

Where the document goes and which sources are scanned. The configuration is a
TOML file; a table that is missing from it takes its default, one that is
there has to be complete.
-/

namespace ScenarioDocs

open Text

structure Output where
  docName : Text
  directory : Text
  deriving DecidableEq

structure Sources where
  paths : List Text
  extensions : List Text
  deriving DecidableEq

structure Config where
  output : Output
  scan : Sources
  deriving DecidableEq

inductive ConfigFault
  | emptyName
  | notFileName (name : Text)
  | noPaths
  | unreadable (cause : SystemError)
  | malformed
  | unwritable (cause : SystemError)
  deriving DecidableEq

def ConfigFault.reason : ConfigFault → Text
  | .emptyName => "output.doc_name must not be empty"
  | .notFileName name => "output.doc_name must be a file name, got " ++ quoted name
  | .noPaths => "scan.paths must list at least one path"
  | .unreadable cause => "failed to read config: " ++ cause.message
  | .malformed => "failed to parse config: not a valid configuration"
  | .unwritable cause => "failed to write config: " ++ cause.message

def ConfigFault.error (f : ConfigFault) : Error := .config f.reason

def Output.standard : Output := ⟨"PODStates.md", "docs"⟩

def Sources.standard : Sources := ⟨["./..."], ["go"]⟩

namespace Config

def fileName : Text := "docgen.toml"

def standard : Config := ⟨.standard, .standard⟩

def docPath (c : Config) : Text := Path.join c.output.directory c.output.docName

def validate (c : Config) : Except ConfigFault Unit :=
  let name := trim c.output.docName
  if name = [] then .error .emptyName
  else if name.any fun ch => ch = '/' || ch = '\\' then .error (.notFileName name)
  else if c.scan.paths = [] then .error .noPaths
  else .ok ()

/-! ## The file -/

def print (c : Config) : Text :=
  "[output]\n" ++
    Toml.printPair "doc_name" (Toml.printString c.output.docName) ++
    Toml.printPair "directory" (Toml.printString c.output.directory) ++
    "\n[scan]\n" ++
    Toml.printPair "paths" (Toml.printTexts c.scan.paths) ++
    Toml.printPair "extensions" (Toml.printTexts c.scan.extensions)

/-- A table gives its two fields by name, an array gives them in order. -/
def twoFields? (first second : Text) : Toml → Option (Toml × Toml)
  | .table fields => do return (← fields.lookup first, ← fields.lookup second)
  | .array (a :: b :: _) => some (a, b)
  | _ => none

def outputOf? (v : Toml) : Option Output := do
  let (docName, directory) ← twoFields? "doc_name" "directory" v
  return ⟨← docName.string?, ← directory.string?⟩

def sourcesOf? (v : Toml) : Option Sources := do
  let (paths, extensions) ← twoFields? "paths" "extensions" v
  return ⟨← paths.texts?, ← extensions.texts?⟩

def optional {α : Type} (standard : α) (read : Toml → Option α) : Option Toml → Option α
  | none => some standard
  | some v => read v

def ofToml? : Toml → Option Config
  | .table fields => do
    return ⟨← optional .standard outputOf? (fields.lookup "output".toList),
      ← optional .standard sourcesOf? (fields.lookup "scan".toList)⟩
  | _ => none

def parse? (t : Text) : Option Config := (Toml.parse? t).bind ofToml?

/-! ## Loading and saving -/

def loadFrom (fs : FileSystem) (path : Text) : Except ConfigFault Config :=
  match fs.readText path with
  | .error e => .error (.unreadable e)
  | .ok t =>
    match parse? t with
    | none => .error .malformed
    | some c => c.validate.map fun _ => c

/-- Loads the configuration of a directory; without a file it is the standard one. -/
def load (fs : FileSystem) (root : Text) : Except ConfigFault Config :=
  let path := Path.join root fileName
  if fs.pathExists path then loadFrom fs path else .ok standard

def save (c : Config) (fs : FileSystem) (root : Text) :
    Except ConfigFault (Text × FileSystem) :=
  let path := Path.join root fileName
  match fs.write path (Utf8.encode c.print) with
  | .ok fs => .ok (path, fs)
  | .error e => .error (.unwritable e)

end Config

end ScenarioDocs
