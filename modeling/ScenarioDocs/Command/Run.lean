import ScenarioDocs.Command.Request
import ScenarioDocs.Config
import ScenarioDocs.Discovery
import ScenarioDocs.Document.File

/-!
# Running a request

A run turns a file system into another and ends with an exit code and two
texts. Commands that only look give back the file system they got.
-/

namespace ScenarioDocs

open Text

structure Outcome where
  exit : Nat
  stdout : Text
  stderr : Text
  deriving DecidableEq

inductive Failure
  | said (message : Text)
  /-- An error, with what was being done when it came up. -/
  | failed (context : List Text) (e : Error)
  deriving DecidableEq

namespace Failure

/-- The message and those below it, outermost first. -/
def chain : Failure → List Text
  | .said message => [message]
  | .failed context e => context ++ [e.message] ++ (e.cause?.map (·.message)).toList

def hint? : Failure → Option Text
  | .said _ => none
  | .failed _ e => e.hint?

def report (f : Failure) : Text :=
  let hint : Text := match f.hint? with
    | some hint => "  hint: " ++ hint ++ "\n"
    | none => []
  "error: " ++ join ": " f.chain ++ "\n" ++ hint

end Failure

def Outcome.of (stdout : Text) : Except Failure Text → Outcome
  | .ok more => ⟨0, stdout ++ more, []⟩
  | .error f => ⟨1, stdout, f.report⟩

namespace Command

def line (t : Text) : Text := t ++ "\n"

/-! ## What every command but `init` does first -/

def configured (o : Overrides) (fs : FileSystem) : Except Failure Config :=
  match o.config with
  | some path =>
    (Config.loadFrom fs path).mapError fun f => .failed ["Failed to load " ++ path] f.error
  | none =>
    (Config.load fs ".").mapError fun f => .failed ["Failed to load " ++ Config.fileName] f.error

def Overrides.apply (o : Overrides) (c : Config) : Config where
  output.docName := o.docName.getD c.output.docName
  output.directory := o.outputDir.getD c.output.directory
  scan.paths := if o.paths = [] then c.scan.paths else o.paths
  scan.extensions := c.scan.extensions

def resolve (o : Overrides) (fs : FileSystem) : Except Failure Config := do
  let c := Overrides.apply o (← configured o fs)
  (c.validate).mapError fun f => .failed [] f.error
  return c

def collect (c : Config) (fs : FileSystem) : Except Failure Findings :=
  ((Collector.ofExtensions .standard c.scan.extensions).collect fs c.scan.paths).mapError
    (.failed ["Failed to collect scenario markers"])

def gather (o : Overrides) (fs : FileSystem) : Except Failure (Config × Findings) := do
  let c ← resolve o fs
  return (c, ← collect c fs)

/-! ## The commands -/

def init (force : Bool) (fs : FileSystem) : Except Failure Text × FileSystem :=
  if fs.pathExists (Path.join "." Config.fileName) ∧ ¬force then
    (.error (.said (Config.fileName ++ " already exists (use --force to overwrite)")), fs)
  else
    let c := Config.standard
    match c.save fs "." with
    | .error f => (.error (.failed ["Failed to write configuration"] f.error), fs)
    | .ok (path, fs) =>
      (.ok (line ("Wrote " ++ path) ++ line [] ++
        line ("  Document:  " ++ c.docPath) ++
        line ("  Scanning:  " ++ join ", " c.scan.paths) ++
        line ("  Extensions: " ++ join ", " c.scan.extensions)), fs)

def skipped (f : Findings) : Text :=
  f.skipped.flatMap fun s => line ("skipped " ++ s.location ++ ": " ++ s.reason)

def summary (path : Text) (r : Report) : Text :=
  line ("Wrote " ++ path ++ " (" ++ decimal r.records ++ " scenarios from " ++
    decimal r.scopes ++ " scopes, " ++ decimal r.failureRecords ++ " with failures)")

def store (path : Text) (scopes : List Scope) (fs : FileSystem) :
    Except Failure Report × FileSystem :=
  match FileSink.create path fs with
  | (.error e, fs) => (.error (.failed ["Failed to open " ++ path] e), fs)
  | (.ok s, fs) =>
    let (result, fs) := Document.render s.sink scopes fs
    (result.mapError (.failed ["Failed to write " ++ path]), s.close fs)

def generate (o : Overrides) (fs : FileSystem) : Outcome × FileSystem :=
  match gather o fs with
  | .error f => (.of [] (.error f), fs)
  | .ok (c, found) =>
    let (result, fs) := store c.docPath found.scopes fs
    (.of (skipped found) (result.map (summary c.docPath)), fs)

def check (o : Overrides) (fs : FileSystem) : Except Failure Text := do
  let (c, found) ← gather o fs
  let path := c.docPath
  match Document.status fs path found.scopes with
  | .error e => throw (.failed ["Failed to read " ++ path] e)
  | .ok .missing =>
    throw (.said (path ++ " does not exist. Run 'docgen generate' to create it."))
  | .ok .stale =>
    throw (.said (path ++ " is out of date. Run 'docgen generate' to refresh it."))
  | .ok .current =>
    return line ("✓ " ++ path ++ " is up to date (" ++ decimal found.count ++ " scenarios)")

def scan (o : Overrides) (format : Text) (fs : FileSystem) : Except Failure Text := do
  let (_, found) ← gather o fs
  if format = "json".toList then return line found.json.pretty
  else if format = "text".toList then
    let none : Text := if found.scopes = [] then line "No scenario markers found." else []
    return none ++ found.listing
  else throw (.said ("Unsupported format: " ++ format ++ ". Use 'json' or 'text'."))

/-! ## The program -/

def usage : Text :=
  line "Usage: docgen init [--force]" ++
    line "       docgen generate|check|scan [options]" ++
    line "Options:" ++
    line "  -c, --config <file>      configuration file" ++
    line "      --doc-name <name>    file name of the document" ++
    line "  -o, --output-dir <dir>   directory of the document" ++
    line "  -p, --path <path>        source path, dir/... for all below it; repeatable" ++
    line "      --format <format>    text or json, for scan"

def run (request : Request) (fs : FileSystem) : Outcome × FileSystem :=
  match request with
  | .help => (⟨0, usage, []⟩, fs)
  | .version => (⟨0, line "docgen 0.1.0", []⟩, fs)
  | .init force =>
    let (result, fs) := init force fs
    (.of [] result, fs)
  | .generate o => generate o fs
  | .check o => (.of [] (check o fs), fs)
  | .scan o format => (.of [] (scan o format fs), fs)

def execute (args : List Text) (fs : FileSystem) : Outcome × FileSystem :=
  match Request.parse? args with
  | none => (⟨2, [], usage⟩, fs)
  | some request => run request fs

end Command

end ScenarioDocs
