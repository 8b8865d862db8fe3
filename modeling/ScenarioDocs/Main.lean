import ScenarioDocs.Command.Run
import ScenarioDocs.FileSystem.Listing

/-!
# The program

Runs one request on the current directory. Standard input is the listing of
what is in it. The run itself is pure; what it changed is stored afterwards.
-/

namespace ScenarioDocs.Program

/-- Reads the listing and the files it names. -/
partial def load (input : IO.FS.Stream) (fs : FileSystem) : IO FileSystem := do
  let line ← input.getLine
  if line.isEmpty then return fs
  let line : Text := (Text.before? ['\n'] line).getD line
  match Listed.ofLine? line with
  | none => load input fs
  | some (.file path) =>
    let bytes ← IO.FS.readBinFile (String.ofList path)
    load input (fs.addListed bytes.toList (.file path))
  | some item => load input (fs.addListed [] item)

/-- Stores a change; a file is written beside its path and then moved there. -/
def apply : Change → IO Unit
  | .makeDirectory path => IO.FS.createDirAll (String.ofList path)
  | .store path bytes => do
    let temp := String.ofList (FileSink.tempPath path)
    IO.FS.writeBinFile temp ⟨bytes.toArray⟩
    IO.FS.rename temp (String.ofList path)
  | .remove path => IO.FS.removeFile (String.ofList path)

end ScenarioDocs.Program

open ScenarioDocs in
def main (args : List String) : IO UInt32 := do
  let fs ← Program.load (← IO.getStdin) .fresh
  let (outcome, after) := Command.execute (args.map String.toList) fs
  for change in fs.changesSince after do
    Program.apply change
  IO.print (String.ofList outcome.stdout)
  IO.eprint (String.ofList outcome.stderr)
  return UInt32.ofNat outcome.exit
