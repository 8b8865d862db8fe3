import ScenarioDocs.FileSystem.SystemError

/-!
# Errors

Every way in which a run can end early, with its message and, for those a user
can do something about, a hint.
-/

namespace ScenarioDocs

inductive Error
  | duplicateSchema (name : Text)
  | unknownSchema (name : Text)
  | decode (location reason : Text)
  | write (path : Text) (cause : SystemError)
  | locked (path : Text)
  | sourceNotFound (path : Text)
  | serialization (reason : Text)
  | config (reason : Text)
  | system (cause : SystemError)
  deriving DecidableEq

namespace Error

def message : Error → Text
  | .duplicateSchema name => "schema already registered: " ++ name
  | .unknownSchema name => "unknown schema: " ++ name
  | .decode location reason => "malformed marker at " ++ location ++ ": " ++ reason
  | .write path cause => "failed to write document " ++ path ++ ": " ++ cause.message
  | .locked path => "document locked by another process: " ++ path
  | .sourceNotFound path => "source path not found: " ++ path
  | .serialization reason => "serialization error: " ++ reason
  | .config reason => "configuration error: " ++ reason
  | .system cause => "I/O error: " ++ cause.message

def cause? : Error → Option SystemError
  | .write _ cause => some cause
  | .system cause => some cause
  | _ => none

def hint? : Error → Option Text
  | .decode .. => some "Check the marker syntax: key=value pairs, lists as \x7ba,b\x7d or a;b."
  | .locked _ => some "Another docgen run is writing this document; wait for it to finish."
  | .sourceNotFound _ => some "Check the `paths` entry in docgen.toml or the --path flag."
  | .config _ => some "Run 'docgen init' to write a fresh docgen.toml."
  | .write .. => some
      "The last successfully written snapshot is still in place; fix the target and rerun."
  | _ => none

end Error

end ScenarioDocs
