import ScenarioDocs.Json.Printer
import ScenarioDocs.Source

/-!
# Findings

What a run found: scopes with their records, and the markers it had to skip.
They can be listed as plain text or as JSON.
-/

namespace ScenarioDocs

open Text

structure Findings where
  scopes : List Scope
  skipped : List Skip
  deriving DecidableEq

namespace Findings

def empty : Findings := ⟨[], []⟩

def count (f : Findings) : Nat := (f.scopes.flatMap (·.scenarios)).length

def addToScopes (name : Text) (scenarios : List Scenario) : List Scope → List Scope
  | [] => [⟨name, scenarios⟩]
  | scope :: scopes =>
    if scope.name = name then { scope with scenarios := scope.scenarios ++ scenarios } :: scopes
    else scope :: addToScopes name scenarios scopes

def add (f : Findings) (scope : Text) (found : Found) : Findings where
  scopes := if found.scenarios.isEmpty then f.scopes else addToScopes scope found.scenarios f.scopes
  skipped := f.skipped ++ found.skipped

/-! ## Plain text -/

def scenarioLine (s : Scenario) : Text :=
  let failed : Text :=
    if s.failedStates.isEmpty then [] else " [fails: " ++ join ", " s.failedStates ++ "]"
  "  - " ++ s.name ++ ": " ++ join " -> " s.successStates ++ failed ++ "\n"

def scopeLines (scope : Scope) : Text :=
  scope.name ++ " (" ++ decimal scope.scenarios.length ++ " scenarios)\n" ++
    scope.scenarios.flatMap scenarioLine

def skipLine (s : Skip) : Text := "  " ++ s.location ++ ": " ++ s.reason ++ "\n"

def listing (f : Findings) : Text :=
  let skips : Text :=
    if f.skipped.isEmpty then []
    else "skipped " ++ decimal f.skipped.length ++ " malformed markers\n" ++
      f.skipped.flatMap skipLine
  f.scopes.flatMap scopeLines ++ skips

/-! ## JSON -/

def scenarioJson (s : Scenario) : Json := .object [
  ("scenario", .string s.name),
  ("successStates", .texts s.successStates),
  ("failedStates", .texts s.failedStates),
  ("failureReason", .string s.failureReason),
  ("hasInitContainer", .string s.initContainer.spelling),
  ("hasVolume", .string s.volume.spelling)]

def scopeJson (scope : Scope) : Json := .object [
  ("scope", .string scope.name),
  ("records", .array (scope.scenarios.map scenarioJson))]

def skipJson (s : Skip) : Json := .object [
  ("location", .string s.location),
  ("reason", .string s.reason)]

def json (f : Findings) : Json := .object [
  ("scopes", .array (f.scopes.map scopeJson)),
  ("skipped", .array (f.skipped.map skipJson))]

end Findings

end ScenarioDocs
