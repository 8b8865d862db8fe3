import ScenarioDocs.Scenario
import ScenarioDocs.Text.Lines

/-!
# Markers in source text

A marker is a line comment whose text starts with `+`. Every line that
resolves to the pod schema gives one scenario or, if it cannot be decoded, one
skip; no line affects another.
-/

namespace ScenarioDocs

open Text

def markerBody? (line : Text) : Option Text := do
  let comment ← List.isPrefixOf? "//".toList (trimStart line)
  let body ← List.isPrefixOf? "+".toList (trimStart comment)
  return trimEnd body

structure Skip where
  location : Text
  reason : Text
  deriving DecidableEq

structure Scanner where
  registry : Registry
  shape : Shape
  holds : registry.get? Scenario.schemaName = some shape

structure Found where
  scenarios : List Scenario
  skipped : List Skip
  deriving DecidableEq

namespace Scanner

def ofRegistry (r : Registry) : Except Error Scanner :=
  match h : r.get? Scenario.schemaName with
  | some shape => .ok ⟨r, shape, h⟩
  | none => .error (.unknownSchema Scenario.schemaName)

def standard : Scanner := ⟨.standard, Scenario.shape, rfl⟩

def podArguments? (s : Scanner) (line : Text) : Option Text := do
  let body ← markerBody? line
  let resolved ← s.registry.resolve? body
  if resolved.name = Scenario.schemaName then some resolved.arguments else none

def readLine (s : Scanner) (label : Text) (number : Nat) (line : Text) :
    Option (Except Skip Scenario) :=
  (s.podArguments? line).map fun arguments =>
    match s.shape.annotate Scenario.schemaName arguments with
    | .ok a => .ok (.ofDecoded a)
    | .error m => .error ⟨label ++ ":" ++ decimal number, m.reason⟩

def readLines (s : Scanner) (label : Text) (start : Nat) (ls : List Text) :
    List (Except Skip Scenario) :=
  (ls.zipIdx start).filterMap fun (line, number) => s.readLine label number line

/-- Scans a text; `label` names it in the locations of skips. -/
def scan (s : Scanner) (text label : Text) : Found :=
  let outcomes := s.readLines label 1 (lines text)
  { scenarios := outcomes.filterMap fun o => match o with | .ok r => some r | .error _ => none
    skipped := outcomes.filterMap fun o => match o with | .ok _ => none | .error e => some e }

end Scanner

end ScenarioDocs
