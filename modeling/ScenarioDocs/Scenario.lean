import ScenarioDocs.Schema.Registry

/-!
# Pod scenarios

The record that a pod marker describes, the marker's schema, and the scopes
that records are grouped in.
-/

namespace ScenarioDocs

/-- A switch given as free text: only `true` turns it on. -/
inductive Flag
  /-- The marker does not mention it. -/
  | unset
  | on
  | off
  deriving DecidableEq

namespace Flag

def ofText (t : Text) : Flag := if t = "true".toList then .on else .off

def ofBool (b : Bool) : Flag := if b then .on else .off

def isOn : Flag → Bool
  | .on => true
  | _ => false

def spelling : Flag → Text
  | .unset => "unset"
  | .on => "true"
  | .off => "false"

end Flag

structure Scenario where
  name : Text
  successStates : List Text
  failedStates : List Text
  failureReason : Text
  initContainer : Flag
  volume : Flag
  deriving DecidableEq

inductive Mode
  | successOnly
  | successAndFailure
  deriving DecidableEq

namespace Scenario

def blank : Scenario := ⟨[], [], [], [], .unset, .unset⟩

def ofSuccess (name : Text) (states : List Text) : Scenario :=
  { blank with name := name, successStates := states }

def withFailure (s : Scenario) (states : List Text) (reason : Text) : Scenario :=
  { s with failedStates := states, failureReason := reason }

def withInitContainer (s : Scenario) (enabled : Bool) : Scenario :=
  { s with initContainer := .ofBool enabled }

def withVolume (s : Scenario) (enabled : Bool) : Scenario :=
  { s with volume := .ofBool enabled }

/-- The failed states alone decide; a reason without them does not count. -/
def mode (s : Scenario) : Mode :=
  if s.failedStates.isEmpty then .successOnly else .successAndFailure

def schemaName : Text := "docgenerator:pod"

def shape : Shape := ⟨[
  ⟨"scenario", .text⟩, ⟨"successStates", .list⟩, ⟨"failedStates", .list⟩,
  ⟨"failureReason", .text⟩, ⟨"hasInitContainer", .text⟩, ⟨"hasVolume", .text⟩]⟩

def ofDecoded (a : Decoded) : Scenario where
  name := (a.text? "scenario").getD []
  successStates := a.list "successStates"
  failedStates := a.list "failedStates"
  failureReason := (a.text? "failureReason").getD []
  initContainer := ((a.text? "hasInitContainer").map Flag.ofText).getD .unset
  volume := ((a.text? "hasVolume").map Flag.ofText).getD .unset

end Scenario

def Registry.standard : Registry := ⟨[(Scenario.schemaName, Scenario.shape)], by simp⟩

/-- The records found in one directory, in the order they were found. -/
structure Scope where
  name : Text
  scenarios : List Scenario
  deriving DecidableEq

end ScenarioDocs
