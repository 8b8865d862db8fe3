import ScenarioDocs.Findings
import ScenarioDocs.Json.Reader

/-!
# Reading findings back

Turns the JSON form of findings back into findings. Members may stand in any
order and unknown ones are skipped; those of a record may be missing.
-/

namespace ScenarioDocs

namespace Json

def text? : Json → Option Text
  | .string t => some t
  | _ => none

def list? {α : Type} (item : Json → Option α) : Json → Option (List α)
  | .array items => items.mapM item
  | _ => none

def member? (key : Text) : Json → Option Json
  | .object members => members.lookup key
  | _ => none

/-- Reads a member; a missing one stands for `other`. -/
def memberOr {α : Type} (key : Text) (other : α) (read : Json → Option α) : Json → Option α
  | .object members => (members.lookup key).elim (some other) read
  | _ => none

end Json

open Json

def Flag.ofJson? (j : Json) : Option Flag := do
  let t ← j.text?
  [Flag.unset, .on, .off].find? (·.spelling = t)

def Scenario.ofJson? (j : Json) : Option Scenario := do
  return {
    name := ← j.memberOr "scenario" [] text?
    successStates := ← j.memberOr "successStates" [] (list? text?)
    failedStates := ← j.memberOr "failedStates" [] (list? text?)
    failureReason := ← j.memberOr "failureReason" [] text?
    initContainer := ← j.memberOr "hasInitContainer" .unset Flag.ofJson?
    volume := ← j.memberOr "hasVolume" .unset Flag.ofJson? }

def Scope.ofJson? (j : Json) : Option Scope := do
  return ⟨← (← j.member? "scope").text?, ← (← j.member? "records").list? Scenario.ofJson?⟩

def Skip.ofJson? (j : Json) : Option Skip := do
  return ⟨← (← j.member? "location").text?, ← (← j.member? "reason").text?⟩

namespace Findings

def ofJson? (j : Json) : Option Findings := do
  return ⟨← (← j.member? "scopes").list? Scope.ofJson?, ← (← j.member? "skipped").list? Skip.ofJson?⟩

def parse? (t : Text) : Option Findings := (Json.parse? t).bind ofJson?

end Findings

end ScenarioDocs
