import ScenarioDocs.Document.PodSpec
import ScenarioDocs.Scenario

/-!
# The document

A fixed heading, then one block for every record in scope order. Nothing is
sorted, left out or dated, so equal records give equal documents.
-/

namespace ScenarioDocs

open Text

namespace Document

def title : Text := "POD CONDITION TESTS"

def heading : Text := "# " ++ title ++ "\n\n"

/-- The end of a block: the failure section, or the blank lines in its place. -/
def outcome (s : Scenario) : Text :=
  match s.mode with
  | .successOnly => "\n\n"
  | .successAndFailure =>
    "- Fails to transition to **" ++ join ", " s.failedStates ++ "** states\n\n" ++
      "**Reason for failure**: " ++ s.failureReason ++ "\n"

def block (s : Scenario) : Text :=
  "### Scenario: " ++ s.name ++ "\n\n**PodSpec**:\n```sh\n" ++
    PodSpec.render s.initContainer.isOn s.volume.isOn ++ "\n```\n\n" ++
    "- For the above pod spec, pod successfully transitions to **" ++
    join " -> " s.successStates ++ "** states\n" ++ outcome s

def ofScenarios (scenarios : List Scenario) : Text := heading ++ scenarios.flatMap block

def scenarios (scopes : List Scope) : List Scenario := scopes.flatMap (·.scenarios)

end Document

end ScenarioDocs
