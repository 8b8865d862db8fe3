import ScenarioDocs.Document.Block

/-!
# What a document shows

The part of a record that its block depends on. Flags that are unset and off
look the same, states show up joined, and a reason counts only with a failed
state.
-/

namespace ScenarioDocs

open Text

structure Shown where
  name : Text
  success : Text
  initContainer : Bool
  volume : Bool
  /-- The failed states and the reason. -/
  failure : Option (Text × Text)
  deriving DecidableEq

namespace Scenario

def shown (s : Scenario) : Shown where
  name := s.name
  success := join " -> " s.successStates
  initContainer := s.initContainer.isOn
  volume := s.volume.isOn
  failure := match s.mode with
    | .successOnly => none
    | .successAndFailure => some (join ", " s.failedStates, s.failureReason)

def texts (s : Scenario) : List Text :=
  s.name :: s.failureReason :: (s.successStates ++ s.failedStates)

def OneLine (s : Scenario) : Prop := ∀ t ∈ s.texts, '\n' ∉ t

instance (s : Scenario) : Decidable s.OneLine := List.decidableBAll ('\n' ∉ ·) s.texts

end Scenario

end ScenarioDocs
