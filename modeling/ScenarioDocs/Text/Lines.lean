import ScenarioDocs.Text.Basic

/-!
# Lines

A line ends at a line feed; one carriage return just before the line feed
belongs to the line end. Text after the last line feed is a line of its own,
unless it is empty.
-/

namespace ScenarioDocs.Text

def dropReturn (line : Text) : Text :=
  (before? ['\r'] line).getD line

/-- Turns the parts between line feeds into lines. -/
def endLines : List Text → List Text
  | [] => []
  | [last] => if last.isEmpty then [] else [last]
  | line :: rest => dropReturn line :: endLines rest

def lines (t : Text) : List Text := endLines (pieces '\n' t)

end ScenarioDocs.Text
