import ScenarioDocs.Text.Blank

/-!
# Marker arguments

What stands after a marker's name: `key=value` pairs, a value being one text
or a list of texts, and the ways in which such a text can be malformed.
-/

namespace ScenarioDocs.Marker

inductive Value
  | text (t : Text)
  | list (items : List Text)
  deriving DecidableEq

structure Argument where
  key : Text
  value : Value
  deriving DecidableEq

/-- Offsets count the characters of the argument text from its start. -/
inductive Fault
  /-- After a value comes neither a comma nor the end. -/
  | unexpected (found : Char) (offset : Nat)
  /-- The key that starts here has no `=` after it. -/
  | missingEquals (offset : Nat)
  /-- Only blanks stand before the `=`. -/
  | emptyKey (offset : Nat)
  | openList
  | openString (offset : Nat)
  deriving DecidableEq

def Fault.message : Fault → Text
  | .unexpected c n => "unexpected `" ++ [c] ++ "` at offset " ++ Text.decimal n
  | .missingEquals n => "expected `key=value` at offset " ++ Text.decimal n
  | .emptyKey n => "empty key at offset " ++ Text.decimal n
  | .openList => "unterminated list, expected `\x7d`"
  | .openString n => "unterminated string starting at offset " ++ Text.decimal n

end ScenarioDocs.Marker
