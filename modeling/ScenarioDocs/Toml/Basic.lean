import ScenarioDocs.Text.Basic

/-!
# TOML values

Numbers with a fraction and points in time are kept as they are spelled.
-/

namespace ScenarioDocs

inductive Toml
  | string (t : Text)
  | integer (n : Int)
  | float (spelling : Text)
  | boolean (b : Bool)
  | moment (spelling : Text)
  | array (items : List Toml)
  | table (fields : List (Text × Toml))

namespace Toml

def string? : Toml → Option Text
  | .string t => some t
  | _ => none

def texts? : Toml → Option (List Text)
  | .array items => items.mapM string?
  | _ => none

/-! ## Characters -/

/-- Control characters may not stand in a text as they are, tabs excepted. -/
def isPlain (c : Char) : Bool := c = '\t' || 0x20 ≤ c.toNat && c.toNat ≠ 0x7F

def isSpace (c : Char) : Bool := c = ' ' || c = '\t'

def skipSpaces (s : Text) : Text := s.dropWhile isSpace

end Toml

end ScenarioDocs
