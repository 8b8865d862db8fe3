import ScenarioDocs.Json.Basic
import ScenarioDocs.Text.Hex

/-!
# Writing JSON

One item or member a line, two spaces for every level; an empty array or
object stays on its line. Only quotes, backslashes and control characters
below U+0020 are escaped.
-/

namespace ScenarioDocs.Json

def escape (c : Char) : Text :=
  if c = '"' then "\\\""
  else if c = '\\' then "\\\\"
  else if c = '\x08' then "\\b"
  else if c = '\x0c' then "\\f"
  else if c = '\n' then "\\n"
  else if c = '\r' then "\\r"
  else if c = '\t' then "\\t"
  else if c.toNat < 0x10 then "\\u000" ++ Text.hex c.toNat
  else if c.toNat < 0x20 then "\\u00" ++ Text.hex c.toNat
  else [c]

def quote (t : Text) : Text := "\"" ++ t.flatMap escape ++ "\""

def newLine (level : Nat) : Text := '\n' :: List.replicate (2 * level) ' '

mutual

/-- Writes a value that starts on a line of this level. -/
def print (level : Nat) : Json → Text
  | .null => "null"
  | .bool true => "true"
  | .bool false => "false"
  | .number spelling => spelling
  | .string t => quote t
  | .array [] => "[]"
  | .array (item :: items) =>
    "[" ++ newLine (level + 1) ++ print (level + 1) item ++ printItems (level + 1) items ++
      newLine level ++ "]"
  | .object [] => "\x7b\x7d"
  | .object ((key, value) :: members) =>
    "\x7b" ++ newLine (level + 1) ++ quote key ++ ": " ++ print (level + 1) value ++
      printMembers (level + 1) members ++ newLine level ++ "\x7d"

def printItems (level : Nat) : List Json → Text
  | [] => []
  | item :: items => "," ++ newLine level ++ print level item ++ printItems level items

def printMembers (level : Nat) : List (Text × Json) → Text
  | [] => []
  | (key, value) :: members =>
    "," ++ newLine level ++ quote key ++ ": " ++ print level value ++ printMembers level members

end

def pretty (j : Json) : Text := print 0 j

end ScenarioDocs.Json
