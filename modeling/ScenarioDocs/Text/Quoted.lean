import ScenarioDocs.Text.Hex
import ScenarioDocs.Text.Hidden

/-!
# Quoted texts

A text in double quotes for a message. What would not show is written as an
escape, so that two different texts never look alike.
-/

namespace ScenarioDocs.Text

def quoteChar (c : Char) : Text :=
  if c = '\x00' then "\\0"
  else if c = '\t' then "\\t"
  else if c = '\n' then "\\n"
  else if c = '\r' then "\\r"
  else if c = '"' then "\\\""
  else if c = '\\' then "\\\\"
  else if isHidden c then "\\u\x7b" ++ hex c.toNat ++ "\x7d"
  else [c]

def quoted (t : Text) : Text := "\"" ++ t.flatMap quoteChar ++ "\""

end ScenarioDocs.Text
