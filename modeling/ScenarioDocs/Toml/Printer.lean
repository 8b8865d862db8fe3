import ScenarioDocs.Text.Hex
import ScenarioDocs.Toml.Basic

/-!
# Writing TOML strings and arrays

A string is written in the first form that needs nothing but tabs escaped:
double quotes, single quotes, three double quotes or three single quotes. If
there is none, it is written in double quotes with escapes.
-/

namespace ScenarioDocs.Toml

def isControl (c : Char) : Bool :=
  c.toNat < 0x20 && c ≠ '\t' && c ≠ '\n' || c.toNat = 0x7F

def hasTriple (quote : Char) : Text → Bool
  | a :: b :: c :: s => (a = quote && b = quote && c = quote) || hasTriple quote (b :: c :: s)
  | _ => false

/-- A line feed inside a string makes it start on a line of its own. -/
def lineStart (t : Text) : Text := if t.contains '\n' then ['\n'] else []

def upperHex (n : Nat) : Text := (Text.hex n).map Char.toUpper

def escapeControl (c : Char) : Text :=
  if c = '\x08' then "\\b"
  else if c = '\t' then "\\t"
  else if c = '\x0c' then "\\f"
  else if c = '\r' then "\\r"
  else if c = '\\' then "\\\\"
  else if c.toNat < 0x10 then "\\u000" ++ upperHex c.toNat
  else if c.toNat < 0x20 || c.toNat = 0x7F then "\\u00" ++ upperHex c.toNat
  else [c]

/-- For one line: every quote and line feed is escaped. -/
def escapeShort (t : Text) : Text :=
  t.flatMap fun c => if c = '"' then "\\\"" else if c = '\n' then "\\n" else escapeControl c

/-- For several lines: line feeds stay, and of the quotes in a row every third is escaped. -/
def escapeLong : (quotes : Nat) → Text → Text
  | _, [] => []
  | quotes, c :: s =>
    if c = '"' then
      if quotes = 2 then "\\\"" ++ escapeLong 0 s else '"' :: escapeLong (quotes + 1) s
    else if c = '\n' then '\n' :: escapeLong 0 s
    else escapeControl c ++ escapeLong 0 s

def shortBasic (t : Text) : Text := "\"" ++ escapeShort t ++ "\""

def shortLiteral (t : Text) : Text := "'" ++ t ++ "'"

def longBasic (t : Text) : Text := "\"\"\"" ++ lineStart t ++ escapeLong 0 t ++ "\"\"\""

def longLiteral (t : Text) : Text := "'''" ++ lineStart t ++ t ++ "'''"

def printString (t : Text) : Text :=
  let control := t.any isControl
  let newLine := t.contains '\n'
  let backslash := t.contains '\\'
  if ¬control ∧ ¬newLine ∧ ¬t.contains '"' ∧ ¬backslash then shortBasic t
  else if ¬control ∧ ¬newLine ∧ ¬t.contains '\'' then shortLiteral t
  else if ¬control ∧ ¬backslash ∧ ¬hasTriple '"' t then longBasic t
  else if ¬control ∧ ¬hasTriple '\'' t then longLiteral t
  else if newLine then longBasic t
  else shortBasic t

def printItem (t : Text) : Text := "    " ++ printString t ++ ",\n"

/-- Writes an array of strings: up to one item on the line, more on lines of their own. -/
def printTexts : List Text → Text
  | [] => "[]"
  | [t] => "[" ++ printString t ++ "]"
  | ts => "[\n" ++ ts.flatMap printItem ++ "]"

def printPair (key value : Text) : Text := key ++ " = " ++ value ++ "\n"

end ScenarioDocs.Toml
