import ScenarioDocs.Json.Basic
import ScenarioDocs.Text.Hex

/-!
# Reading JSON

Reads any JSON text. Readers give the value and what follows it; loops stop
unless they get ahead, which readers always do. A code point above U+FFFF may
be escaped as two units, and half of such a pair is refused.
-/

namespace ScenarioDocs.Json

def isSpace (c : Char) : Bool := c = ' ' || c = '\t' || c = '\n' || c = '\r'

def skipSpaces (s : Text) : Text := s.dropWhile isSpace

/-! ## Strings -/

def readSecondUnit (first : Nat) : Text → Option (Char × Text)
  | '\\' :: 'u' :: s => do
    let (second, rest) ← Text.readHex 4 s
    if 0xDC00 ≤ second ∧ second ≤ 0xDFFF then
      return (Char.ofNat (0x10000 + (first - 0xD800) * 0x400 + (second - 0xDC00)), rest)
    else none
  | _ => none

def readUnits (s : Text) : Option (Char × Text) := do
  let (n, rest) ← Text.readHex 4 s
  if n.isValidChar then return (Char.ofNat n, rest)
  else if n ≤ 0xDBFF then readSecondUnit n rest
  else none

def readEscape : Text → Option (Char × Text)
  | '"' :: s => some ('"', s)
  | '\\' :: s => some ('\\', s)
  | '/' :: s => some ('/', s)
  | 'b' :: s => some ('\x08', s)
  | 'f' :: s => some ('\x0c', s)
  | 'n' :: s => some ('\n', s)
  | 'r' :: s => some ('\r', s)
  | 't' :: s => some ('\t', s)
  | 'u' :: s => readUnits s
  | _ => none

def readString (s : Text) : Option (Text × Text) :=
  match s with
  | [] => none
  | '"' :: rest => some ([], rest)
  | '\\' :: r =>
    match readEscape r with
    | none => none
    | some (c, r') =>
      if _h : r'.length ≤ r.length then (readString r').map fun (t, rest) => (c :: t, rest)
      else none
  | c :: r =>
    if c.toNat < 0x20 then none else (readString r).map fun (t, rest) => (c :: t, rest)
termination_by s.length
decreasing_by
  · simp only [List.length_cons]
    omega
  · simp

/-! ## Numbers -/

def readDigits (s : Text) : Option (Text × Text) :=
  if s.takeWhile Char.isDigit = [] then none
  else some (s.takeWhile Char.isDigit, s.dropWhile Char.isDigit)

/-- A zero on its own, or digits that do not start with one. -/
def readWhole : Text → Option (Text × Text)
  | '0' :: s => some (['0'], s)
  | s => readDigits s

def readFraction : Text → Option (Text × Text)
  | '.' :: s => (readDigits s).map fun (digits, rest) => ('.' :: digits, rest)
  | s => some ([], s)

def readSign : Text → Text × Text
  | '+' :: s => (['+'], s)
  | '-' :: s => (['-'], s)
  | s => ([], s)

def readExponent : Text → Option (Text × Text)
  | [] => some ([], [])
  | c :: s =>
    if c = 'e' ∨ c = 'E' then
      (readDigits (readSign s).2).map fun (digits, rest) => (c :: (readSign s).1 ++ digits, rest)
    else some ([], c :: s)

def readNumber (s : Text) : Option (Json × Text) := do
  let (sign, s) := match s with
    | '-' :: s => (['-'], s)
    | s => ([], s)
  let (whole, s) ← readWhole s
  let (fraction, s) ← readFraction s
  let (exponent, s) ← readExponent s
  return (.number (sign ++ whole ++ fraction ++ exponent), s)

/-! ## Values -/

def readItems (item : Text → Option (Json × Text)) (s : Text) : Option (List Json × Text) :=
  match item (skipSpaces s) with
  | none => none
  | some (v, r) =>
    match skipSpaces r with
    | ',' :: r =>
      if _h : r.length < s.length then (readItems item r).map fun (vs, rest) => (v :: vs, rest)
      else none
    | ']' :: rest => some ([v], rest)
    | _ => none
termination_by s.length

def readMember (item : Text → Option (Json × Text)) (s : Text) : Option (Text × Json × Text) :=
  match skipSpaces s with
  | '"' :: r =>
    match readString r with
    | none => none
    | some (key, r) =>
      match skipSpaces r with
      | ':' :: r => (item (skipSpaces r)).map fun (v, rest) => (key, v, rest)
      | _ => none
  | _ => none

def readMembers (item : Text → Option (Json × Text)) (s : Text) :
    Option (List (Text × Json) × Text) :=
  match readMember item s with
  | none => none
  | some (key, v, r) =>
    match skipSpaces r with
    | ',' :: r =>
      if _h : r.length < s.length then
        (readMembers item r).map fun (ms, rest) => ((key, v) :: ms, rest)
      else none
    | '}' :: rest => some ([(key, v)], rest)
    | _ => none
termination_by s.length

/-- Reads a value that holds less than `levels` levels of arrays and objects. -/
def readValue : (levels : Nat) → Text → Option (Json × Text)
  | 0, _ => none
  | levels + 1, s =>
    match s with
    | 'n' :: 'u' :: 'l' :: 'l' :: rest => some (.null, rest)
    | 't' :: 'r' :: 'u' :: 'e' :: rest => some (.bool true, rest)
    | 'f' :: 'a' :: 'l' :: 's' :: 'e' :: rest => some (.bool false, rest)
    | '"' :: r => (readString r).map fun (t, rest) => (.string t, rest)
    | '[' :: r =>
      match skipSpaces r with
      | ']' :: rest => some (.array [], rest)
      | r => (readItems (readValue levels) r).map fun (items, rest) => (.array items, rest)
    | '{' :: r =>
      match skipSpaces r with
      | '}' :: rest => some (.object [], rest)
      | r => (readMembers (readValue levels) r).map fun (ms, rest) => (.object ms, rest)
    | s => readNumber s

/-- Reads a whole text; no value goes deeper than the text is long. -/
def parse? (s : Text) : Option Json :=
  match readValue (s.length + 1) (skipSpaces s) with
  | some (v, rest) => if skipSpaces rest = [] then some v else none
  | none => none

end ScenarioDocs.Json
