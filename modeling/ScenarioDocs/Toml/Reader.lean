import ScenarioDocs.Toml.Scalars
import ScenarioDocs.Toml.Tables

/-!
# Reading TOML documents

Version 1.0 of the format. A document is read line by line into the tables it
opens; any fault makes it unreadable. Loops stop unless they get ahead, which
readers always do.
-/

namespace ScenarioDocs.Toml

/-- Arrays, inline tables and dotted keys go less deep than this. -/
def depthLimit : Nat := 80

/-! ## Blank space -/

/-- Skips blanks, line ends and comments, and stops before a character that may not be there. -/
def skipTrivia : (comment : Bool) → Text → Text
  | _, [] => []
  | _, '\n' :: s => skipTrivia false s
  | _, '\r' :: '\n' :: s => skipTrivia false s
  | true, c :: s => if isPlain c then skipTrivia true s else c :: s
  | false, c :: s =>
    if isSpace c then skipTrivia false s
    else if c = '#' then skipTrivia true s
    else c :: s

def readLineEnd (s : Text) : Option Text :=
  let r := match skipSpaces s with
    | '#' :: r => r.dropWhile isPlain
    | r => r
  match r with
  | [] => some []
  | '\n' :: rest => some rest
  | '\r' :: '\n' :: rest => some rest
  | _ => none

/-! ## Keys -/

def isBareKeyChar (c : Char) : Bool := c.isAlphanum || c = '_' || c = '-'

def readSimpleKey (s : Text) : Option (Text × Text) :=
  match s with
  | '"' :: r => readBasic r
  | '\'' :: r => readLiteral r
  | _ =>
    if s.takeWhile isBareKeyChar = [] then none
    else some (s.takeWhile isBareKeyChar, s.dropWhile isBareKeyChar)

def readKeyParts (s : Text) : Option (List Text × Text) :=
  match readSimpleKey (skipSpaces s) with
  | none => none
  | some (part, r) =>
    match skipSpaces r with
    | '.' :: r =>
      if _h : r.length < s.length then
        (readKeyParts r).map fun (parts, rest) => (part :: parts, rest)
      else none
    | rest => some ([part], rest)
termination_by s.length

def readKey (s : Text) : Option (List Text × Text) := do
  let (parts, rest) ← readKeyParts s
  if parts.length < depthLimit then return (parts, rest) else none

/-! ## Values -/

/-- Reads the items of an array up to its closing bracket; a comma may follow the last. -/
def readItems (item : Text → Option (Toml × Text)) (s : Text) : Option (List Toml × Text) :=
  match skipTrivia false s with
  | ']' :: rest => some ([], rest)
  | r =>
    match item r with
    | none => none
    | some (v, r) =>
      match skipTrivia false r with
      | ',' :: r =>
        if _h : r.length < s.length then
          (readItems item r).map fun (vs, rest) => (v :: vs, rest)
        else none
      | ']' :: rest => some ([v], rest)
      | _ => none
termination_by s.length

def readPair (item : Text → Option (Toml × Text)) (s : Text) :
    Option (List Text × Toml × Text) := do
  let (key, r) ← readKey s
  let r ← readChar '=' r
  let (v, rest) ← item (skipSpaces r)
  return (key, v, rest)

/-- Reads the pairs of an inline table up to its closing brace; no comma follows the last. -/
def readPairs (item : Text → Option (Toml × Text)) (s : Text) (es : Entries) :
    Option (Entries × Text) :=
  match readPair item s with
  | none => none
  | some (key, v, r) =>
    match es.addPair v true key with
    | none => none
    | some es =>
      match skipSpaces r with
      | ',' :: r => if _h : r.length < s.length then readPairs item r es else none
      | '}' :: rest => some (es, rest)
      | _ => none
termination_by s.length

/-- Reads a value that holds less than `levels` levels of arrays and inline tables. -/
def readValue : (levels : Nat) → Text → Option (Toml × Text)
  | 0, _ => none
  | levels + 1, s =>
    match s with
    | '[' :: r =>
      if levels = 0 then none
      else (readItems (readValue levels) r).map fun (items, rest) => (.array items, rest)
    | '{' :: r =>
      if levels = 0 then none
      else match skipSpaces r with
        | '}' :: rest => some (.table [], rest)
        | r => (readPairs (readValue levels) r []).map fun (es, rest) => (.table (fieldsOf es), rest)
    | s => readScalar s

/-! ## Lines -/

structure Draft where
  header : List Text
  entries : Entries

def Draft.openTable (d : Draft) (header : List Text) : Option Draft :=
  (d.entries.openTable header).map fun es => ⟨header, es⟩

def Draft.openRow (d : Draft) (header : List Text) : Option Draft :=
  (d.entries.openRow header).map fun es => ⟨header, es⟩

def Draft.addPair (d : Draft) (key : List Text) (v : Toml) : Option Draft :=
  (d.entries.inTable d.header (Entries.addPair v true key)).map fun es => { d with entries := es }

def readLine (d : Draft) (s : Text) : Option (Draft × Text) :=
  match s with
  | '[' :: '[' :: r => do
    let (header, r) ← readKey r
    let r ← readChar ']' r
    let r ← readChar ']' r
    return (← d.openRow header, r)
  | '[' :: r => do
    let (header, r) ← readKey r
    let r ← readChar ']' r
    return (← d.openTable header, r)
  | [] => some (d, s)
  | '#' :: _ => some (d, s)
  | '\n' :: _ => some (d, s)
  | '\r' :: _ => some (d, s)
  | s => do
    let (key, v, r) ← readPair (readValue depthLimit) s
    return (← d.addPair key v, r)

def readLines (d : Draft) (s : Text) : Option Entries :=
  if s = [] then some d.entries
  else match readLine d (skipSpaces s) with
    | none => none
    | some (d, r) =>
      match readLineEnd r with
      | none => none
      | some rest => if _h : rest.length < s.length then readLines d rest else none
termination_by s.length

def parse? (document : Text) : Option Toml :=
  let s := match document with
    | '\uFEFF' :: s => s
    | s => s
  (readLines ⟨[], []⟩ s).map fun es => .table (fieldsOf es)

end ScenarioDocs.Toml
