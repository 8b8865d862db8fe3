import ScenarioDocs.Toml.Basic

/-!
# Building TOML tables

A table can come into being in three ways, and that decides what may still be
added to it: it has a header of its own, a longer header passes through it, or
a dotted key does. Tables written as values are closed.
-/

namespace ScenarioDocs.Toml

inductive Origin
  | header
  | passed
  | dotted
  deriving DecidableEq

inductive Node
  | value (v : Toml)
  | table (origin : Origin) (entries : List (Text × Node))
  /-- An array of tables; the last one is open. -/
  | rows (tables : List (List (Text × Node)))

abbrev Entries := List (Text × Node)

namespace Entries

def set (key : Text) (node : Node) : Entries → Entries
  | [] => [(key, node)]
  | (k, n) :: rest => if k = key then (key, node) :: rest else (k, n) :: set key node rest

def add? (key : Text) (node : Node) (es : Entries) : Option Entries :=
  if (es.lookup key).isSome then none else some (es ++ [(key, node)])

def onLast (f : Entries → Option Entries) : List Entries → Option (List Entries)
  | [] => none
  | [last] => (f last).map fun es => [es]
  | t :: u :: ts => (onLast f (u :: ts)).map (t :: ·)

/-- Adds a value under a dotted key. A table that a dotted key passes through must not have a
header, and the one that takes the value must be made by dotted keys, unless the key has only
one part. -/
def addPair (v : Toml) : (mayAdd : Bool) → (key : List Text) → Entries → Option Entries
  | _, [], _ => none
  | mayAdd, [k], es => if mayAdd then es.add? k (.value v) else none
  | _, k :: l :: ks, es =>
    match es.lookup k with
    | none => (addPair v true (l :: ks) []).map fun sub => es.set k (.table .dotted sub)
    | some (.value _) => none
    | some (.table .header _) => none
    | some (.table origin sub) =>
      (addPair v (origin = .dotted) (l :: ks) sub).map fun sub => es.set k (.table origin sub)
    | some (.rows tables) =>
      (onLast (addPair v false (l :: ks)) tables).map fun tables => es.set k (.rows tables)

/-- Goes down a header's path, making the tables that are missing, and changes the table above
its last part. -/
def descend (f : Text → Entries → Option Entries) : List Text → Entries → Option Entries
  | [], _ => none
  | [k], es => f k es
  | k :: l :: ks, es =>
    match es.lookup k with
    | none => (descend f (l :: ks) []).map fun sub => es.set k (.table .passed sub)
    | some (.value _) => none
    | some (.table origin sub) =>
      (descend f (l :: ks) sub).map fun sub => es.set k (.table origin sub)
    | some (.rows tables) =>
      (onLast (descend f (l :: ks)) tables).map fun tables => es.set k (.rows tables)

/-- Opens the table of a header. It may be there already only if longer headers passed it. -/
def openTable (header : List Text) : Entries → Option Entries :=
  descend (fun k es =>
    match es.lookup k with
    | none => es.add? k (.table .header [])
    | some (.table .passed sub) => some (es.set k (.table .header sub))
    | some _ => none) header

def openRow (header : List Text) : Entries → Option Entries :=
  descend (fun k es =>
    match es.lookup k with
    | none => es.add? k (.rows [[]])
    | some (.rows tables) => some (es.set k (.rows (tables ++ [[]])))
    | some _ => none) header

/-- Changes the table that a header has opened; no header means the table of the document. -/
def inTable (header : List Text) (f : Entries → Option Entries) (es : Entries) : Option Entries :=
  if header = [] then f es
  else descend (fun k es =>
    match es.lookup k with
    | some (.table origin sub) => (f sub).map fun sub => es.set k (.table origin sub)
    | some (.rows tables) => (onLast f tables).map fun tables => es.set k (.rows tables)
    | _ => none) header es

end Entries

/-! ## Finished tables -/

mutual

def Node.toToml : Node → Toml
  | .value v => v
  | .table _ entries => .table (fieldsOf entries)
  | .rows tables => .array (tablesOf tables)

def fieldsOf : List (Text × Node) → List (Text × Toml)
  | [] => []
  | (k, n) :: rest => (k, n.toToml) :: fieldsOf rest

def tablesOf : List (List (Text × Node)) → List Toml
  | [] => []
  | t :: ts => .table (fieldsOf t) :: tablesOf ts

end

end ScenarioDocs.Toml
