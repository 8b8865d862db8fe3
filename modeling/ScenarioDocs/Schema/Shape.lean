import ScenarioDocs.Error
import ScenarioDocs.Marker.Parser

/-!
# Shapes and decoding

A shape lists the fields a marker may carry. Decoding reads the arguments and
checks them against the shape one after the other; the first that does not fit
is the one reported.
-/

namespace ScenarioDocs

inductive FieldKind
  | text
  /-- A single value stands for a list of one. -/
  | list
  deriving DecidableEq

structure Field where
  name : Text
  kind : FieldKind
  deriving DecidableEq

/-- Every field is optional; of two with one name the first counts. -/
structure Shape where
  fields : List Field
  deriving DecidableEq

def Shape.field? (shape : Shape) (name : Text) : Option Field :=
  shape.fields.find? (·.name = name)

/-! ## Decoded markers -/

abbrev FieldValues := List (Text × Marker.Value)

def FieldValues.insert (key : Text) (value : Marker.Value) : FieldValues → FieldValues
  | [] => [(key, value)]
  | (k, v) :: rest =>
    if key < k then (key, value) :: (k, v) :: rest else (k, v) :: insert key value rest

structure Decoded where
  schema : Text
  fields : FieldValues
  deriving DecidableEq

namespace Decoded

def value? (a : Decoded) (name : Text) : Option Marker.Value := a.fields.lookup name

def text? (a : Decoded) (name : Text) : Option Text :=
  match a.value? name with
  | some (.text t) => some t
  | _ => none

def list (a : Decoded) (name : Text) : List Text :=
  match a.value? name with
  | some (.list items) => items
  | some (.text t) => [t]
  | none => []

end Decoded

/-! ## Decoding -/

inductive Mismatch
  | malformed (fault : Marker.Fault)
  | unknownField (key schema : Text)
  | severalValues (key : Text)
  | repeated (key : Text)
  deriving DecidableEq

def Mismatch.reason : Mismatch → Text
  | .malformed fault => fault.message
  | .unknownField key schema => "unknown field `" ++ key ++ "` for " ++ schema
  | .severalValues key => "field `" ++ key ++ "` expects a single value"
  | .repeated key => "field `" ++ key ++ "` given more than once"

namespace Shape

def fit? : FieldKind → Marker.Value → Option Marker.Value
  | .text, .list _ => none
  | .list, .text t => some (.list [t])
  | _, value => some value

def take (shape : Shape) (schema : Text) :
    FieldValues → List Marker.Argument → Except Mismatch FieldValues
  | taken, [] => .ok taken
  | taken, arg :: args =>
    match shape.field? arg.key with
    | none => .error (.unknownField arg.key schema)
    | some field =>
      match fit? field.kind arg.value with
      | none => .error (.severalValues arg.key)
      | some value =>
        if (taken.lookup arg.key).isSome then .error (.repeated arg.key)
        else shape.take schema (taken.insert arg.key value) args

def annotate (shape : Shape) (schema arguments : Text) : Except Mismatch Decoded :=
  match Marker.parse arguments with
  | .error fault => .error (.malformed fault)
  | .ok args => (shape.take schema [] args).map fun fields => ⟨schema, fields⟩

/-- Decodes an argument text; `location` only labels the error. -/
def decode (shape : Shape) (schema arguments location : Text) : Except Error Decoded :=
  (shape.annotate schema arguments).mapError fun m => .decode location m.reason

end Shape

end ScenarioDocs
