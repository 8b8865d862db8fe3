import ScenarioDocs.Text.Basic

/-!
# JSON values

Members of an object keep their order. A number is kept as it is spelled.
-/

namespace ScenarioDocs

inductive Json
  | null
  | bool (b : Bool)
  | number (spelling : Text)
  | string (t : Text)
  | array (items : List Json)
  | object (members : List (Text × Json))

namespace Json

def texts (ts : List Text) : Json := .array (ts.map .string)

end Json

end ScenarioDocs
