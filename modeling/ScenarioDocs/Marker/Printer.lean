import ScenarioDocs.Marker.Argument

/-!
# Writing marker arguments

The canonical form of arguments: keys as they are, texts in quotes, lists in
braces with every item in quotes, commas between the arguments and nothing
else. Quotes and backslashes inside quotes have a backslash before them.
-/

namespace ScenarioDocs.Marker

open Text

def escape : Text → Text
  | [] => []
  | c :: t => if c = '"' ∨ c = '\\' then '\\' :: c :: escape t else c :: escape t

def printText (t : Text) : Text := '"' :: escape t ++ ['"']

def Value.print : Value → Text
  | .text t => printText t
  | .list items => '{' :: join [','] (items.map printText) ++ ['}']

def Argument.print (a : Argument) : Text := a.key ++ '=' :: a.value.print

def print (args : List Argument) : Text := join [','] (args.map Argument.print)

/-- What can stand as a key: it keeps its meaning when it is read back. -/
structure IsKey (key : Text) : Prop where
  nonempty : key ≠ []
  trimmed : trim key = key
  noEquals : '=' ∉ key
  noComma : ',' ∉ key

end ScenarioDocs.Marker
