import ScenarioDocs.Marker.Grammar
import ScenarioDocs.Marker.Printer
import ScenarioDocs.Scenario

/-!
# Spellings of a pod marker

The source lines that stand for a record, without saying how they are read. A
record has many: arguments come in any order, defaults may be left out, and
texts and lists have several forms.
-/

namespace ScenarioDocs

open Text

namespace Marker

def LineBlank (t : Text) : Prop := AllBlank t ∧ '\n' ∉ t

instance (t : Text) : Decidable (LineBlank t) := inferInstanceAs (Decidable (_ ∧ _))

inductive Padded (t : Text) : Text → Prop
  | blanks {a b : Text} : LineBlank a → LineBlank b → Padded t (a ++ t ++ b)

inductive TextSpelling (stop : List Char) (t : Text) : Text → Prop
  | quoted : TextSpelling stop t (printText t)
  | bare : trim t = t → (∀ c ∈ t, c ∉ stop) → t.head? ≠ some '"' → TextSpelling stop t t

def ItemSpelling (stop : List Char) (s t : Text) : Prop := ∃ u, TextSpelling stop t u ∧ Padded u s

inductive ValueSpelling : Value → Text → Prop
  | text {t s : Text} : TextSpelling [',', ';'] t s → s.head? ≠ some '{' → ValueSpelling (.text t) s
  | alone {t s : Text} : TextSpelling [',', ';'] t s → s.head? ≠ some '{' →
      ValueSpelling (.list [t]) s
  | empty {s : Text} : LineBlank s → ValueSpelling (.list []) ('{' :: s ++ ['}'])
  | braced {s : Text} {items : List Text} : ¬AllBlank s →
      Separated ',' (ItemSpelling [',', '}']) s items →
      ValueSpelling (.list items) ('{' :: s ++ ['}'])
  | several {s : Text} {items : List Text} : (trimStart s).head? ≠ some '{' → 2 ≤ items.length →
      Separated ';' (ItemSpelling [',', ';']) s items → ValueSpelling (.list items) s

inductive ArgumentSpelling : Text → Argument → Prop
  | pair {key k s v : Text} {value : Value} : Padded key k → ValueSpelling value s → Padded s v →
      ArgumentSpelling (k ++ '=' :: v) ⟨key, value⟩

end Marker

open Marker

/-! ## Records -/

/-- The values that a field of the record can have in a marker. A switch that is off may be
written as any text of the line other than `true`. -/
inductive Scenario.Gives (r : Scenario) : Text → Value → Prop
  | name : r.Gives "scenario" (.text r.name)
  | successStates : r.Gives "successStates" (.list r.successStates)
  | failedStates : r.Gives "failedStates" (.list r.failedStates)
  | failureReason : r.Gives "failureReason" (.text r.failureReason)
  | initContainer {t : Text} : '\n' ∉ t → Flag.ofText t = r.initContainer →
      r.Gives "hasInitContainer" (.text t)
  | volume {t : Text} : '\n' ∉ t → Flag.ofText t = r.volume → r.Gives "hasVolume" (.text t)

def Scenario.stated (r : Scenario) : List Text :=
  let fields : List (Text × Bool) := [
    ("scenario", r.name ≠ []), ("successStates", r.successStates ≠ []),
    ("failedStates", r.failedStates ≠ []), ("failureReason", r.failureReason ≠ []),
    ("hasInitContainer", r.initContainer ≠ .unset), ("hasVolume", r.volume ≠ .unset)]
  (fields.filter (·.2)).map (·.1)

/-- Arguments that give the record, each field at most once. -/
structure Scenario.GivenBy (r : Scenario) (args : List Argument) : Prop where
  distinct : (args.map (·.key)).Nodup
  fitting : ∀ a ∈ args, r.Gives a.key a.value
  complete : ∀ key ∈ r.stated, key ∈ args.map (·.key)

inductive Scenario.Line (r : Scenario) : Text → Prop
  | bare {a b c : Text} : LineBlank a → LineBlank b → LineBlank c → r.GivenBy [] →
      r.Line (a ++ "//" ++ b ++ "+" ++ Scenario.schemaName ++ c)
  | arguments {a b c s : Text} {args : List Argument} : LineBlank a → LineBlank b → LineBlank c →
      r.GivenBy args → Separated ',' ArgumentSpelling s args →
      r.Line (a ++ "//" ++ b ++ "+" ++ Scenario.schemaName ++ ":" ++ s ++ c)

end ScenarioDocs
