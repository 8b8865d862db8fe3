import ScenarioDocs.Marker.Argument

/-!
# The grammar of marker arguments

Which texts are argument texts, and what they mean, without saying how they
are read. Each relation pairs a text with its meaning.
-/

namespace ScenarioDocs.Marker

open Text

inductive Separated {α : Type} (sep : Char) (element : Text → α → Prop) : Text → List α → Prop
  | one {s : Text} {a : α} : element s a → Separated sep element s [a]
  | more {s r : Text} {a : α} {as : List α} : element s a → Separated sep element r as →
      Separated sep element (s ++ sep :: r) (a :: as)

/-- What stands between quotes; a backslash makes the next character literal. -/
inductive QuotedText : Text → Text → Prop
  | nil : QuotedText [] []
  | plain {c : Char} {s t : Text} : c ≠ '"' → c ≠ '\\' → QuotedText s t →
      QuotedText (c :: s) (c :: t)
  | escaped {c : Char} {s t : Text} : QuotedText s t → QuotedText ('\\' :: c :: s) (c :: t)

/-- One text, in quotes or bare; a bare one has no character of `stop`. -/
inductive ItemText (stop : List Char) : Text → Text → Prop
  | quoted {a s t b : Text} : AllBlank a → QuotedText s t → AllBlank b →
      ItemText stop (a ++ '"' :: s ++ '"' :: b) t
  | bare {s : Text} : (∀ c ∈ s, c ∉ stop) → (trimStart s).head? ≠ some '"' →
      ItemText stop s (trim s)

inductive ValueText : Text → Value → Prop
  | empty {a b c : Text} : AllBlank a → AllBlank b → AllBlank c →
      ValueText (a ++ '{' :: b ++ '}' :: c) (.list [])
  | braced {a s b : Text} {items : List Text} : AllBlank a → ¬AllBlank s → AllBlank b →
      Separated ',' (ItemText [',', '}']) s items →
      ValueText (a ++ '{' :: s ++ '}' :: b) (.list items)
  | single {s t : Text} : (trimStart s).head? ≠ some '{' → ItemText [',', ';'] s t →
      ValueText s (.text t)
  | several {s : Text} {items : List Text} : (trimStart s).head? ≠ some '{' →
      2 ≤ items.length → Separated ';' (ItemText [',', ';']) s items → ValueText s (.list items)

inductive ArgumentText : Text → Argument → Prop
  | pair {k s : Text} {v : Value} : ¬AllBlank k → '=' ∉ k → ',' ∉ k → ValueText s v →
      ArgumentText (k ++ '=' :: s) ⟨trim k, v⟩

inductive ArgumentsText : Text → List Argument → Prop
  | blank {s : Text} : AllBlank s → ArgumentsText s []
  | arguments {s : Text} {args : List Argument} : Separated ',' ArgumentText s args →
      ArgumentsText s args

end ScenarioDocs.Marker
