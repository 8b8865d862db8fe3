/-!
# Texts

A text is its list of characters, so a length or an offset counts characters.
`pieces` cuts at a separator and `join` puts one between the parts.
-/

namespace ScenarioDocs

abbrev Text := List Char

instance : Coe String Text := ⟨String.toList⟩

namespace Text

def join (sep : Text) : List Text → Text
  | [] => []
  | [t] => t
  | t :: u :: ts => t ++ sep ++ join sep (u :: ts)

/-- The parts between the separators: one more than there are separators. -/
def pieces (sep : Char) : Text → List Text
  | [] => [[]]
  | c :: cs =>
    if c = sep then [] :: pieces sep cs
    else match pieces sep cs with
      | [] => [[c]]
      | p :: ps => (c :: p) :: ps

def dropEndWhile (p : Char → Bool) (t : Text) : Text :=
  (t.reverse.dropWhile p).reverse

def dropAround (p : Char → Bool) (t : Text) : Text :=
  dropEndWhile p (t.dropWhile p)

def before? (ending t : Text) : Option Text :=
  (List.isPrefixOf? ending.reverse t.reverse).map List.reverse

def decimal (n : Nat) : Text := Nat.toDigits 10 n

theorem pieces_ne_nil (sep : Char) : ∀ t : Text, pieces sep t ≠ []
  | [] => by simp [pieces]
  | c :: cs => by
    unfold pieces
    split
    · simp
    · split <;> simp

theorem join_pieces (sep : Char) : ∀ t : Text, join [sep] (pieces sep t) = t
  | [] => rfl
  | c :: cs => by
    have ih := join_pieces sep cs
    unfold pieces
    split
    · rename_i h
      subst h
      cases hp : pieces c cs with
      | nil => exact absurd hp (pieces_ne_nil _ _)
      | cons p ps => rw [hp] at ih; simp [join, ih]
    · cases hp : pieces sep cs with
      | nil => exact absurd hp (pieces_ne_nil _ _)
      | cons p ps =>
        rw [hp] at ih
        cases ps with
        | nil => simpa [join] using ih
        | cons q qs => simpa [join] using ih

end Text

end ScenarioDocs
