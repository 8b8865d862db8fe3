import ScenarioDocs.Text.Basic

/-!
# Hexadecimal numbers

Written in lower case and without leading zeros, read in either case.
-/

namespace ScenarioDocs.Text

def hex (n : Nat) : Text := Nat.toDigits 16 n

def hexDigit? (c : Char) : Option Nat :=
  if '0' ≤ c ∧ c ≤ '9' then some (c.toNat - '0'.toNat)
  else if 'a' ≤ c ∧ c ≤ 'f' then some (c.toNat - 'a'.toNat + 10)
  else if 'A' ≤ c ∧ c ≤ 'F' then some (c.toNat - 'A'.toNat + 10)
  else none

def hexValue? (digits : Text) : Option Nat :=
  (digits.mapM hexDigit?).map fun ds => ds.foldl (fun n d => n * 16 + d) 0

def readHex (n : Nat) (s : Text) : Option (Nat × Text) :=
  if s.length < n then none else (hexValue? (s.take n)).map fun v => (v, s.drop n)

theorem length_readHex {n v : Nat} {s rest : Text} (h : readHex n s = some (v, rest)) :
    rest.length ≤ s.length := by
  unfold readHex at h
  split at h
  · cases h
  · obtain ⟨w, _, hw⟩ := Option.map_eq_some_iff.1 h
    cases hw
    simp

end ScenarioDocs.Text
