import Mathlib.Tactic.IntervalCases
import ScenarioDocs.Text.Hex

/-!
# Reading hexadecimal numbers back

Digits may have changed their case between writing and reading, so the lemmas
speak of digits under any map that keeps their values.
-/

namespace ScenarioDocs.Text

variable {n d : Nat} {f : Char → Char} {s : Text}

def KeepsDigits (f : Char → Char) : Prop := ∀ d < 16, hexDigit? (f (Nat.digitChar d)) = some d

theorem keepsDigits_id : KeepsDigits id := by
  intro d hd
  interval_cases d <;> rfl

theorem keepsDigits_toUpper : KeepsDigits Char.toUpper := by
  intro d hd
  interval_cases d <;> rfl

theorem hex_of_lt (hn : n < 16) : hex n = [Nat.digitChar n] := Nat.toDigits_of_lt_base hn

theorem hex_two (hlow : 16 ≤ n) (hhigh : n < 256) :
    hex n = [Nat.digitChar (n / 16), Nat.digitChar (n % 16)] := by
  rw [hex, Nat.toDigits_of_base_le (by omega) hlow, Nat.toDigits_of_lt_base (by omega)]
  rfl

theorem readHex_four {a b c e : Char} {w x y z : Nat} (ha : hexDigit? a = some w)
    (hb : hexDigit? b = some x) (hc : hexDigit? c = some y) (he : hexDigit? e = some z) :
    readHex 4 (a :: b :: c :: e :: s) = some (((w * 16 + x) * 16 + y) * 16 + z, s) := by
  simp [readHex, hexValue?, ha, hb, hc, he]

theorem readHex_of_lt (hf : KeepsDigits f) (hn : n < 16) :
    readHex 4 ("000" ++ (hex n).map f ++ s) = some (n, s) := by
  rw [hex_of_lt hn]
  have h := readHex_four (s := s) (a := '0') (b := '0') (c := '0') rfl rfl rfl (hf n hn)
  simpa using h

theorem readHex_two (hf : KeepsDigits f) (hlow : 16 ≤ n) (hhigh : n < 256) :
    readHex 4 ("00" ++ (hex n).map f ++ s) = some (n, s) := by
  rw [hex_two hlow hhigh]
  have h := readHex_four (s := s) (a := '0') (b := '0') rfl rfl (hf (n / 16) (by omega))
    (hf (n % 16) (by omega))
  simpa [Nat.div_add_mod'] using h

end ScenarioDocs.Text
