import Mathlib.Tactic.SplitIfs
import ScenarioDocs.Proofs.Text.Utf8

/-!
# The byte order of texts

UTF-8 keeps the order of the characters: a smaller code point has a shorter
sequence, and so a smaller first byte, or the same length and smaller digits.
-/

namespace ScenarioDocs.Utf8

variable {m n v w : Nat} {s t x y : Bytes} {c d : Char} {a b : Text}

def Before (a b : Text) : Prop := encode a < encode b

instance (a b : Text) : Decidable (Before a b) := inferInstanceAs (Decidable (encode a < encode b))

theorem ofNat_cons_lt (hm : m < 256) (hn : n < 256) :
    (UInt8.ofNat m :: s : Bytes) < UInt8.ofNat n :: t ↔ m < n ∨ m = n ∧ s < t := by
  have hm' : (UInt8.ofNat m).toNat = m := UInt8.toNat_ofNat_of_lt' hm
  have hn' : (UInt8.ofNat n).toNat = n := UInt8.toNat_ofNat_of_lt' hn
  rw [List.cons_lt_cons_iff, UInt8.lt_iff_toNat_lt, ← UInt8.toNat_inj, hm', hn']

/-- Numbers compare by their higher digits first. -/
theorem digit_lt (h : v < w) : v / 64 < w / 64 ∨ v / 64 = w / 64 ∧ v % 64 < w % 64 := by
  omega

/-- What comes after the bytes of different characters does not count. -/
theorem encodeChar_lt (h : c < d) : String.utf8EncodeChar c ++ x < String.utf8EncodeChar d ++ y := by
  have hlt : c.val.toNat < d.val.toNat := UInt32.lt_iff_toNat_lt.1 h
  have hmax : d.val.toNat < 0xD800 ∨ 0xDFFF < d.val.toNat ∧ d.val.toNat < 0x110000 := d.valid
  simp only [String.utf8EncodeChar]
  generalize c.val.toNat = v at hlt
  generalize d.val.toNat = w at hlt hmax
  have hlow := digit_lt hlt
  have hmiddle := digit_lt (v := v / 64) (w := w / 64)
  have hhigh := digit_lt (v := v / 4096) (w := w / 4096)
  simp only [Nat.div_div_eq_div_mul] at hmiddle hhigh
  have hfirst : v / 262144 % 8 = v / 262144 ∧ w / 262144 % 8 = w / 262144 := by omega
  split_ifs
  all_goals
    simp (disch := omega) only [List.cons_append, List.nil_append, ofNat_cons_lt]
    omega

theorem before_of_lt (h : a < b) : Before a b := by
  induction h with
  | @nil d b =>
    obtain ⟨byte, rest, hd, -⟩ := next_encodeChar d []
    rw [Before, encode, encode, List.flatMap_cons, hd]
    exact List.nil_lt_cons _ _
  | @rel c a d b h => exact encodeChar_lt h
  | @cons c a b _ ih => exact List.append_left_lt ih

end ScenarioDocs.Utf8
