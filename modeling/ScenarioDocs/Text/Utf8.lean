import ScenarioDocs.Text.Basic

/-!
# UTF-8

`encode` writes a text as bytes. `scan` cuts bytes into well-formed characters
and ill-formed parts, each part as long as a well-formed sequence could still
have been continued; `decode?` accepts bytes without ill-formed parts, and
`decodeLossy` shows every such part as U+FFFD.
-/

namespace ScenarioDocs

abbrev Bytes := List UInt8

namespace Utf8

def encode (t : Text) : Bytes := t.flatMap String.utf8EncodeChar

/-- What a lead byte promises: its own bits, the range of the byte after it, and how many
bytes follow the lead. -/
structure Lead where
  bits : Nat
  low : UInt8
  high : UInt8
  length : Nat

/-- The bounds on the second byte leave out overlong forms, surrogates and code points above
U+10FFFF. -/
def lead? (b : UInt8) : Option Lead :=
  if b < 0xC2 then none
  else if b < 0xE0 then some ⟨b.toNat - 0xC0, 0x80, 0xBF, 1⟩
  else if b = 0xE0 then some ⟨0, 0xA0, 0xBF, 2⟩
  else if b = 0xED then some ⟨0x0D, 0x80, 0x9F, 2⟩
  else if b < 0xF0 then some ⟨b.toNat - 0xE0, 0x80, 0xBF, 2⟩
  else if b = 0xF0 then some ⟨0, 0x90, 0xBF, 3⟩
  else if b < 0xF4 then some ⟨b.toNat - 0xF0, 0x80, 0xBF, 3⟩
  else if b = 0xF4 then some ⟨4, 0x80, 0x8F, 3⟩
  else none

/-- Reads `n` more bytes of a sequence, the first of them between `low` and `high`; stops
before a byte that does not fit. -/
def follow : (n value : Nat) → (low high : UInt8) → Bytes → Option Char × Bytes
  | 0, value, _, _, bs => (some (Char.ofNat value), bs)
  | _ + 1, _, _, _, [] => (none, [])
  | n + 1, value, low, high, b :: bs =>
    if low ≤ b ∧ b ≤ high then follow n (value * 64 + (b.toNat - 0x80)) 0x80 0xBF bs
    else (none, b :: bs)

/-- The character or ill-formed part that `b` starts, and the bytes after it. -/
def next (b : UInt8) (bs : Bytes) : Option Char × Bytes :=
  if b < 0x80 then (some (Char.ofNat b.toNat), bs)
  else match lead? b with
    | none => (none, bs)
    | some l => follow l.length l.bits l.low l.high bs

theorem length_follow_le : ∀ (n value : Nat) (low high : UInt8) (bs : Bytes),
    (follow n value low high bs).2.length ≤ bs.length
  | 0, _, _, _, _ => Nat.le_refl _
  | _ + 1, _, _, _, [] => Nat.le_refl _
  | n + 1, value, low, high, b :: bs => by
    unfold follow
    split
    · exact Nat.le_succ_of_le (length_follow_le n _ _ _ bs)
    · exact Nat.le_refl _

theorem length_next_le (b : UInt8) (bs : Bytes) : (next b bs).2.length ≤ bs.length := by
  unfold next
  split
  · exact Nat.le_refl _
  · split
    · exact Nat.le_refl _
    · exact length_follow_le ..

def scan : Bytes → List (Option Char)
  | [] => []
  | b :: bs => (next b bs).1 :: scan (next b bs).2
termination_by bs => bs.length
decreasing_by exact Nat.lt_succ_of_le (length_next_le b bs)

def decodeLossy (bs : Bytes) : Text := (scan bs).map (·.getD '\uFFFD')

def decode? (bs : Bytes) : Option Text := (scan bs).mapM id

end Utf8

end ScenarioDocs
