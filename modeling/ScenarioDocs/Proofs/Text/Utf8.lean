import Mathlib.Tactic.IntervalCases
import ScenarioDocs.Text.Utf8

/-!
# Decoding undoes encoding

A character is read back from its bytes, whatever comes after them. Its code
point is neither a surrogate nor written longer than need be, so the bounds on
the second byte do not get in the way. They rule out every other spelling, so
bytes that can be read are the ones that were written. Bytes that cannot be read
do not reach past a line feed.
-/

namespace ScenarioDocs.Utf8

variable {n v x y : Nat} {low high : UInt8} {bs : Bytes}

theorem follow_cons (hx : x < 64) (hlow : low.toNat ≤ x + 0x80) (hhigh : x + 0x80 ≤ high.toNat) :
    follow (n + 1) v low high (.ofNat (x + 0x80) :: bs) = follow n (v * 64 + x) 0x80 0xBF bs := by
  have hb : (UInt8.ofNat (x + 0x80)).toNat = x + 0x80 := UInt8.toNat_ofNat_of_lt' (by show _ < 256; omega)
  rw [follow, if_pos ⟨UInt8.le_iff_toNat_le.2 (by rwa [hb]), UInt8.le_iff_toNat_le.2 (by rwa [hb])⟩, hb,
    Nat.add_sub_cancel]

theorem follow_continuation (hx : x < 64) :
    follow (n + 1) v 0x80 0xBF (.ofNat (x + 0x80) :: bs) = follow n (v * 64 + x) 0x80 0xBF bs := by
  apply follow_cons hx
  · show 0x80 ≤ x + 0x80
    omega
  · show x + 0x80 ≤ 0xBF
    omega

/-! ## First bytes -/

theorem next_one (hv : v < 0x80) : next (.ofNat v) bs = (some (Char.ofNat v), bs) := by
  have hb : (UInt8.ofNat v).toNat = v := UInt8.toNat_ofNat_of_lt' (by show _ < 256; omega)
  rw [next, if_pos (UInt8.lt_iff_toNat_lt.2 (by rwa [hb])), hb]

theorem next_two (hlow : 2 ≤ y) (hhigh : y < 32) : next (.ofNat (y + 0xC0)) bs = follow 1 y 0x80 0xBF bs := by
  interval_cases y <;> rfl

theorem next_three (hy : y < 16) :
    next (.ofNat (y + 0xE0)) bs =
      follow 2 y (if y = 0 then 0xA0 else 0x80) (if y = 13 then 0x9F else 0xBF) bs := by
  interval_cases y <;> rfl

theorem next_four (hy : y < 5) :
    next (.ofNat (y + 0xF0)) bs =
      follow 3 y (if y = 0 then 0x90 else 0x80) (if y = 4 then 0x8F else 0xBF) bs := by
  interval_cases y <;> rfl

/-! ## Whole characters -/

theorem next_sequence_two (hlow : 0x7F < v) (hhigh : v ≤ 0x7FF) :
    next (.ofNat (v / 64 % 32 + 0xC0)) (.ofNat (v % 64 + 0x80) :: bs) = (some (Char.ofNat v), bs) := by
  have hv : v / 64 % 32 * 64 + v % 64 = v := by omega
  rw [next_two (by omega) (by omega), follow_continuation (by omega), follow, hv]

theorem next_sequence_three (hlow : 0x7FF < v) (hhigh : v ≤ 0xFFFF) (hv : v < 0xD800 ∨ 0xDFFF < v) :
    next (.ofNat (v / 4096 % 16 + 0xE0)) (.ofNat (v / 64 % 64 + 0x80) :: .ofNat (v % 64 + 0x80) :: bs) =
      (some (Char.ofNat v), bs) := by
  rw [next_three (by omega), follow_cons (by omega), follow_continuation (by omega), follow]
  · have hv : (v / 4096 % 16 * 64 + v / 64 % 64) * 64 + v % 64 = v := by omega
    rw [hv]
  · split
    · show 0xA0 ≤ v / 64 % 64 + 0x80
      omega
    · show 0x80 ≤ v / 64 % 64 + 0x80
      omega
  · split
    · show v / 64 % 64 + 0x80 ≤ 0x9F
      omega
    · show v / 64 % 64 + 0x80 ≤ 0xBF
      omega

theorem next_sequence_four (hlow : 0xFFFF < v) (hhigh : v < 0x110000) :
    next (.ofNat (v / 262144 % 8 + 0xF0))
        (.ofNat (v / 4096 % 64 + 0x80) :: .ofNat (v / 64 % 64 + 0x80) :: .ofNat (v % 64 + 0x80) :: bs) =
      (some (Char.ofNat v), bs) := by
  rw [next_four (by omega), follow_cons (by omega), follow_continuation (by omega),
    follow_continuation (by omega), follow]
  · have hv : ((v / 262144 % 8 * 64 + v / 4096 % 64) * 64 + v / 64 % 64) * 64 + v % 64 = v := by omega
    rw [hv]
  · split
    · show 0x90 ≤ v / 4096 % 64 + 0x80
      omega
    · show 0x80 ≤ v / 4096 % 64 + 0x80
      omega
  · split
    · show v / 4096 % 64 + 0x80 ≤ 0x8F
      omega
    · show v / 4096 % 64 + 0x80 ≤ 0xBF
      omega

theorem next_encodeChar (c : Char) (bs : Bytes) :
    ∃ b rest, String.utf8EncodeChar c = b :: rest ∧ next b (rest ++ bs) = (some c, bs) := by
  have hc : Char.ofNat c.val.toNat = c := Char.ofNat_toNat c
  have hvalid : c.val.toNat < 0xD800 ∨ 0xDFFF < c.val.toNat ∧ c.val.toNat < 0x110000 := c.valid
  simp only [String.utf8EncodeChar]
  generalize c.val.toNat = v at hc hvalid
  rw [← hc]
  split
  · exact ⟨_, _, rfl, next_one (by omega)⟩
  · split
    · exact ⟨_, _, rfl, next_sequence_two (by omega) (by omega)⟩
    · split
      · exact ⟨_, _, rfl, next_sequence_three (by omega) (by omega) (by omega)⟩
      · exact ⟨_, _, rfl, next_sequence_four (by omega) (by omega)⟩

theorem scan_encode (t : Text) : scan (encode t) = t.map some := by
  induction t with
  | nil =>
    rw [encode, List.flatMap_nil, scan]
    rfl
  | cons c t ih =>
    obtain ⟨b, rest, hb, hnext⟩ := next_encodeChar c (encode t)
    rw [encode, List.flatMap_cons, hb, List.cons_append, scan, ← encode, hnext, ih]
    rfl

theorem decode?_encode (t : Text) : decode? (encode t) = some t := by
  rw [decode?, scan_encode]
  induction t with
  | nil => rfl
  | cons c t ih => simp [ih]

theorem decodeLossy_encode (t : Text) : decodeLossy (encode t) = t := by
  rw [decodeLossy, scan_encode, List.map_map]
  exact List.map_id t

/-! ## Well-formed bytes -/

section
variable {b x y z : UInt8} {n v : Nat} {l : Lead} {c : Char} {bs rest : Bytes}

theorem toNat_val_ofNat (hv : v.isValidChar) : (Char.ofNat v).val.toNat = v := by
  rw [Char.ofNat, dif_pos hv]
  rfl

theorem follow_zero_inv (h : follow 0 v low high bs = (some c, rest)) : c = Char.ofNat v ∧ rest = bs := by
  rw [follow] at h
  obtain ⟨hc, hrest⟩ := Prod.mk.inj h
  exact ⟨(Option.some.inj hc).symm, hrest.symm⟩

theorem follow_succ_inv (h : follow (n + 1) v low high bs = (some c, rest)) : ∃ b bs', bs = b :: bs' ∧
    low.toNat ≤ b.toNat ∧ b.toNat ≤ high.toNat ∧
      follow n (v * 64 + (b.toNat - 0x80)) 0x80 0xBF bs' = (some c, rest) := by
  cases bs with
  | nil => cases h
  | cons b bs =>
    rw [follow] at h
    split at h
    · rename_i hb
      exact ⟨b, bs, rfl, UInt8.le_iff_toNat_le.1 hb.1, UInt8.le_iff_toNat_le.1 hb.2, h⟩
    · cases h

/-- What a lead byte promises, by the length of its sequence. -/
theorem lead?_inv (h : lead? b = some l) : 0x80 ≤ l.low.toNat ∧ l.high.toNat ≤ 0xBF ∧
    (l.length = 1 ∧ b.toNat = l.bits + 0xC0 ∧ 2 ≤ l.bits ∧ l.bits < 32 ∨
      l.length = 2 ∧ b.toNat = l.bits + 0xE0 ∧ l.bits < 16 ∧ (l.bits = 0 → 0xA0 ≤ l.low.toNat) ∧
        (l.bits = 13 → l.high.toNat ≤ 0x9F) ∨
      l.length = 3 ∧ b.toNat = l.bits + 0xF0 ∧ l.bits < 5 ∧ (l.bits = 0 → 0x90 ≤ l.low.toNat) ∧
        (l.bits = 4 → l.high.toNat ≤ 0x8F)) := by
  unfold lead? at h
  simp only [UInt8.lt_iff_toNat_lt, ← UInt8.toNat_inj, UInt8.reduceToNat] at h
  split_ifs at h
  all_goals
    obtain rfl := Option.some.inj h
    simp
  all_goals
    omega

theorem encodeChar_one (hb : b.toNat < 0x80) : String.utf8EncodeChar (Char.ofNat b.toNat) = [b] := by
  have hv : b.toNat.isValidChar := .inl (by omega)
  simp only [String.utf8EncodeChar]
  rw [toNat_val_ofNat hv, if_pos (by omega), UInt8.ofNat_toNat]

theorem encodeChar_two (hb : b.toNat = n + 0xC0) (hn : 2 ≤ n ∧ n < 32) (hx : 0x80 ≤ x.toNat ∧ x.toNat ≤ 0xBF) :
    String.utf8EncodeChar (Char.ofNat (n * 64 + (x.toNat - 0x80))) = [b, x] := by
  have hv : (n * 64 + (x.toNat - 0x80)).isValidChar := .inl (by omega)
  simp only [String.utf8EncodeChar]
  rw [toNat_val_ofNat hv]
  generalize hvalue : n * 64 + (x.toNat - 0x80) = v
  have hlead : v / 64 % 32 + 0xC0 = b.toNat := by omega
  have hlast : v % 64 + 0x80 = x.toNat := by omega
  rw [if_neg (by omega), if_pos (by omega), hlead, hlast, UInt8.ofNat_toNat, UInt8.ofNat_toNat]

theorem encodeChar_three (hb : b.toNat = n + 0xE0) (hn : n < 16) (hx : 0x80 ≤ x.toNat ∧ x.toNat ≤ 0xBF)
    (hlow : n = 0 → 0xA0 ≤ x.toNat) (hhigh : n = 13 → x.toNat ≤ 0x9F) (hy : 0x80 ≤ y.toNat ∧ y.toNat ≤ 0xBF) :
    String.utf8EncodeChar (Char.ofNat ((n * 64 + (x.toNat - 0x80)) * 64 + (y.toNat - 0x80))) = [b, x, y] := by
  generalize hvalue : (n * 64 + (x.toNat - 0x80)) * 64 + (y.toNat - 0x80) = v
  have hv : v.isValidChar := by
    show v < 0xD800 ∨ 0xDFFF < v ∧ v < 0x110000
    omega
  have hlead : v / 4096 % 16 + 0xE0 = b.toNat := by omega
  have hsecond : v / 64 % 64 + 0x80 = x.toNat := by omega
  have hlast : v % 64 + 0x80 = y.toNat := by omega
  simp only [String.utf8EncodeChar]
  rw [toNat_val_ofNat hv, if_neg (by omega), if_neg (by omega), if_pos (by omega), hlead, hsecond, hlast,
    UInt8.ofNat_toNat, UInt8.ofNat_toNat, UInt8.ofNat_toNat]

theorem encodeChar_four (hb : b.toNat = n + 0xF0) (hn : n < 5) (hx : 0x80 ≤ x.toNat ∧ x.toNat ≤ 0xBF)
    (hlow : n = 0 → 0x90 ≤ x.toNat) (hhigh : n = 4 → x.toNat ≤ 0x8F) (hy : 0x80 ≤ y.toNat ∧ y.toNat ≤ 0xBF)
    (hz : 0x80 ≤ z.toNat ∧ z.toNat ≤ 0xBF) :
    String.utf8EncodeChar
        (Char.ofNat (((n * 64 + (x.toNat - 0x80)) * 64 + (y.toNat - 0x80)) * 64 + (z.toNat - 0x80))) =
      [b, x, y, z] := by
  generalize hvalue : ((n * 64 + (x.toNat - 0x80)) * 64 + (y.toNat - 0x80)) * 64 + (z.toNat - 0x80) = v
  have hv : v.isValidChar := by
    show v < 0xD800 ∨ 0xDFFF < v ∧ v < 0x110000
    omega
  have hlead : v / 262144 % 8 + 0xF0 = b.toNat := by omega
  have hsecond : v / 4096 % 64 + 0x80 = x.toNat := by omega
  have hthird : v / 64 % 64 + 0x80 = y.toNat := by omega
  have hlast : v % 64 + 0x80 = z.toNat := by omega
  simp only [String.utf8EncodeChar]
  rw [toNat_val_ofNat hv, if_neg (by omega), if_neg (by omega), if_neg (by omega), hlead, hsecond, hthird, hlast,
    UInt8.ofNat_toNat, UInt8.ofNat_toNat, UInt8.ofNat_toNat, UInt8.ofNat_toNat]

theorem encodeChar_next (h : next b bs = (some c, rest)) : b :: bs = String.utf8EncodeChar c ++ rest := by
  unfold next at h
  split at h
  · rename_i hb
    cases h
    rw [encodeChar_one (UInt8.lt_iff_toNat_lt.1 hb)]
    rfl
  · cases hlead : lead? b with
    | none =>
      rw [hlead] at h
      cases h
    | some l =>
      rw [hlead] at h
      change follow l.length l.bits l.low l.high bs = (some c, rest) at h
      -- as many bytes follow as the lead byte promises
      obtain ⟨hlow, hhigh, htwo | hthree | hfour⟩ := lead?_inv hlead
      · obtain ⟨hlength, hb, hbits⟩ := htwo
        rw [hlength] at h
        obtain ⟨x, bs, rfl, hx, hx', h⟩ := follow_succ_inv h
        obtain ⟨hc, hrest⟩ := follow_zero_inv h
        rw [hc, hrest, encodeChar_two hb hbits ⟨by omega, by omega⟩]
        rfl
      · obtain ⟨hlength, hb, hbits, hzero, hlast⟩ := hthree
        rw [hlength] at h
        obtain ⟨x, bs, rfl, hx, hx', h⟩ := follow_succ_inv h
        obtain ⟨y, bs, rfl, hy, hy', h⟩ := follow_succ_inv h
        obtain ⟨hc, hrest⟩ := follow_zero_inv h
        rw [hc, hrest, encodeChar_three hb hbits ⟨by omega, by omega⟩ (by omega) (by omega) ⟨hy, hy'⟩]
        rfl
      · obtain ⟨hlength, hb, hbits, hzero, hlast⟩ := hfour
        rw [hlength] at h
        obtain ⟨x, bs, rfl, hx, hx', h⟩ := follow_succ_inv h
        obtain ⟨y, bs, rfl, hy, hy', h⟩ := follow_succ_inv h
        obtain ⟨z, bs, rfl, hz, hz', h⟩ := follow_succ_inv h
        obtain ⟨hc, hrest⟩ := follow_zero_inv h
        rw [hc, hrest, encodeChar_four hb hbits ⟨by omega, by omega⟩ (by omega) (by omega) ⟨hy, hy'⟩ ⟨hz, hz'⟩]
        rfl

theorem encode_of_decode? {t : Text} (h : decode? bs = some t) : encode t = bs := by
  induction bs using scan.induct generalizing t with
  | case1 =>
    rw [decode?, scan] at h
    cases h
    rfl
  | case2 b bs ih =>
    rw [decode?, scan] at h
    rcases hnext : next b bs with ⟨_ | c, rest⟩
    · rw [hnext] at h
      cases h
    · rw [hnext] at h ih
      cases hrest : decode? rest with
      | none =>
        rw [decode?] at hrest
        simp [hrest] at h
      | some u =>
        have ht : t = c :: u := by
          rw [decode?] at hrest
          simpa [hrest] using h.symm
        rw [ht, encode, List.flatMap_cons, ← encode, ih hrest, encodeChar_next hnext]

end

/-! ## One-byte characters

A byte below 0x80 continues no sequence, so what is before it and what is after it are read
apart from each other, well-formed or not. -/

section
variable {a b : UInt8} {more : Bytes}

theorem lead?_low {l : Lead} (h : lead? b = some l) : 0x80 ≤ l.low :=
  UInt8.le_iff_toNat_le.2 (lead?_inv h).1

section
variable (ha : a < 0x80)
include ha

theorem follow_append_ascii (hlow : 0x80 ≤ low) (n v : Nat) (bs : Bytes) :
    follow n v low high (bs ++ a :: more) = Prod.map id (· ++ a :: more) (follow n v low high bs) := by
  induction n generalizing v low high bs with
  | zero => rfl
  | succ n ih =>
    cases bs with
    | nil =>
      -- the byte is below every range, so the sequence stops before it
      have hout : ¬(low ≤ a ∧ a ≤ high) := fun h =>
        absurd (UInt8.lt_of_lt_of_le ha (UInt8.le_trans hlow h.1)) (UInt8.lt_irrefl a)
      change follow (n + 1) v low high (a :: more) = (none, a :: more)
      rw [follow, if_neg hout]
    | cons b bs =>
      rw [List.cons_append, follow, follow]
      split
      · exact ih (UInt8.le_refl _) _ _
      · rfl

theorem next_append_ascii (b : UInt8) (bs : Bytes) :
    next b (bs ++ a :: more) = Prod.map id (· ++ a :: more) (next b bs) := by
  unfold next
  split
  · rfl
  · cases hlead : lead? b with
    | none => rfl
    | some l => exact follow_append_ascii ha (lead?_low hlead) _ _ _

theorem scan_append_ascii (bs more : Bytes) :
    scan (bs ++ a :: more) = scan bs ++ some (Char.ofNat a.toNat) :: scan more := by
  induction bs using scan.induct with
  | case1 =>
    have hnext : next a more = (some (Char.ofNat a.toNat), more) := if_pos ha
    rw [List.nil_append, scan, List.nil_append, scan, hnext]
  | case2 b bs ih => rw [List.cons_append, scan, next_append_ascii ha, scan, List.cons_append, ← ih]; rfl

theorem decodeLossy_append_ascii (bs more : Bytes) :
    decodeLossy (bs ++ a :: more) = decodeLossy bs ++ Char.ofNat a.toNat :: decodeLossy more := by
  rw [decodeLossy, scan_append_ascii ha, List.map_append, List.map_cons]
  rfl

theorem count_follow (hlow : 0x80 ≤ low) (n v : Nat) (bs : Bytes) :
    (follow n v low high bs).2.count a = bs.count a := by
  induction n generalizing v low high bs with
  | zero => rfl
  | succ n ih =>
    cases bs with
    | nil => rfl
    | cons b bs =>
      rw [follow]
      split
      · rename_i hb
        have hne : b ≠ a := by
          rintro rfl
          exact absurd (UInt8.lt_of_lt_of_le ha (UInt8.le_trans hlow hb.1)) (UInt8.lt_irrefl b)
        rw [ih (UInt8.le_refl _), List.count_cons_of_ne hne]
      · rfl

theorem count_next (b : UInt8) (bs : Bytes) : (next b bs).2.count a = bs.count a := by
  unfold next
  split
  · rfl
  · cases hlead : lead? b with
    | none => rfl
    | some l => exact count_follow ha (lead?_low hlead) _ _ _

end

/-- Only the byte of a line feed is read as one. -/
theorem next_newline_iff (b : UInt8) (bs : Bytes) : (next b bs).1 = some '\n' ↔ b = 0x0A := by
  constructor
  · intro h
    have hcut := encodeChar_next (c := '\n') (Prod.ext h rfl : next b bs = (some '\n', (next b bs).2))
    exact (List.cons.inj hcut).1
  · rintro rfl
    rfl

theorem count_decodeLossy (bs : Bytes) : (decodeLossy bs).count '\n' = bs.count 0x0A := by
  induction bs using scan.induct with
  | case1 => rw [decodeLossy, scan]; rfl
  | case2 b bs ih =>
    have hshown : ((next b bs).1.getD '\uFFFD' == '\n') = (b == 0x0A) := by
      rw [Bool.eq_iff_iff, beq_iff_eq, beq_iff_eq, ← next_newline_iff b bs]
      cases (next b bs).1 <;> simp
    rw [decodeLossy, scan, List.map_cons, List.count_cons, List.count_cons, ← decodeLossy, ih, hshown,
      count_next (by decide)]

end

end ScenarioDocs.Utf8
