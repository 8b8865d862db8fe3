import Mathlib.Data.List.TakeWhile
import ScenarioDocs.Text.Blank

/-!
# Trimming

What trimming does to a text put together from parts: blanks at the outside
vanish, and a part that is not blank keeps the trimming on its own side.
-/

namespace ScenarioDocs.Text

variable {a b s t : Text}

theorem allBlank_append : AllBlank (a ++ b) ↔ AllBlank a ∧ AllBlank b := List.forall_mem_append

theorem allBlank_reverse : AllBlank t.reverse ↔ AllBlank t := by
  simp [AllBlank]

theorem AllBlank.not_mem {c : Char} (ha : AllBlank a) (hc : isBlank c = false) : c ∉ a := by
  intro hm
  rw [ha c hm] at hc
  cases hc

/-! ## At the start -/

theorem trimStart_eq_nil_iff : trimStart s = [] ↔ AllBlank s := List.dropWhile_eq_nil_iff

theorem trimStart_append (ha : AllBlank a) : trimStart (a ++ s) = trimStart s :=
  List.dropWhile_append_of_pos ha

theorem trimStart_append_of_not_allBlank (ha : ¬AllBlank a) : trimStart (a ++ s) = trimStart a ++ s := by
  have h : a.dropWhile isBlank ≠ [] := fun h => ha (trimStart_eq_nil_iff.1 h)
  simp [trimStart, List.dropWhile_append, h]

theorem trimStart_cons {c : Char} (hc : isBlank c = false) : trimStart (c :: s) = c :: s :=
  List.dropWhile_cons_of_neg (by simp [hc])

theorem not_isBlank_of_trimStart {c : Char} (h : trimStart s = c :: t) : isBlank c = false := by
  have hd := List.head?_dropWhile_not isBlank s
  unfold trimStart at h
  rw [h] at hd
  simpa using hd

theorem trimStart_trimStart (s : Text) : trimStart (trimStart s) = trimStart s := by
  cases h : trimStart s with
  | nil => rfl
  | cons c r => exact trimStart_cons (not_isBlank_of_trimStart h)

theorem trimStart_append_of_trimStart (hs : trimStart s = s) : trimStart (a ++ s) = trimStart a ++ s := by
  by_cases ha : AllBlank a
  · rw [trimStart_append ha, hs, trimStart_eq_nil_iff.2 ha, List.nil_append]
  · exact trimStart_append_of_not_allBlank ha

theorem trimStart_takeWhile (p : Char → Bool) (s : Text) :
    trimStart ((trimStart s).takeWhile p) = (trimStart s).takeWhile p := by
  cases h : trimStart s with
  | nil => rfl
  | cons c r =>
    rw [List.takeWhile_cons]
    split
    · exact trimStart_cons (not_isBlank_of_trimStart h)
    · rfl

theorem exists_blank_append_trimStart (s : Text) : ∃ a, AllBlank a ∧ s = a ++ trimStart s :=
  ⟨s.takeWhile isBlank, fun _ => List.mem_takeWhile_imp, List.takeWhile_append_dropWhile.symm⟩

theorem head?_trimStart_append (hb : AllBlank b) :
    (trimStart (s ++ b)).head? = (trimStart s).head? := by
  by_cases hs : AllBlank s
  · rw [trimStart_eq_nil_iff.2 hs, trimStart_eq_nil_iff.2 (allBlank_append.2 ⟨hs, hb⟩)]
  · rw [trimStart_append_of_not_allBlank hs]
    cases h : trimStart s with
    | nil => exact absurd (trimStart_eq_nil_iff.1 h) hs
    | cons c r => rfl

/-! ## At the end -/

theorem dropEndWhile_eq_self {p : Char → Bool} (h : ∀ c ∈ t.getLast?, p c = false) : dropEndWhile p t = t := by
  rw [← List.head?_reverse] at h
  rw [dropEndWhile, List.reverse_eq_iff]
  cases hrev : t.reverse with
  | nil => rfl
  | cons c s => exact List.dropWhile_cons_of_neg (by simp [h c (by rw [hrev]; rfl)])

theorem dropEndWhile_append {p : Char → Bool} (hb : ∀ c ∈ b, p c = true) :
    dropEndWhile p (a ++ b) = dropEndWhile p a := by
  rw [dropEndWhile, List.reverse_append, List.dropWhile_append_of_pos (by simpa using hb), dropEndWhile]

theorem exists_dropEndWhile_append (p : Char → Bool) (t : Text) :
    ∃ b, (∀ c ∈ b, p c = true) ∧ t = dropEndWhile p t ++ b := by
  refine ⟨(t.reverse.takeWhile p).reverse, fun c hc => List.mem_takeWhile_imp (List.mem_reverse.1 hc), ?_⟩
  rw [dropEndWhile, ← List.reverse_append, List.takeWhile_append_dropWhile, List.reverse_reverse]

theorem not_of_mem_getLast?_dropEndWhile {p : Char → Bool} {c : Char} (h : c ∈ (dropEndWhile p t).getLast?) :
    p c = false := by
  have hhead := List.head?_dropWhile_not p t.reverse
  rw [dropEndWhile, List.getLast?_reverse] at h
  rw [h] at hhead
  simpa using hhead

theorem trimEnd_eq (s : Text) : trimEnd s = (trimStart s.reverse).reverse := rfl

theorem trimEnd_append (hb : AllBlank b) : trimEnd (s ++ b) = trimEnd s := dropEndWhile_append hb

theorem trimEnd_append_of_not_allBlank (hb : ¬AllBlank b) : trimEnd (a ++ b) = a ++ trimEnd b := by
  rw [trimEnd_eq, List.reverse_append,
    trimStart_append_of_not_allBlank (mt allBlank_reverse.1 hb), List.reverse_append,
    List.reverse_reverse, trimEnd_eq]

theorem trimEnd_concat {c : Char} (hc : isBlank c = false) : trimEnd (s ++ [c]) = s ++ [c] := by
  rw [trimEnd_append_of_not_allBlank (by simp [AllBlank, hc]), trimEnd_eq, List.reverse_singleton,
    trimStart_cons hc, List.reverse_singleton]

theorem trimEnd_append_of_trimEnd (ha : trimEnd a = a) : trimEnd (a ++ s) = a ++ trimEnd s := by
  rw [trimEnd_eq, List.reverse_append, trimStart_append_of_trimStart, List.reverse_append,
    List.reverse_reverse, trimEnd_eq]
  rw [← List.reverse_inj, ← trimEnd_eq, ha, List.reverse_reverse]

theorem exists_trimEnd_append_blank (s : Text) : ∃ b, AllBlank b ∧ s = trimEnd s ++ b :=
  exists_dropEndWhile_append isBlank s

/-! ## At both ends -/

theorem trim_append_right (hb : AllBlank b) : trim (s ++ b) = trim s := by
  by_cases hs : AllBlank s
  · have hsb : AllBlank (s ++ b) := allBlank_append.2 ⟨hs, hb⟩
    rw [trim, trim, trimStart_eq_nil_iff.2 hs, trimStart_eq_nil_iff.2 hsb]
  · rw [trim, trimStart_append_of_not_allBlank hs, trimEnd_append hb, trim]

theorem trim_trimEnd (s : Text) : trim (trimEnd s) = trim s := by
  obtain ⟨b, hb, h⟩ := exists_trimEnd_append_blank s
  have ht : trim (trimEnd s ++ b) = trim (trimEnd s) := trim_append_right hb
  rw [← h] at ht
  exact ht.symm

theorem trim_append_left (ha : AllBlank a) : trim (a ++ s) = trim s := by
  rw [trim, trimStart_append ha, trim]

theorem trim_trimStart (s : Text) : trim (trimStart s) = trim s := by
  rw [trim, trimStart_trimStart, trim]

theorem trim_eq_nil_iff : trim s = [] ↔ AllBlank s := by
  constructor
  · intro h
    obtain ⟨a, ha, hs⟩ := exists_blank_append_trimStart s
    obtain ⟨b, hb, ht⟩ := exists_trimEnd_append_blank (trimStart s)
    rw [← trim, h, List.nil_append] at ht
    rw [hs, ht]
    exact allBlank_append.2 ⟨ha, hb⟩
  · intro h
    rw [trim, trimStart_eq_nil_iff.2 h]
    rfl

theorem trimEnd_sublist (s : Text) : (trimEnd s).Sublist s := by
  have h : (trimStart s.reverse).Sublist s.reverse := List.dropWhile_sublist isBlank
  rw [trimEnd_eq, ← List.reverse_sublist, List.reverse_reverse]
  exact h

theorem trim_sublist (s : Text) : (trim s).Sublist s :=
  (trimEnd_sublist _).trans (List.dropWhile_sublist _)

theorem mem_trim_iff {c : Char} (hc : isBlank c = false) : c ∈ trim s ↔ c ∈ s := by
  obtain ⟨a, ha, hs⟩ := exists_blank_append_trimStart s
  obtain ⟨b, hb, ht⟩ := exists_trimEnd_append_blank (trimStart s)
  rw [← trim] at ht
  refine ⟨fun h => (trim_sublist s).subset h, fun h => ?_⟩
  rw [hs, ht] at h
  simpa [ha.not_mem hc, hb.not_mem hc] using h

theorem trim_trim (s : Text) : trim (trim s) = trim s :=
  calc trim (trim s) = trim (trimStart s) := trim_trimEnd (trimStart s)
    _ = trim s := trim_trimStart s

theorem trimStart_eq_self_iff : trimStart t = t ↔ ∀ c ∈ t.head?, isBlank c = false := by
  cases t with
  | nil => simp [trimStart]
  | cons c t =>
    constructor
    · rintro h d ⟨⟩
      exact not_isBlank_of_trimStart h
    · intro h
      exact trimStart_cons (h c rfl)

theorem trimEnd_eq_self_iff : trimEnd t = t ↔ ∀ c ∈ t.getLast?, isBlank c = false := by
  rw [trimEnd_eq, List.reverse_eq_iff, trimStart_eq_self_iff, List.head?_reverse]

theorem trimStart_eq_self (h : trim t = t) : trimStart t = t := by
  have hle := (trimEnd_sublist (trimStart t)).length_le
  rw [← trim, h] at hle
  exact (List.dropWhile_sublist isBlank).eq_of_length_le hle

theorem trim_eq_self_iff :
    trim t = t ↔ (∀ c ∈ t.head?, isBlank c = false) ∧ ∀ c ∈ t.getLast?, isBlank c = false := by
  rw [← trimStart_eq_self_iff, ← trimEnd_eq_self_iff]
  constructor
  · intro h
    have hstart := trimStart_eq_self h
    rw [trim, hstart] at h
    exact ⟨hstart, h⟩
  · rintro ⟨hstart, hend⟩
    rw [trim, hstart, hend]

end ScenarioDocs.Text
