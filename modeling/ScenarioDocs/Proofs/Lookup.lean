import Mathlib.Data.List.Nodup

/-!
# Looking up a key

What a list of keys and values holds under a key: the value that stands first
with it, and with distinct keys the only one.
-/

namespace ScenarioDocs

variable {κ α : Type} [BEq κ] [LawfulBEq κ] {entries : List (κ × α)} {k key : κ} {a b : α}

theorem lookup_isSome_iff_mem : (entries.lookup k).isSome ↔ k ∈ entries.map (·.1) := by
  rw [List.lookup_isSome_iff, List.mem_map]
  exact exists_congr fun p => and_congr_right fun _ => beq_iff_eq.trans eq_comm

section
variable [DecidableEq κ]

theorem lookup_cons : List.lookup k ((key, b) :: entries) = if k = key then some b else entries.lookup k := by
  rw [List.lookup_cons]
  by_cases hk : k = key
  · simp [hk]
  · simp [hk, beq_eq_false_iff_ne.2 hk]

theorem lookup_eq_some_iff (h : (entries.map (·.1)).Nodup) : entries.lookup k = some a ↔ (k, a) ∈ entries := by
  induction entries with
  | nil => simp
  | cons p entries ih =>
    obtain ⟨key, b⟩ := p
    rw [List.map_cons, List.nodup_cons] at h
    rw [lookup_cons, List.mem_cons]
    by_cases hk : k = key
    · subst hk
      have hnot : (k, a) ∉ entries := fun hmem => h.1 (List.mem_map.2 ⟨_, hmem, rfl⟩)
      simp [hnot, eq_comm]
    · simp [hk, ih h.2]

theorem lookup_eq_head? : entries.lookup k = (entries.filter (·.1 = k)).head?.map (·.2) := by
  induction entries with
  | nil => rfl
  | cons p entries ih =>
    obtain ⟨key, b⟩ := p
    rw [lookup_cons, ih]
    by_cases hk : k = key
    · simp [hk]
    · simp [hk, Ne.symm hk]

theorem lookup_filter_ne (entries : List (κ × α)) :
    (entries.filter (·.1 ≠ key)).lookup k = if k = key then none else entries.lookup k := by
  induction entries with
  | nil => simp
  | cons p entries ih =>
    obtain ⟨key', a⟩ := p
    rw [lookup_cons]
    by_cases hkey : key' = key
    · rw [List.filter_cons_of_neg (by simp [hkey]), ih, hkey]
      split <;> rfl
    · rw [List.filter_cons_of_pos (by simp [hkey]), lookup_cons, ih]
      by_cases hk : k = key
      · rw [if_neg (hk ▸ Ne.symm hkey), if_pos hk, if_pos hk]
      · rw [if_neg hk, if_neg hk]

end

end ScenarioDocs
