import Mathlib.Data.List.Forall2
import Mathlib.Data.List.TakeWhile
import ScenarioDocs.Text.Lines

/-!
# Cutting a text into lines

Cutting undoes joining, no part holds the separator, and a line is a part
without the carriage return that may end it.
-/

namespace ScenarioDocs.Text

variable {sep : Char} {t u line : Text} {parts : List Text}

theorem pieces_of_not_mem (h : sep ∉ t) : pieces sep t = [t] := by
  induction t with
  | nil => rfl
  | cons c t ih =>
    rw [List.mem_cons, not_or] at h
    simp [pieces, Ne.symm h.1, ih h.2]

theorem pieces_append (h : sep ∉ t) : pieces sep (t ++ sep :: u) = t :: pieces sep u := by
  induction t with
  | nil => simp [pieces]
  | cons c t ih =>
    rw [List.mem_cons, not_or] at h
    simp [pieces, Ne.symm h.1, ih h.2]

theorem pieces_append_cons (sep : Char) (t u : Text) : pieces sep (t ++ sep :: u) = pieces sep t ++ pieces sep u := by
  induction t with
  | nil => simp [pieces]
  | cons c t ih =>
    rw [List.cons_append, pieces, pieces, ih]
    split
    · rfl
    · cases hp : pieces sep t with
      | nil => exact absurd hp (pieces_ne_nil sep t)
      | cons p ps => rfl

theorem length_pieces (sep : Char) (t : Text) : (pieces sep t).length = t.count sep + 1 := by
  induction t with
  | nil => rfl
  | cons c t ih =>
    rw [pieces]
    split
    · rename_i hc
      rw [hc, List.length_cons, ih, List.count_cons_self]
    · rename_i hc
      rw [List.count_cons_of_ne hc, ← ih]
      cases hp : pieces sep t with
      | nil => exact absurd hp (pieces_ne_nil sep t)
      | cons p ps => rfl

theorem pieces_join (hne : parts ≠ []) (h : ∀ p ∈ parts, sep ∉ p) :
    pieces sep (join [sep] parts) = parts := by
  induction parts with
  | nil => exact absurd rfl hne
  | cons p ps ih =>
    cases ps with
    | nil => exact pieces_of_not_mem (h p (by simp))
    | cons q qs =>
      have hrest : ∀ x ∈ q :: qs, sep ∉ x := fun x hx => h x (by simp [hx])
      rw [join, List.append_assoc, List.singleton_append, pieces_append (h p (by simp)),
        ih (by simp) hrest]

theorem not_mem_of_mem_pieces : ∀ (t : Text), ∀ p ∈ pieces sep t, sep ∉ p
  | [], p, hp => by simp_all [pieces]
  | c :: cs, p, hp => by
    have ih := not_mem_of_mem_pieces cs
    unfold pieces at hp
    split at hp
    · rcases List.mem_cons.1 hp with rfl | hp
      · simp
      · exact ih p hp
    · rename_i hc
      split at hp
      · rename_i hq
        exact absurd hq (pieces_ne_nil sep cs)
      · rename_i q qs hq
        rw [hq] at ih
        rcases List.mem_cons.1 hp with rfl | hp
        · simpa [Ne.symm hc] using ih q (by simp)
        · exact ih p (by simp [hp])

theorem sublist_of_mem_pieces : ∀ (t : Text), ∀ p ∈ pieces sep t, p.Sublist t
  | [], p, hp => by simp_all [pieces]
  | c :: cs, p, hp => by
    have ih := sublist_of_mem_pieces cs
    unfold pieces at hp
    split at hp
    · rcases List.mem_cons.1 hp with rfl | hp
      · exact List.nil_sublist _
      · exact (ih p hp).cons c
    · split at hp
      · rename_i hq
        exact absurd hq (pieces_ne_nil sep cs)
      · rename_i q qs hq
        rw [hq] at ih
        rcases List.mem_cons.1 hp with rfl | hp
        · exact (ih q (by simp)).cons_cons c
        · exact (ih p (by simp [hp])).cons c

/-! ## Line ends -/

theorem before?_eq_some_iff {ending : Text} : before? ending t = some u ↔ t = u ++ ending := by
  unfold before?
  rw [Option.map_eq_some_iff]
  constructor
  · rintro ⟨v, hv, rfl⟩
    rw [List.isPrefixOf?_eq_some_iff_append_eq] at hv
    rw [← List.reverse_reverse t, ← hv, List.reverse_append, List.reverse_reverse]
  · rintro rfl
    refine ⟨u.reverse, ?_, List.reverse_reverse u⟩
    rw [List.isPrefixOf?_eq_some_iff_append_eq, List.reverse_append]

theorem eq_dropReturn (line : Text) : line = dropReturn line ∨ line = dropReturn line ++ ['\r'] := by
  unfold dropReturn
  cases h : before? ['\r'] line with
  | none => exact .inl rfl
  | some u => exact .inr (before?_eq_some_iff.1 h)

theorem dropReturn_sublist (line : Text) : (dropReturn line).Sublist line := by
  rcases eq_dropReturn line with h | h
  · rw [← h]
  · have hs := List.sublist_append_left (dropReturn line) ['\r']
    rwa [← h] at hs

theorem mem_endLines : ∀ {parts : List Text}, line ∈ endLines parts →
    ∃ p ∈ parts, line = p ∨ line = dropReturn p
  | [], h => by simp [endLines] at h
  | [last], h => by
    unfold endLines at h
    split at h
    · cases h
    · exact ⟨last, by simp, .inl (by simpa using h)⟩
  | p :: q :: ps, h => by
    rcases List.mem_cons.1 h with rfl | h
    · exact ⟨p, by simp, .inr rfl⟩
    · obtain ⟨x, hx, hl⟩ := mem_endLines h
      exact ⟨x, List.mem_cons_of_mem _ hx, hl⟩

theorem newline_not_mem_lines (h : line ∈ lines t) : '\n' ∉ line := by
  obtain ⟨p, hp, rfl | rfl⟩ := mem_endLines h
  · exact not_mem_of_mem_pieces t _ hp
  · exact fun hm => not_mem_of_mem_pieces t _ hp ((dropReturn_sublist p).subset hm)

end ScenarioDocs.Text
