import ScenarioDocs.Proofs.Lookup
import ScenarioDocs.Schema.Shape

/-!
# Taking arguments into fields

What the fields hold after arguments were taken: under every name the value of
the argument with that key, as the shape keeps it.
-/

namespace ScenarioDocs

variable {key k schema : Text} {v : Marker.Value} {fields taken : FieldValues} {shape : Shape}
  {args : List Marker.Argument}

theorem FieldValues.lookup_insert (h : fields.lookup key = none) :
    (fields.insert key v).lookup k = if k = key then some v else fields.lookup k := by
  induction fields with
  | nil => exact lookup_cons
  | cons p rest ih =>
    obtain ⟨k', v'⟩ := p
    rw [lookup_cons] at h
    unfold FieldValues.insert
    split
    · rw [lookup_cons]
    · split at h
      · cases h
      · rename_i hne
        rw [lookup_cons, ih h, lookup_cons]
        by_cases hk : k = key
        · rw [if_neg (hk ▸ hne), if_pos hk, if_pos hk]
        · rw [if_neg hk, if_neg hk]

namespace Shape

def kept? (shape : Shape) (arg : Marker.Argument) : Option Marker.Value :=
  (shape.field? arg.key).bind fun field => fit? field.kind arg.value

theorem take_cons {arg : Marker.Argument} (hv : shape.kept? arg = some v)
    (hnew : taken.lookup arg.key = none) :
    shape.take schema taken (arg :: args) = shape.take schema (taken.insert arg.key v) args := by
  obtain ⟨field, hf, hfit⟩ := Option.bind_eq_some_iff.1 hv
  simp [take, hf, hfit, hnew]

theorem take_cons_inv {arg : Marker.Argument} (h : shape.take schema taken (arg :: args) = .ok fields) :
    ∃ v, shape.kept? arg = some v ∧ taken.lookup arg.key = none ∧
      shape.take schema (taken.insert arg.key v) args = .ok fields := by
  rw [take] at h
  split at h
  · cases h
  · rename_i field hf
    split at h
    · cases h
    · rename_i v hv
      split at h
      · cases h
      · rename_i hnew
        exact ⟨v, by rw [kept?, hf, Option.bind_some, hv], Option.not_isSome_iff_eq_none.1 hnew, h⟩

theorem exists_take_eq_ok (hkeys : (args.map (·.key)).Nodup)
    (hnew : ∀ a ∈ args, taken.lookup a.key = none) (hfit : ∀ a ∈ args, (shape.kept? a).isSome) :
    ∃ fields, shape.take schema taken args = .ok fields := by
  induction args generalizing taken with
  | nil => exact ⟨taken, rfl⟩
  | cons arg args ih =>
    obtain ⟨hne, hkeys⟩ := List.nodup_cons.1 hkeys
    obtain ⟨v, hv⟩ := Option.isSome_iff_exists.1 (hfit arg (by simp))
    have harg := hnew arg (by simp)
    rw [take_cons hv harg]
    refine ih hkeys (fun a ha => ?_) fun a ha => hfit a (by simp [ha])
    rw [FieldValues.lookup_insert harg, if_neg, hnew a (by simp [ha])]
    intro hk
    exact hne (List.mem_map.2 ⟨a, ha, hk⟩)

theorem lookup_eq_none_of_take (h : shape.take schema taken args = .ok fields) :
    ∀ a ∈ args, taken.lookup a.key = none := by
  induction args generalizing taken with
  | nil => simp
  | cons arg args ih =>
    obtain ⟨v, hv, hnew, h⟩ := take_cons_inv h
    refine List.forall_mem_cons.2 ⟨hnew, fun a ha => ?_⟩
    have hi := ih h a ha
    rw [FieldValues.lookup_insert hnew] at hi
    split at hi
    · cases hi
    · exact hi

theorem lookup_take (h : shape.take schema taken args = .ok fields) (key : Text) :
    fields.lookup key = ((args.find? (·.key = key)).bind shape.kept?).or (taken.lookup key) := by
  induction args generalizing taken with
  | nil =>
    cases h
    simp
  | cons arg args ih =>
    obtain ⟨v, hv, hnew, h⟩ := take_cons_inv h
    have hlater := lookup_eq_none_of_take h
    rw [ih h, FieldValues.lookup_insert hnew, List.find?_cons]
    by_cases hk : arg.key = key
    · have hnone : args.find? (·.key = key) = none := by
        rw [List.find?_eq_none]
        intro a ha hak
        have hl := hlater a ha
        rw [FieldValues.lookup_insert hnew, if_pos (by simpa [hk] using hak)] at hl
        cases hl
      simp [hk, hnone, hv]
    · simp [hk, Ne.symm hk]

end Shape

end ScenarioDocs
