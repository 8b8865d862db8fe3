import Mathlib.Data.List.Nodup
import ScenarioDocs.Findings

/-!
# Scopes

Adding records to a list of scopes keeps their names apart and their records,
up to order, together. What was there stays where it is and goes first.
-/

namespace ScenarioDocs.Findings

variable {scopes : List Scope} {scope : Scope} {name : Text} {scenarios : List Scenario} {f : Findings} {found : Found}

structure Proper (f : Findings) : Prop where
  names : (f.scopes.map (·.name)).Nodup
  nonempty : ∀ scope ∈ f.scopes, scope.scenarios ≠ []

theorem proper_empty : Proper .empty := ⟨List.nodup_nil, nofun⟩

theorem perm_addToScopes (name : Text) (scenarios : List Scenario) (scopes : List Scope) :
    ((addToScopes name scenarios scopes).flatMap (·.scenarios)).Perm (scopes.flatMap (·.scenarios) ++ scenarios) := by
  induction scopes with
  | nil => simp [addToScopes]
  | cons scope scopes ih =>
    rw [addToScopes]
    split
    · rw [List.flatMap_cons, List.flatMap_cons, List.append_assoc, List.append_assoc]
      exact List.perm_append_comm.append_left _
    · rw [List.flatMap_cons, List.flatMap_cons, List.append_assoc]
      exact ih.append_left _

theorem addToScopes_of_not_mem (scenarios : List Scenario) (h : name ∉ scopes.map (·.name)) :
    addToScopes name scenarios scopes = scopes ++ [⟨name, scenarios⟩] := by
  induction scopes with
  | nil => rfl
  | cons scope scopes ih =>
    rw [List.map_cons, List.mem_cons, not_or] at h
    rw [addToScopes, if_neg (Ne.symm h.1), ih h.2]
    rfl

theorem mem_names_addToScopes {n : Text} :
    n ∈ (addToScopes name scenarios scopes).map (·.name) ↔ n = name ∨ n ∈ scopes.map (·.name) := by
  induction scopes with
  | nil => simp [addToScopes]
  | cons scope scopes ih =>
    rw [addToScopes]
    split
    · rename_i hname
      simp [hname]
    · rw [List.map_cons, List.mem_cons, ih, List.map_cons, List.mem_cons, or_left_comm]

theorem nodup_addToScopes (h : (scopes.map (·.name)).Nodup) :
    ((addToScopes name scenarios scopes).map (·.name)).Nodup := by
  induction scopes with
  | nil => simp [addToScopes]
  | cons scope scopes ih =>
    rw [addToScopes]
    split
    · exact h
    · rename_i hname
      rw [List.map_cons, List.nodup_cons] at h ⊢
      refine ⟨?_, ih h.2⟩
      rw [mem_names_addToScopes, not_or]
      exact ⟨hname, h.1⟩

theorem nonempty_addToScopes (hne : scenarios ≠ []) (h : ∀ scope ∈ scopes, scope.scenarios ≠ []) :
    ∀ scope ∈ addToScopes name scenarios scopes, scope.scenarios ≠ [] := by
  induction scopes with
  | nil => simpa [addToScopes] using hne
  | cons scope scopes ih =>
    rw [List.forall_mem_cons] at h
    rw [addToScopes]
    split
    · rw [List.forall_mem_cons]
      exact ⟨by simp [hne], h.2⟩
    · rw [List.forall_mem_cons]
      exact ⟨h.1, ih h.2⟩

theorem add_of_empty (h : found.scenarios = []) : (f.add name found).scopes = f.scopes := by
  rw [add, h]
  rfl

theorem add_of_ne (h : found.scenarios ≠ []) :
    (f.add name found).scopes = addToScopes name found.scenarios f.scopes := by
  rw [add]
  exact if_neg (by simpa using h)

theorem perm_add (f : Findings) (name : Text) (found : Found) :
    ((f.add name found).scopes.flatMap (·.scenarios)).Perm (f.scopes.flatMap (·.scenarios) ++ found.scenarios) := by
  by_cases h : found.scenarios = []
  · rw [add_of_empty h, h, List.append_nil]
  · rw [add_of_ne h]
    exact perm_addToScopes _ _ _

theorem proper_add (h : f.Proper) (name : Text) (found : Found) : (f.add name found).Proper := by
  by_cases hne : found.scenarios = []
  · constructor
    · rw [add_of_empty hne]
      exact h.names
    · rw [add_of_empty hne]
      exact h.nonempty
  · constructor
    · rw [add_of_ne hne]
      exact nodup_addToScopes h.names
    · rw [add_of_ne hne]
      exact nonempty_addToScopes hne h.nonempty

theorem name_of_mem_add (h : scope ∈ (f.add name found).scopes) :
    scope.name = name ∨ ∃ before ∈ f.scopes, before.name = scope.name := by
  by_cases hne : found.scenarios = []
  · rw [add_of_empty hne] at h
    exact .inr ⟨scope, h, rfl⟩
  · rw [add_of_ne hne] at h
    have hmem := mem_names_addToScopes.1 (List.mem_map_of_mem (f := (·.name)) h)
    exact hmem.imp_right List.mem_map.1

/-! ## Findings that go on -/

/-- Every scope stays at its place and under its name; new records and skips come after the old ones. -/
structure Extends (f f' : Findings) : Prop where
  scopes : ∀ (i : Nat) (scope : Scope), f.scopes[i]? = some scope →
    ∃ scope', f'.scopes[i]? = some scope' ∧ scope'.name = scope.name ∧ scope.scenarios <+: scope'.scenarios
  skipped : f.skipped <+: f'.skipped

namespace Extends

variable {f' f'' : Findings}

theorem refl (f : Findings) : f.Extends f :=
  ⟨fun _ scope h => ⟨scope, h, rfl, List.prefix_rfl⟩, List.prefix_rfl⟩

theorem trans (h : f.Extends f') (h' : f'.Extends f'') : f.Extends f'' := by
  refine ⟨fun i scope hscope => ?_, h.skipped.trans h'.skipped⟩
  obtain ⟨scope', hscope', hname, hrecords⟩ := h.scopes i scope hscope
  obtain ⟨scope'', hscope'', hname', hrecords'⟩ := h'.scopes i scope' hscope'
  exact ⟨scope'', hscope'', hname'.trans hname, hrecords.trans hrecords'⟩

end Extends

theorem getElem?_addToScopes (name : Text) (scenarios : List Scenario) {i : Nat} (h : scopes[i]? = some scope) :
    ∃ scope' : Scope, (addToScopes name scenarios scopes)[i]? = some scope' ∧ scope'.name = scope.name ∧
      scope.scenarios <+: scope'.scenarios := by
  induction scopes generalizing i with
  | nil => cases h
  | cons first scopes ih =>
    rw [addToScopes]
    cases i with
    | zero =>
      cases h
      split
      · exact ⟨_, rfl, rfl, List.prefix_append _ _⟩
      · exact ⟨scope, rfl, rfl, List.prefix_rfl⟩
    | succ i =>
      rw [List.getElem?_cons_succ] at h
      split
      · exact ⟨scope, by rw [List.getElem?_cons_succ, h], rfl, List.prefix_rfl⟩
      · rw [List.getElem?_cons_succ]
        exact ih h

theorem extends_add (f : Findings) (name : Text) (found : Found) : f.Extends (f.add name found) := by
  refine ⟨fun i scope h => ?_, List.prefix_append _ _⟩
  by_cases hne : found.scenarios = []
  · rw [add_of_empty hne]
    exact ⟨scope, h, rfl, List.prefix_rfl⟩
  · rw [add_of_ne hne]
    exact getElem?_addToScopes _ _ h

theorem add_nothing (f : Findings) (name : Text) : f.add name ⟨[], []⟩ = f := by
  obtain ⟨scopes, skipped⟩ := f
  simp [add]

end ScenarioDocs.Findings
