import ScenarioDocs.Proofs.FileSystem.Walk

/-!
# Walking in parts

The first steps of a walk have to lead to a directory, and the rest is walked
from there with the links that are left. With fewer links a walk ends at the
same place or meets one link too many.
-/

namespace ScenarioDocs

def Place.directory? : Place → Option Location
  | .unnamed loc => some loc
  | .taken loc .directory => some loc
  | _ => none

namespace FileSystem

variable {fs fs' : FileSystem} {mode : LastName} {links k : Nat} {dir loc d : Location} {step path : Text}
  {rest steps : List Text} {slash : Bool} {p : Place}

theorem append_ne_nil (h : rest ≠ []) : steps ++ rest ≠ [] := fun hnil => h (List.append_eq_nil_iff.1 hnil).2

theorem walk_long (hcurrent : step ≠ ['.']) (hparent : step ≠ ['.', '.'])
    (hopen : ¬(rest = [] ∧ mode = .create ∧ slash = true)) (h : nameLimit < (Utf8.encode step).length) :
    fs.walk mode links dir (step :: rest) slash = .error .nameTooLong := by
  rw [walk, if_neg hcurrent, if_neg hparent, if_neg hopen, if_pos h]

theorem walk_append (h : fs.walk .follow links dir steps slash = .ok p) (hp : p.directory? = some d) :
    ∃ k ≤ links, ∀ (mode : LastName) (rest : List Text) (slash : Bool), rest ≠ [] →
      fs.walk mode links dir (steps ++ rest) slash = fs.walk mode k d rest slash := by
  have hopen {mode : LastName} {l r : List Text} {b : Bool} (hr : r ≠ []) :
      ¬(l ++ r = [] ∧ mode = .create ∧ b = true) := fun h => append_ne_nil hr h.1
  fun_induction fs.walk .follow links dir steps slash with
  | case1 links =>
    cases h
    cases hp
    exact ⟨links, Nat.le_refl _, fun _ _ _ _ => rfl⟩
  | case2 _ _ _ _ ih =>
    obtain ⟨k, hk, hwalk⟩ := ih h
    exact ⟨k, hk, fun mode r b hr => by rw [List.cons_append, walk_current, hwalk mode r b hr]⟩
  | case3 _ _ _ _ _ ih =>
    obtain ⟨k, hk, hwalk⟩ := ih h
    exact ⟨k, hk, fun mode r b hr => by rw [List.cons_append, walk_parent, hwalk mode r b hr]⟩
  | case4 | case5 | case7 | case11 | case13 => cases h
  | case6 | case10 =>
    cases h
    cases hp
  | case8 links _ _ _ hcurrent hparent hshort _ hdir =>
    cases h
    refine ⟨links, Nat.le_refl _, fun mode r b hr => ?_⟩
    rw [← Option.some.inj hp]
    exact (walk_directory ⟨hcurrent, hparent, hshort⟩ (hopen (l := []) hr) hdir).trans (if_neg hr)
  | case9 _ _ _ _ _ hcurrent hparent _ hshort _ hdir _ ih =>
    obtain ⟨k, hk, hwalk⟩ := ih h
    refine ⟨k, hk, fun mode r b hr => ?_⟩
    rw [List.cons_append, walk_directory ⟨hcurrent, hparent, hshort⟩ (hopen hr) hdir, if_neg (append_ne_nil hr),
      hwalk mode r b hr]
  | case12 _ _ _ _ _ _ _ _ _ _ _ _ hlast => cases hlast.2
  | case14 _ _ rest _ hcurrent hparent _ hshort _ target hlink _ links ih =>
    obtain ⟨k, hk, hwalk⟩ := ih h
    -- the names of the target come before those that are left
    refine ⟨k, Nat.le_succ_of_le hk, fun mode r b hr => ?_⟩
    rw [List.cons_append, walk_link ⟨hcurrent, hparent, hshort⟩ (hopen hr) hlink fun h => append_ne_nil hr h.1,
      ← List.append_assoc, ← hwalk mode r b hr]
    simp [append_ne_nil hr]

/-- What comes before the last steps of a walk is a directory. -/
theorem exists_directory_of_walk (hrest : rest ≠ []) (h : fs.walk mode links dir (steps ++ rest) slash = .ok p)
    (b : Bool) : ∃ q d, fs.walk .follow links dir steps b = .ok q ∧ q.directory? = some d := by
  have hne {l : List Text} : l ++ rest ≠ [] := append_ne_nil hrest
  have hopen {l : List Text} : ¬(l ++ rest = [] ∧ mode = .create ∧ slash = true) := fun h => hne h.1
  fun_induction fs.walk .follow links dir steps b with
  | case1 => exact ⟨_, _, rfl, rfl⟩
  | case2 _ _ _ _ ih => exact ih (by rwa [List.cons_append, walk_current] at h)
  | case3 _ _ _ _ _ ih => exact ih (by rwa [List.cons_append, walk_parent] at h)
  | case4 _ _ _ _ _ _ _ hcreate => cases hcreate.2.1
  | case5 _ _ _ _ _ hcurrent hparent _ hlong =>
    rw [List.cons_append, walk_long hcurrent hparent hopen hlong] at h
    cases h
  | case6 _ _ _ _ hcurrent hparent hshort _ hnone | case7 _ _ _ _ _ hcurrent hparent _ hshort _ hnone =>
    rw [List.cons_append, walk_missing ⟨hcurrent, hparent, hshort⟩ hopen hnone, if_neg hne] at h
    cases h
  | case8 => exact ⟨_, _, rfl, rfl⟩
  | case9 _ _ _ _ _ hcurrent hparent _ hshort _ hdir _ ih =>
    rw [List.cons_append, walk_directory ⟨hcurrent, hparent, hshort⟩ hopen hdir, if_neg hne] at h
    exact ih h
  | case10 _ _ _ _ _ hcurrent hparent _ hshort _ _ hfile | case11 _ _ _ _ _ hcurrent hparent _ hshort _ _ hfile =>
    rw [List.cons_append, walk_file ⟨hcurrent, hparent, hshort⟩ hopen hfile, if_neg fun h => hne h.1] at h
    cases h
  | case12 _ _ _ _ _ _ _ _ _ _ _ _ hlast => cases hlast.2
  | case13 _ _ _ _ hcurrent hparent _ hshort _ _ hlink =>
    rw [List.cons_append, walk_link_zero ⟨hcurrent, hparent, hshort⟩ hopen hlink fun h => hne h.1] at h
    cases h
  | case14 _ _ _ _ hcurrent hparent _ hshort _ _ hlink _ _ ih =>
    rw [List.cons_append, walk_link ⟨hcurrent, hparent, hshort⟩ hopen hlink fun h => hne h.1, ← List.append_assoc] at h
    simp only [hne, decide_false, Bool.false_and, Bool.or_false] at h
    exact ih h

theorem walk_fewer {r : Except SystemError Place} (hk : k ≤ links) (h : fs.walk mode k dir steps slash = r) :
    r = .error .tooManyLinks ∨ fs.walk mode links dir steps slash = r := by
  fun_induction fs.walk mode k dir steps slash generalizing links
  case case1 =>
    rw [walk]
    exact .inr h
  case case2 ih =>
    rw [walk_current]
    exact ih hk h
  case case3 ih =>
    rw [walk_parent]
    exact ih hk h
  case case4 hcurrent hparent hcreate =>
    rw [walk, if_neg hcurrent, if_neg hparent, if_pos hcreate]
    exact .inr h
  case case5 hcurrent hparent hopen hlong =>
    rw [walk_long hcurrent hparent hopen hlong]
    exact .inr h
  case case6 hcurrent hparent hshort _ hnone hopen =>
    rw [walk_missing ⟨hcurrent, hparent, hshort⟩ hopen hnone, if_pos rfl]
    exact .inr h
  case case7 hcurrent hparent hopen hshort _ hnone hrest =>
    rw [walk_missing ⟨hcurrent, hparent, hshort⟩ hopen hnone, if_neg hrest]
    exact .inr h
  case case8 hcurrent hparent hshort _ hdir hopen =>
    rw [walk_directory ⟨hcurrent, hparent, hshort⟩ hopen hdir, if_pos rfl]
    exact .inr h
  case case9 hcurrent hparent hopen hshort _ hdir hrest ih =>
    rw [walk_directory ⟨hcurrent, hparent, hshort⟩ hopen hdir, if_neg hrest]
    exact ih hk h
  case case10 hcurrent hparent hopen hshort _ _ hfile hlast =>
    rw [walk_file ⟨hcurrent, hparent, hshort⟩ hopen hfile, if_pos hlast]
    exact .inr h
  case case11 hcurrent hparent hopen hshort _ _ hfile hlast =>
    rw [walk_file ⟨hcurrent, hparent, hshort⟩ hopen hfile, if_neg hlast]
    exact .inr h
  case case12 hcurrent hparent _ hshort _ _ hlink hlast =>
    obtain ⟨rfl, rfl⟩ := hlast
    rw [walk_last ⟨hcurrent, hparent, hshort⟩, placeAt_some hlink]
    exact .inr h
  -- no link is left, so the walk stops here
  case case13 => exact .inl h.symm
  case case14 hcurrent hparent hopen hshort _ _ hlink hfollow _ ih =>
    obtain ⟨l, rfl⟩ := Nat.exists_eq_succ_of_ne_zero (show links ≠ 0 by omega)
    rw [walk_link ⟨hcurrent, hparent, hshort⟩ hopen hlink hfollow]
    exact ih (by omega) h

end FileSystem

end ScenarioDocs
