import ScenarioDocs.FileSystem.Lookup
import ScenarioDocs.Proofs.Text.Lines

/-!
# The steps of a path

A path takes the steps of its directory and then one to its name; dots between
them and after the name lead nowhere.
-/

namespace ScenarioDocs

open FileSystem

namespace Path

variable {base name p x : Text} {l dots : List Text}

/-! ## Joining -/

theorem isAbsolute_append (hbase : base ≠ []) : isAbsolute (base ++ p) = isAbsolute base := by
  obtain ⟨c, t, rfl⟩ := List.exists_cons_of_ne_nil hbase
  rfl

theorem isAbsolute_eq_false (hname : '/' ∉ name) : isAbsolute name = false := by
  cases name with
  | nil => rfl
  | cons c t =>
    rw [List.mem_cons, not_or] at hname
    simp [isAbsolute, Ne.symm hname.1]

theorem join_eq (hname : '/' ∉ name) :
    join base name = if base = [] ∨ base.getLast? = some '/' then base ++ name else base ++ '/' :: name := by
  rw [join, isAbsolute_eq_false hname]
  rfl

theorem join_name_inj {name' : Text} (hname : '/' ∉ name) (hname' : '/' ∉ name') (h : join base name = join base name') :
    name = name' := by
  rw [join_eq hname, join_eq hname'] at h
  split at h
  · exact List.append_cancel_left h
  · exact (List.cons.inj (List.append_cancel_left h)).2

theorem join_nil (hname : '/' ∉ name) : join [] name = name := by
  rw [join_eq hname]
  rfl

theorem isAbsolute_join (hname : '/' ∉ name) : isAbsolute (join base name) = isAbsolute base := by
  by_cases hbase : base = []
  · rw [hbase, join_nil hname, isAbsolute_eq_false hname]
    rfl
  · rw [join_eq hname]
    split <;> exact isAbsolute_append hbase

/-- A path that is joined is there as a whole, and after a slash at most comes the name. -/
theorem exists_join_eq (hname : '/' ∉ name) (base : Text) : ∃ sep, (sep = [] ∨ sep = ['/']) ∧
    join base name = base ++ sep ++ name := by
  rw [join_eq hname]
  split
  · exact ⟨[], .inl rfl, by simp⟩
  · exact ⟨['/'], .inr rfl, by simp⟩

end Path

/-! ## Steps -/

namespace FileSystem

variable {base name t u : Text}

theorem pieces_slash_append (t u : Text) :
    Text.pieces '/' (t ++ '/' :: u) = Text.pieces '/' t ++ Text.pieces '/' u := by
  induction t with
  | nil => rfl
  | cons c t ih =>
    rw [List.cons_append, Text.pieces, Text.pieces, ih]
    split
    · rfl
    · cases h : Text.pieces '/' t with
      | nil => exact absurd h (Text.pieces_ne_nil _ _)
      | cons q qs => rfl

theorem steps_slash_append (t u : Text) : steps (t ++ '/' :: u) = steps t ++ steps u := by
  rw [steps, pieces_slash_append, List.filter_append]
  rfl

theorem steps_nil : steps [] = [] := rfl

theorem steps_dot : steps ['.'] = [['.']] := by decide

theorem steps_name (hne : name ≠ []) (hname : '/' ∉ name) : steps name = [name] := by
  rw [steps, Text.pieces_of_not_mem hname, List.filter_cons_of_pos (by simpa using hne), List.filter_nil]

theorem steps_join (hne : name ≠ []) (hname : '/' ∉ name) (base : Text) :
    steps (Path.join base name) = steps base ++ [name] := by
  rw [Path.join_eq hname]
  split
  · rename_i h
    rcases h with rfl | h
    · rw [List.nil_append, steps_name hne hname, steps_nil, List.nil_append]
    · obtain ⟨t, rfl⟩ := List.getLast?_eq_some_iff.1 h
      rw [List.append_assoc, List.singleton_append, steps_slash_append, steps_slash_append, steps_nil,
        List.append_nil, steps_name hne hname]
  · rw [steps_slash_append, steps_name hne hname]

theorem steps_join_slash {first : Text} {rest : List Text} (hfirst : '/' ∉ first) (hrest : ∀ x ∈ rest, '/' ∉ x) :
    steps (Text.join ['/'] (first :: rest)) = (first :: rest).filter (· ≠ []) := by
  rw [steps, Text.pieces_join (by simp) (by simpa using ⟨hfirst, hrest⟩)]

end FileSystem

/-! ## The directory and the name -/

namespace Path

variable {base name p x : Text} {l : List Text}

theorem isIdle_iff : isIdle x = true ↔ x = [] ∨ x = ['.'] := by
  simp [isIdle]

theorem isIdle_eq_false_iff : isIdle x = false ↔ x ≠ [] ∧ x ≠ ['.'] := by
  simp [isIdle]

theorem filter_idle (h : ∀ x ∈ l, isIdle x = true) : ∀ x ∈ l.filter (· ≠ []), x = ['.'] := by
  intro x hx
  obtain ⟨hmem, hne⟩ := List.mem_filter.1 hx
  exact (isIdle_iff.1 (h x hmem)).resolve_left (by simpa using hne)

theorem not_isIdle_getLast_dropIdle (h : dropIdle l ≠ []) : isIdle ((dropIdle l).getLast h) = false := by
  have hhead := List.head?_dropWhile_not isIdle l.reverse
  have hlast : (dropIdle l).getLast h = (l.reverse.dropWhile isIdle).head (by simpa [dropIdle] using h) := by
    simp [dropIdle, List.getLast_reverse]
  rw [hlast]
  rw [List.head?_eq_some_head (by simpa [dropIdle] using h)] at hhead
  simpa using hhead

theorem join_append_slash {a b : List Text} (ha : a ≠ []) (hb : b ≠ []) :
    Text.join ['/'] (a ++ b) = Text.join ['/'] a ++ '/' :: Text.join ['/'] b := by
  induction a with
  | nil => exact absurd rfl ha
  | cons x a ih =>
    cases a with
    | nil =>
      obtain ⟨y, b, rfl⟩ := List.exists_cons_of_ne_nil hb
      simp [Text.join]
    | cons x' a => simpa [Text.join] using ih (by simp)

structure Spells (p base name : Text) : Prop where
  noSlash : '/' ∉ name
  nonempty : name ≠ []
  notCurrent : name ≠ ['.']
  notParent : name ≠ ['.', '.']
  isAbsolute : isAbsolute base = Path.isAbsolute p
  isPrefix : ∃ rest, p = base ++ rest
  steps : ∃ before after : List Text, (∀ x ∈ before, x = ['.']) ∧ (∀ x ∈ after, x = ['.']) ∧
    FileSystem.steps p = FileSystem.steps base ++ before ++ name :: after

theorem isAbsolute_join_slash {first : Text} (hfirst : '/' ∉ first) (rest : List Text) :
    isAbsolute (Text.join ['/'] (first :: rest)) = decide (first = [] ∧ rest ≠ []) := by
  cases first with
  | nil => cases rest <;> simp [Text.join, isAbsolute]
  | cons c t =>
    rw [List.mem_cons, not_or] at hfirst
    cases rest <;> simp [Text.join, isAbsolute, Ne.symm hfirst.1]

theorem steps_of_pieces {first : Text} {others : List Text} (h : Text.pieces '/' p = first :: others) :
    FileSystem.steps p = (first :: others).filter (· ≠ []) := by
  rw [FileSystem.steps, h]

theorem steps_directory {first : Text} {kept : List Text} (hfirst : '/' ∉ first) (hkept : ∀ x ∈ kept, '/' ∉ x) :
    FileSystem.steps (if first = [] ∧ kept = [] then ['/'] else Text.join ['/'] (first :: kept)) =
      (first :: kept).filter (· ≠ []) := by
  split
  · rename_i h
    rw [h.1, h.2]
    decide
  · exact steps_join_slash hfirst hkept

theorem isAbsolute_directory {first : Text} {kept : List Text} (hfirst : '/' ∉ first) :
    isAbsolute (if first = [] ∧ kept = [] then ['/'] else Text.join ['/'] (first :: kept)) = decide (first = []) := by
  split
  · rename_i h
    simp [h.1, isAbsolute]
  · rename_i h
    rw [isAbsolute_join_slash hfirst]
    grind

theorem spells_join (base : Text) (hslash : '/' ∉ name) (hne : name ≠ []) (hcurrent : name ≠ ['.'])
    (hparent : name ≠ ['.', '.']) : Spells (join base name) base name where
  noSlash := hslash
  nonempty := hne
  notCurrent := hcurrent
  notParent := hparent
  isAbsolute := (isAbsolute_join hslash).symm
  isPrefix := by
    obtain ⟨sep, -, hjoin⟩ := exists_join_eq hslash base
    rw [hjoin, List.append_assoc]
    exact ⟨_, rfl⟩
  steps := ⟨[], [], nofun, nofun, by simp [steps_join hne hslash]⟩

section
variable {first : Text} {others kept before idle : List Text}

theorem spells_first (hs : Text.pieces '/' p = first :: others) (hfirst : '/' ∉ first)
    (hname : isIdle first = false ∧ first ≠ ['.', '.']) (hidle : ∀ x ∈ others, isIdle x = true) :
    Spells p [] first := by
  obtain ⟨hne, hcurrent⟩ := isIdle_eq_false_iff.1 hname.1
  refine ⟨hfirst, hne, hcurrent, hname.2, ?_, ⟨p, rfl⟩, [], others.filter (· ≠ []), by simp, filter_idle hidle, ?_⟩
  · rw [← Text.join_pieces '/' p, hs, isAbsolute_join_slash hfirst]
    simp [hne, isAbsolute]
  · rw [steps_of_pieces hs, List.filter_cons_of_pos (by simpa using hne)]
    rfl

theorem spells_last (hs : Text.pieces '/' p = first :: (kept ++ before ++ [name] ++ idle))
    (hname : isIdle name = false ∧ name ≠ ['.', '.']) (hbefore : ∀ x ∈ before, isIdle x = true)
    (hidle : ∀ x ∈ idle, isIdle x = true) :
    Spells p (if first = [] ∧ kept = [] then ['/'] else Text.join ['/'] (first :: kept)) name := by
  have hparts : ∀ x ∈ Text.pieces '/' p, '/' ∉ x := Text.not_mem_of_mem_pieces p
  rw [hs] at hparts
  have hfirst : '/' ∉ first := hparts first (by simp)
  have hkept : ∀ x ∈ kept, '/' ∉ x := fun x hx => hparts x (by simp [hx])
  obtain ⟨hne, hcurrent⟩ := isIdle_eq_false_iff.1 hname.1
  refine ⟨hparts name (by simp), hne, hcurrent, hname.2, ?_, ?_, before.filter (· ≠ []), idle.filter (· ≠ []),
    filter_idle hbefore, filter_idle hidle, ?_⟩
  · rw [isAbsolute_directory hfirst, ← Text.join_pieces '/' p, hs, isAbsolute_join_slash hfirst]
    simp
  · rw [← Text.join_pieces '/' p, hs]
    split
    · rename_i hroot
      obtain ⟨x, rest, hrest⟩ := List.exists_cons_of_ne_nil (l := kept ++ before ++ [name] ++ idle) (by simp)
      rw [hroot.1, hrest]
      exact ⟨_, rfl⟩
    · rw [List.append_assoc, List.append_assoc, ← List.cons_append, join_append_slash (by simp) (by simp)]
      exact ⟨_, rfl⟩
  · have hsplit : first :: (kept ++ before ++ [name] ++ idle) = first :: kept ++ before ++ name :: idle := by simp
    rw [steps_of_pieces hs, steps_directory hfirst hkept, hsplit, List.filter_append, List.filter_append,
      List.filter_cons_of_pos (l := idle) (by simpa using hne)]

end

theorem spells_of_fileName? (h : fileName? p = some name) : Spells p ((parent? p).getD []) name := by
  have hparts : ∀ x ∈ Text.pieces '/' p, '/' ∉ x := Text.not_mem_of_mem_pieces p
  cases hs : Text.pieces '/' p with
  | nil => exact absurd hs (Text.pieces_ne_nil _ _)
  | cons first others =>
    obtain ⟨idle, hothers, hidle⟩ := dropIdle_append others
    unfold fileName? segments at h
    unfold parent? segments
    rw [hs] at h hparts ⊢
    simp only [Option.ite_none_left_eq_some, Option.some.injEq, not_or, Bool.not_eq_true] at h ⊢
    obtain ⟨hname, rfl⟩ := h
    -- the name is the first segment if no other one counts
    by_cases hnone : dropIdle others = []
    · rw [hnone, List.nil_append] at hothers
      rw [← hothers] at hidle
      simp only [hnone, List.getLast?_nil, Option.getD_none] at hname ⊢
      have hspells := spells_first hs (hparts first (by simp)) hname hidle
      rwa [if_pos trivial, if_neg hspells.nonempty]
    · obtain ⟨before, hkept, hbefore⟩ := dropIdle_append (dropIdle others).dropLast
      have hlast := List.getLast?_eq_some_getLast hnone
      have hsplit := List.dropLast_concat_getLast hnone
      simp only [hlast, Option.getD_some] at hname ⊢
      rw [if_neg hnone]
      have hpieces : Text.pieces '/' p = first :: (dropIdle (dropIdle others).dropLast ++ before ++
          [(dropIdle others).getLast hnone] ++ idle) := by
        rw [← hkept, hsplit, ← hothers, hs]
      have hspells := spells_last hpieces hname hbefore hidle
      by_cases hroot : first = [] ∧ dropIdle (dropIdle others).dropLast = []
      · rw [if_pos hroot] at hspells ⊢
        exact hspells
      · rw [if_neg hroot] at hspells ⊢
        exact hspells

theorem steps_of_fileName?_eq_none (h : fileName? p = none) : ∃ before after : List Text, (∀ x ∈ after, x = ['.']) ∧
    (FileSystem.steps p = after ∨ FileSystem.steps p = before ++ ['.', '.'] :: after) := by
  cases hs : Text.pieces '/' p with
  | nil => exact absurd hs (Text.pieces_ne_nil _ _)
  | cons first others =>
    obtain ⟨idle, hothers, hidle⟩ := dropIdle_append others
    unfold fileName? segments at h
    rw [hs] at h
    simp only [ite_eq_left_iff, reduceCtorEq, imp_false, not_not] at h
    rw [steps_of_pieces hs]
    by_cases hnone : dropIdle others = []
    · rw [hnone, List.nil_append] at hothers
      rw [← hothers] at hidle
      simp only [hnone, List.getLast?_nil, Option.getD_none] at h
      rcases h with hfirst | rfl
      · refine ⟨[], _, filter_idle ?_, .inl rfl⟩
        rw [List.forall_mem_cons]
        exact ⟨hfirst, hidle⟩
      · exact ⟨[], _, filter_idle hidle, .inr rfl⟩
    · simp only [List.getLast?_eq_some_getLast hnone, Option.getD_some] at h
      have hlast := (List.dropLast_concat_getLast hnone).symm
      -- the last segment that counts is not idle, so it is `..`
      rcases h with hname | hname
      · exact absurd hname (by simp [not_isIdle_getLast_dropIdle hnone])
      · refine ⟨(first :: (dropIdle others).dropLast).filter (· ≠ []), idle.filter (· ≠ []), filter_idle hidle,
          .inr ?_⟩
        rw [hname] at hlast
        have hsplit : others = (dropIdle others).dropLast ++ ['.', '.'] :: idle :=
          calc others = dropIdle others ++ idle := hothers
            _ = (dropIdle others).dropLast ++ [['.', '.']] ++ idle := by rw [← hlast]
            _ = _ := List.append_assoc ..
        rw [congrArg (first :: ·) hsplit, ← List.cons_append, List.filter_append,
          List.filter_cons_of_pos (l := idle) (by decide)]

end Path

end ScenarioDocs
