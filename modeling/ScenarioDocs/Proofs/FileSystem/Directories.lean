import ScenarioDocs.Proofs.FileSystem.Operations
import ScenarioDocs.Proofs.FileSystem.Parts
import ScenarioDocs.Proofs.Path.Steps

/-!
# Paths into a directory

A path that leads to a directory can be joined with a name, and then leads to
what the name stands for in that directory, unless it has become too long or
goes through too many links.
-/

namespace ScenarioDocs.FileSystem

variable {fs : FileSystem} {mode : LastName} {path base name : Text} {d loc : Location} {id : FileId} {entry : Entry}
  {p : Place} {k : Nat}

/-! ## Finding -/

theorem find_eq_ok_iff : fs.find path = .ok (loc, entry) ↔
    ∃ p, fs.resolve .follow path = .ok p ∧ (p = .taken loc entry ∨ p = .unnamed loc ∧ entry = .directory) := by
  unfold find
  cases fs.resolve .follow path with
  | error e => simp [bind, Except.bind]
  | ok p => cases p <;> simp [bind, Except.bind, pure, Except.pure, throw, throwThe, MonadExceptOf.throw, eq_comm]

theorem find_directory_iff : fs.find path = .ok (d, .directory) ↔
    ∃ p, fs.resolve .follow path = .ok p ∧ p.directory? = some d := by
  rw [find_eq_ok_iff]
  constructor
  · rintro ⟨p, hp, rfl | ⟨rfl, -⟩⟩ <;> exact ⟨_, hp, rfl⟩
  · rintro ⟨p, hp, hd⟩
    refine ⟨p, hp, ?_⟩
    cases p with
    | unnamed loc => exact .inr ⟨congrArg _ (Option.some.inj hd), rfl⟩
    | free loc => cases hd
    | taken loc entry =>
      cases entry with
      | directory => exact .inl (congrArg (Place.taken · .directory) (Option.some.inj hd))
      | file id => cases hd
      | link t => cases hd

theorem find_file_iff : fs.find path = .ok (loc, .file id) ↔ fs.resolve .follow path = .ok (.taken loc (.file id)) := by
  simp [find_eq_ok_iff]

theorem walk_ne_link {links : Nat} {dir : Location} {steps : List Text} {slash : Bool} {target : Text}
    (hmode : mode ≠ .entry) : fs.walk mode links dir steps slash ≠ .ok (.taken loc (.link target)) := by
  fun_induction fs.walk mode links dir steps slash with
  | case2 _ _ _ _ ih => exact ih
  | case3 _ _ _ _ _ ih => exact ih
  | case9 _ _ _ _ _ _ _ _ _ _ _ _ ih => exact ih
  | case12 _ _ _ _ _ _ _ _ _ _ _ _ hlast => exact absurd hlast.2 hmode
  | case14 _ _ _ _ _ _ _ _ _ _ _ _ _ ih => exact ih
  | _ => simp

theorem find_ne_link {target : Text} : fs.find path ≠ .ok (loc, .link target) := by
  intro h
  obtain ⟨p, hp, rfl | ⟨-, hentry⟩⟩ := find_eq_ok_iff.1 h
  · have hwalk := resolve_eq_of_ok hp
    rw [hwalk] at hp
    exact walk_ne_link (by simp) hp
  · cases hentry

theorem directory?_eq_some_iff :
    fs.directory? path = some d ↔ fs.find (if path = [] then ['.'] else path) = .ok (d, .directory) := by
  unfold directory?
  split
  · rename_i h
    simp [h]
  · rename_i h
    constructor
    · simp
    · intro hd
      exact absurd hd (h d)

theorem directory?_of_find (h : fs.find path = .ok (d, .directory)) : fs.directory? path = some d := by
  have hne : path ≠ [] := by
    rintro rfl
    cases h
  rw [directory?_eq_some_iff, if_neg hne, h]

theorem directory?_nil (fs : FileSystem) : fs.directory? [] = some fs.current := by
  rw [directory?_eq_some_iff, find_directory_iff]
  refine ⟨.unnamed fs.current, ?_, rfl⟩
  rw [if_pos rfl, resolve, if_neg (by decide), if_neg (by decide), if_neg (by decide), steps_dot]
  exact walk_current.trans (by rw [walk]; rfl)

/-! ## Joining a name -/

theorem resolve_eq_walk (h : fs.resolve mode path = .ok p) :
    '\x00' ∉ path ∧ path ≠ [] ∧ isTooLong path = false ∧
      fs.walk mode linkLimit (if Path.isAbsolute path then .root else fs.current) (steps path) (endsInSlash path) =
        .ok p := by
  unfold resolve at h
  split at h
  · cases h
  · rename_i hnul
    split at h
    · cases h
    · rename_i hne
      split at h
      · cases h
      · rename_i hlong
        exact ⟨by simpa using hnul, hne, by simpa using hlong, h⟩

theorem resolve_of_walk (hnul : '\x00' ∉ path) (hne : path ≠ []) :
    fs.resolve mode path = if isTooLong path then .error .nameTooLong
      else fs.walk mode linkLimit (if Path.isAbsolute path then .root else fs.current) (steps path)
        (endsInSlash path) := by
  rw [resolve, if_neg (by simpa using hnul), if_neg hne]

theorem directory?_of_walk (hnul : '\x00' ∉ path) (hlong : isTooLong path = false)
    (h : fs.walk .follow linkLimit (if Path.isAbsolute path then .root else fs.current) (steps path)
      (endsInSlash path) = .ok p) (hd : p.directory? = some d) : fs.directory? path = some d := by
  by_cases hne : path = []
  · subst hne
    rw [steps_nil, walk] at h
    cases h
    rw [directory?_nil]
    exact hd
  · rw [directory?_eq_some_iff, if_neg hne, find_directory_iff]
    exact ⟨p, by rw [resolve_of_walk hnul hne, hlong]; exact h, hd⟩

theorem endsInSlash_join (hne : name ≠ []) (hslash : '/' ∉ name) (base : Text) :
    endsInSlash (Path.join base name) = false := by
  obtain ⟨sep, -, hjoin⟩ := Path.exists_join_eq hslash base
  rw [endsInSlash, hjoin, List.getLast?_append_of_ne_nil _ hne]
  have hlast : name.getLast? ≠ some '/' := fun h => hslash (List.mem_of_getLast? h)
  simpa using hlast

theorem mem_join_iff {c : Char} (hc : c ≠ '/') (hslash : '/' ∉ name) :
    c ∈ Path.join base name ↔ c ∈ base ∨ c ∈ name := by
  obtain ⟨sep, hsep, hjoin⟩ := Path.exists_join_eq hslash base
  rw [hjoin]
  rcases hsep with rfl | rfl <;> simp [hc]

theorem join_ne_nil (hne : name ≠ []) (hslash : '/' ∉ name) (base : Text) : Path.join base name ≠ [] := by
  obtain ⟨sep, -, hjoin⟩ := Path.exists_join_eq hslash base
  simp [hjoin, hne]

theorem isTooLong_of_append {t u : Text} (h : isTooLong (t ++ u) = false) : isTooLong t = false := by
  rw [isTooLong, decide_eq_false_iff_not] at h ⊢
  rw [Utf8.encode, List.flatMap_append, List.length_append] at h
  exact fun hle => h (Nat.le_add_right_of_le hle)

/-! ## Walking on from a directory -/

/-- A path leads to a directory, from where `k` links can still be followed. -/
structure Leads (fs : FileSystem) (base : Text) (d : Location) (k : Nat) : Prop where
  links : k ≤ linkLimit
  noNul : '\x00' ∉ base
  walk : ∀ (mode : LastName) (rest : List Text) (slash : Bool), rest ≠ [] →
    fs.walk mode linkLimit (if Path.isAbsolute base then .root else fs.current) (steps base ++ rest) slash =
      fs.walk mode k d rest slash

theorem exists_leads (h : fs.directory? base = some d) : ∃ k, fs.Leads base d k := by
  by_cases hbase : base = []
  · subst hbase
    rw [directory?_nil] at h
    cases h
    exact ⟨linkLimit, Nat.le_refl _, List.not_mem_nil, fun _ _ _ _ => rfl⟩
  · rw [directory?_eq_some_iff, if_neg hbase, find_directory_iff] at h
    obtain ⟨p, hp, hd⟩ := h
    obtain ⟨hnul, -, -, hwalk⟩ := resolve_eq_walk hp
    obtain ⟨k, hk, happend⟩ := walk_append hwalk hd
    exact ⟨k, hk, hnul, happend⟩

theorem Leads.resolve_join (h : fs.Leads base d k) (mode : LastName) (hne : name ≠ []) (hslash : '/' ∉ name)
    (hnul : '\x00' ∉ name) : fs.resolve mode (Path.join base name) =
      if isTooLong (Path.join base name) then .error .nameTooLong else fs.walk mode k d [name] false := by
  have hnul' : '\x00' ∉ Path.join base name := by simp [mem_join_iff, hslash, h.noNul, hnul]
  rw [resolve_of_walk hnul' (join_ne_nil hne hslash base), Path.isAbsolute_join hslash, steps_join hne hslash,
    endsInSlash_join hne hslash, h.walk mode [name] false (by simp)]

theorem walk_dots {dots rest : List Text} {links : Nat} {slash : Bool} (h : ∀ x ∈ dots, x = ['.']) :
    fs.walk mode links d (dots ++ rest) slash = fs.walk mode links d rest slash := by
  induction dots with
  | nil => rfl
  | cons x dots ih =>
    rw [List.forall_mem_cons] at h
    rw [h.1, List.cons_append, walk_current, ih h.2]

/-- The steps of a path lead to the directory to which they lead with dots after them. -/
theorem exists_walk_of_dots {dots : List Text} (hdots : ∀ x ∈ dots, x = ['.'])
    (hsteps : steps path = steps base ++ dots) (habsolute : Path.isAbsolute base = Path.isAbsolute path)
    (h : fs.directory? path = some d) :
    ∃ q, fs.walk .follow linkLimit (if Path.isAbsolute base then .root else fs.current) (steps base)
      (endsInSlash base) = .ok q ∧ q.directory? = some d := by
  obtain ⟨k, hleads⟩ := exists_leads h
  have hwalk := hleads.walk .follow [['.']] false (by simp)
  rw [walk_current, walk, hsteps, List.append_assoc, ← habsolute] at hwalk
  have hrest : ∀ x ∈ dots ++ [['.']], x = ['.'] := List.forall_mem_append.2 ⟨hdots, by simp⟩
  obtain ⟨q, d', hq, hd'⟩ := exists_directory_of_walk (by simp) hwalk (endsInSlash base)
  obtain ⟨k', -, happend⟩ := walk_append hq hd'
  rw [happend .follow _ false (by simp), ← List.append_nil (dots ++ _), walk_dots hrest, walk] at hwalk
  cases hwalk
  exact ⟨q, hq, hd'⟩

theorem directory?_of_dots {dots : List Text} (hdots : ∀ x ∈ dots, x = ['.'])
    (hsteps : steps path = steps base ++ dots) (habsolute : Path.isAbsolute base = Path.isAbsolute path)
    (hnul : '\x00' ∉ base) (hlong : isTooLong base = false) (h : fs.directory? path = some d) :
    fs.directory? base = some d := by
  obtain ⟨q, hq, hd⟩ := exists_walk_of_dots hdots hsteps habsolute h
  exact directory?_of_walk hnul hlong hq hd

theorem Leads.resolve_spells (h : fs.Leads base d k) (hp : Path.Spells path base name) (hnul : '\x00' ∉ path) :
    ∃ after : List Text, (∀ x ∈ after, x = ['.']) ∧ ∀ mode, fs.resolve mode path =
      if isTooLong path then .error .nameTooLong else fs.walk mode k d (name :: after) (endsInSlash path) := by
  obtain ⟨before, after, hbefore, hafter, hsteps⟩ := hp.steps
  have hne : path ≠ [] := by
    rintro rfl
    rw [steps_nil] at hsteps
    simp at hsteps
  refine ⟨after, hafter, fun mode => ?_⟩
  rw [resolve_of_walk hnul hne, ← hp.isAbsolute, hsteps, List.append_assoc, h.walk mode _ _ (by simp),
    walk_dots hbefore]

/-- A path that leads anywhere has a directory before its name. -/
theorem directory?_of_spells (hp : Path.Spells path base name) (h : fs.resolve mode path = .ok p) :
    ∃ d, fs.directory? base = some d := by
  obtain ⟨before, after, -, -, hsteps⟩ := hp.steps
  obtain ⟨rest, hpath⟩ := hp.isPrefix
  obtain ⟨hnul, -, hlong, hwalk⟩ := resolve_eq_walk h
  rw [← hp.isAbsolute, hsteps, List.append_assoc] at hwalk
  obtain ⟨q, d, hq, hd⟩ := exists_directory_of_walk (by simp) hwalk (endsInSlash base)
  rw [hpath, List.mem_append, not_or] at hnul
  rw [hpath] at hlong
  exact ⟨d, directory?_of_walk hnul.1 (isTooLong_of_append hlong) hq hd⟩

theorem unnamed_of_resolve (hname : Path.fileName? path = none) (h : fs.resolve mode path = .ok p) :
    ∃ d, p = .unnamed d := by
  obtain ⟨-, -, -, hwalk⟩ := resolve_eq_walk h
  obtain ⟨before, after, hafter, hsteps | hsteps⟩ := Path.steps_of_fileName?_eq_none hname
  · rw [hsteps, ← List.append_nil after, walk_dots hafter, walk] at hwalk
    exact ⟨_, (Except.ok.inj hwalk).symm⟩
  · rw [hsteps] at hwalk
    obtain ⟨q, d, hq, hd⟩ := exists_directory_of_walk (by simp) hwalk false
    obtain ⟨k, -, happend⟩ := walk_append hq hd
    rw [happend _ _ _ (by simp), walk_parent, ← List.append_nil after, walk_dots hafter, walk] at hwalk
    exact ⟨_, (Except.ok.inj hwalk).symm⟩

theorem resolve_ne_taken (hname : Path.fileName? path = none) : fs.resolve mode path ≠ .ok (.taken loc entry) := by
  intro h
  obtain ⟨d, hd⟩ := unnamed_of_resolve hname h
  cases hd

theorem exists_fileName?_of_find (h : fs.find path = .ok (loc, .file id)) :
    ∃ name, Path.fileName? path = some name := by
  cases hname : Path.fileName? path with
  | none => exact absurd (find_file_iff.1 h) (resolve_ne_taken hname)
  | some name => exact ⟨name, rfl⟩

theorem directory?_parent_of_find (h : fs.find path = .ok (loc, .file id)) :
    ∃ dir, fs.directory? ((Path.parent? path).getD []) = some dir := by
  obtain ⟨name, hname⟩ := exists_fileName?_of_find h
  exact directory?_of_spells (Path.spells_of_fileName? hname) (find_file_iff.1 h)

end ScenarioDocs.FileSystem
