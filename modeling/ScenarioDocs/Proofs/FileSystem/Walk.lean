import ScenarioDocs.FileSystem.Lookup

/-!
# Ways through a file system

A walk goes through directories and links only, so file systems that share
them lead it to the same place: what else is there matters at its end only.
-/

namespace ScenarioDocs.FileSystem

/-- The directories and links of `fs` are in `fs'` too. -/
def Ways (fs fs' : FileSystem) : Prop :=
  ∀ loc entry, fs.entry? loc = some entry → (∀ id, entry ≠ .file id) → fs'.entry? loc = some entry

def placeAt (fs : FileSystem) (loc : Location) : Place :=
  match fs.entry? loc with
  | none => .free loc
  | some entry => .taken loc entry

def see (fs : FileSystem) : Place → Place
  | .unnamed loc => .unnamed loc
  | .taken loc _ => fs.placeAt loc
  | .free loc => fs.placeAt loc

variable {fs fs' : FileSystem} {mode : LastName} {links : Nat} {dir loc : Location} {step path : Text}
  {rest steps : List Text} {slash : Bool} {entry : Entry} {p : Place}

theorem Ways.refl (fs : FileSystem) : fs.Ways fs := fun _ _ h _ => h

theorem Ways.of_entry?
    (h : ∀ loc, fs'.entry? loc = fs.entry? loc ∨ fs.entry? loc = none ∨ ∃ id, fs.entry? loc = some (.file id)) :
    fs.Ways fs' := by
  intro loc entry hentry hfile
  rcases h loc with h | h | ⟨id, h⟩
  · rw [h, hentry]
  · rw [h] at hentry
    cases hentry
  · rw [h, Option.some.injEq] at hentry
    exact absurd hentry.symm (hfile id)

theorem placeAt_none (h : fs.entry? loc = none) : fs.placeAt loc = .free loc := by
  rw [placeAt, h]

theorem placeAt_some (h : fs.entry? loc = some entry) : fs.placeAt loc = .taken loc entry := by
  rw [placeAt, h]

theorem entry?_eq_some_iff : fs.entry? loc = some entry ↔ fs.placeAt loc = .taken loc entry := by
  unfold placeAt
  cases fs.entry? loc <;> simp

/-! ## One step -/

structure IsStep (step : Text) : Prop where
  notCurrent : step ≠ ['.']
  notParent : step ≠ ['.', '.']
  short : ¬nameLimit < (Utf8.encode step).length

theorem walk_current : fs.walk mode links dir (['.'] :: rest) slash = fs.walk mode links dir rest slash := by
  rw [walk, if_pos rfl]

theorem walk_parent :
    fs.walk mode links dir (['.', '.'] :: rest) slash = fs.walk mode links dir.parent rest slash := by
  rw [walk, if_neg (by decide), if_pos rfl]

section
variable (hstep : IsStep step) (hopen : ¬(rest = [] ∧ mode = .create ∧ slash = true))
include hstep hopen

theorem walk_missing (h : fs.entry? (dir.child step) = none) :
    fs.walk mode links dir (step :: rest) slash =
      if rest = [] then .ok (.free (dir.child step)) else .error .notFound := by
  rw [walk, if_neg hstep.notCurrent, if_neg hstep.notParent, if_neg hopen, if_neg hstep.short]
  simp only [h]

theorem walk_directory (h : fs.entry? (dir.child step) = some .directory) :
    fs.walk mode links dir (step :: rest) slash =
      if rest = [] then .ok (.taken (dir.child step) .directory)
      else fs.walk mode links (dir.child step) rest slash := by
  rw [walk, if_neg hstep.notCurrent, if_neg hstep.notParent, if_neg hopen, if_neg hstep.short]
  simp only [h]

theorem walk_file {id : FileId} (h : fs.entry? (dir.child step) = some (.file id)) :
    fs.walk mode links dir (step :: rest) slash =
      if rest = [] ∧ (mode = .entry ∨ ¬slash) then .ok (.taken (dir.child step) (.file id))
      else .error .notDirectory := by
  rw [walk, if_neg hstep.notCurrent, if_neg hstep.notParent, if_neg hopen, if_neg hstep.short]
  simp only [h]

theorem walk_link {target : Text} (h : fs.entry? (dir.child step) = some (.link target))
    (hfollow : ¬(rest = [] ∧ mode = .entry)) :
    fs.walk mode (links + 1) dir (step :: rest) slash =
      fs.walk mode links (if Path.isAbsolute target then .root else dir) (FileSystem.steps target ++ rest)
        (slash || rest = [] && endsInSlash target) := by
  rw [walk, if_neg hstep.notCurrent, if_neg hstep.notParent, if_neg hopen, if_neg hstep.short]
  simp only [h, if_neg hfollow]

theorem walk_link_zero {target : Text} (h : fs.entry? (dir.child step) = some (.link target))
    (hfollow : ¬(rest = [] ∧ mode = .entry)) :
    fs.walk mode 0 dir (step :: rest) slash = .error .tooManyLinks := by
  rw [walk, if_neg hstep.notCurrent, if_neg hstep.notParent, if_neg hopen, if_neg hstep.short]
  simp only [h, if_neg hfollow]

end

theorem walk_last (hstep : IsStep step) :
    fs.walk .entry links dir [step] slash = .ok (fs.placeAt (dir.child step)) := by
  have hopen : ¬(([] : List Text) = [] ∧ LastName.entry = .create ∧ slash = true) := by simp
  cases h : fs.entry? (dir.child step) with
  | none => rw [walk_missing hstep hopen h, if_pos rfl, placeAt_none h]
  | some entry =>
    rw [placeAt_some h]
    cases entry with
    | directory => rw [walk_directory hstep hopen h, if_pos rfl]
    | file id => rw [walk_file hstep hopen h, if_pos ⟨rfl, .inl rfl⟩]
    | link target =>
      rw [walk, if_neg hstep.notCurrent, if_neg hstep.notParent, if_neg hopen, if_neg hstep.short]
      simp only [h, and_self, if_true]

/-! ## Whole walks -/

/-- Where there are the same ways, a walk leads to the same place. -/
theorem walk_of_ways (h : fs.Ways fs') (hw : fs.walk .entry links dir steps slash = .ok p) :
    fs'.walk .entry links dir steps slash = .ok (fs'.see p) := by
  fun_induction fs.walk .entry links dir steps slash with
  | case1 =>
    cases hw
    rw [walk]
    rfl
  | case2 _ _ _ _ ih => rw [walk_current, ih hw]
  | case3 _ _ _ _ _ ih => rw [walk_parent, ih hw]
  | case4 => cases hw
  | case5 => cases hw
  | case6 _ _ _ _ hcurrent hparent hshort =>
    cases hw
    exact walk_last ⟨hcurrent, hparent, hshort⟩
  | case7 => cases hw
  | case8 _ _ _ _ hcurrent hparent hshort =>
    cases hw
    exact walk_last ⟨hcurrent, hparent, hshort⟩
  | case9 _ _ _ _ _ hcurrent hparent hopen hshort _ hdir hrest ih =>
    have hdir' := h _ _ hdir fun _ => by simp
    rw [walk_directory ⟨hcurrent, hparent, hshort⟩ hopen hdir', if_neg hrest, ih hw]
  | case10 _ _ _ _ _ hcurrent hparent _ hshort _ _ _ hlast =>
    obtain ⟨rfl, -⟩ := hlast
    cases hw
    exact walk_last ⟨hcurrent, hparent, hshort⟩
  | case11 => cases hw
  | case12 _ _ _ _ _ hcurrent hparent _ hshort _ _ _ hlast =>
    obtain ⟨rfl, -⟩ := hlast
    cases hw
    exact walk_last ⟨hcurrent, hparent, hshort⟩
  | case13 => cases hw
  | case14 _ _ _ _ hcurrent hparent hopen hshort _ _ hlink hfollow _ ih =>
    have hlink' := h _ _ hlink fun _ => by simp
    rw [walk_link ⟨hcurrent, hparent, hshort⟩ hopen hlink' hfollow]
    exact ih hw

theorem walk_congr (h : ∀ loc, fs'.entry? loc = fs.entry? loc) :
    fs'.walk mode links dir steps slash = fs.walk mode links dir steps slash := by
  fun_induction fs.walk mode links dir steps slash with
  | case1 => rw [walk]
  | case2 _ _ _ _ ih => rw [walk_current, ih]
  | case3 _ _ _ _ _ ih => rw [walk_parent, ih]
  | case4 _ _ _ _ _ hcurrent hparent hcreate => rw [walk, if_neg hcurrent, if_neg hparent, if_pos hcreate]
  | case5 _ _ _ _ _ hcurrent hparent hopen hlong =>
    rw [walk, if_neg hcurrent, if_neg hparent, if_neg hopen, if_pos hlong]
  | case6 _ _ _ _ hcurrent hparent hshort _ hnone hopen =>
    rw [walk_missing ⟨hcurrent, hparent, hshort⟩ hopen ((h _).trans hnone), if_pos rfl]
  | case7 _ _ _ _ _ hcurrent hparent hopen hshort _ hnone hrest =>
    rw [walk_missing ⟨hcurrent, hparent, hshort⟩ hopen ((h _).trans hnone), if_neg hrest]
  | case8 _ _ _ _ hcurrent hparent hshort _ hdir hopen =>
    rw [walk_directory ⟨hcurrent, hparent, hshort⟩ hopen ((h _).trans hdir), if_pos rfl]
  | case9 _ _ _ _ _ hcurrent hparent hopen hshort _ hdir hrest ih =>
    rw [walk_directory ⟨hcurrent, hparent, hshort⟩ hopen ((h _).trans hdir), if_neg hrest, ih]
  | case10 _ _ _ _ _ hcurrent hparent hopen hshort _ _ hfile hlast =>
    rw [walk_file ⟨hcurrent, hparent, hshort⟩ hopen ((h _).trans hfile), if_pos hlast]
  | case11 _ _ _ _ _ hcurrent hparent hopen hshort _ _ hfile hlast =>
    rw [walk_file ⟨hcurrent, hparent, hshort⟩ hopen ((h _).trans hfile), if_neg hlast]
  | case12 _ _ _ _ _ hcurrent hparent _ hshort _ _ hlink hlast =>
    obtain ⟨rfl, rfl⟩ := hlast
    rw [walk_last ⟨hcurrent, hparent, hshort⟩, placeAt_some ((h _).trans hlink)]
  | case13 _ _ _ _ hcurrent hparent hopen hshort _ _ hlink hfollow =>
    rw [walk_link_zero ⟨hcurrent, hparent, hshort⟩ hopen ((h _).trans hlink) hfollow]
  | case14 _ _ _ _ hcurrent hparent hopen hshort _ _ hlink hfollow _ ih =>
    rw [walk_link ⟨hcurrent, hparent, hshort⟩ hopen ((h _).trans hlink) hfollow]
    exact ih
/-- If no link stands at the end, it does not matter how the end is looked at. -/
theorem walk_eq_entry (hslash : slash = false)
    (hend : ∀ loc target, fs.walk .entry links dir steps slash ≠ .ok (.taken loc (.link target))) :
    fs.walk mode links dir steps slash = fs.walk .entry links dir steps slash := by
  have hopen {rest : List Text} : ¬(rest = [] ∧ mode = .create ∧ slash = true) := by simp [hslash]
  fun_induction fs.walk .entry links dir steps slash with
  | case1 => rw [walk]
  | case2 _ _ _ _ ih => rw [walk_current, ih hslash hend hopen]
  | case3 _ _ _ _ _ ih => rw [walk_parent, ih hslash hend hopen]
  | case4 _ _ _ _ _ _ _ hcreate => simp at hcreate
  | case5 _ _ _ _ _ hcurrent hparent _ hlong =>
    rw [walk, if_neg hcurrent, if_neg hparent, if_neg hopen, if_pos hlong]
  | case6 _ _ _ _ hcurrent hparent hshort _ hnone =>
    rw [walk_missing ⟨hcurrent, hparent, hshort⟩ hopen hnone, if_pos rfl]
  | case7 _ _ _ _ _ hcurrent hparent _ hshort _ hnone hrest =>
    rw [walk_missing ⟨hcurrent, hparent, hshort⟩ hopen hnone, if_neg hrest]
  | case8 _ _ _ _ hcurrent hparent hshort _ hdir =>
    rw [walk_directory ⟨hcurrent, hparent, hshort⟩ hopen hdir, if_pos rfl]
  | case9 _ _ _ _ _ hcurrent hparent _ hshort _ hdir hrest ih =>
    rw [walk_directory ⟨hcurrent, hparent, hshort⟩ hopen hdir, if_neg hrest, ih hslash hend hopen]
  | case10 _ _ _ _ _ hcurrent hparent _ hshort _ _ hfile hlast =>
    rw [walk_file ⟨hcurrent, hparent, hshort⟩ hopen hfile, if_pos ⟨hlast.1, .inr (by simp [hslash])⟩]
  | case11 _ _ _ _ _ hcurrent hparent _ hshort _ _ hfile hlast =>
    rw [walk_file ⟨hcurrent, hparent, hshort⟩ hopen hfile, if_neg fun h => hlast ⟨h.1, .inl rfl⟩]
  -- the walk would end at the link
  | case12 => exact absurd rfl (hend _ _)
  | case13 _ _ _ _ hcurrent hparent _ hshort _ _ hlink hfollow =>
    rw [walk_link_zero ⟨hcurrent, hparent, hshort⟩ hopen hlink fun h => hfollow ⟨h.1, rfl⟩]
  | case14 _ _ rest _ hcurrent hparent _ hshort _ _ hlink hfollow _ ih =>
    have hne : rest ≠ [] := fun h => hfollow ⟨h, rfl⟩
    rw [walk_link ⟨hcurrent, hparent, hshort⟩ hopen hlink fun h => hne h.1]
    exact ih (by simp [hslash, hne]) hend (by simp [hslash, hne])

/-- A walk that finds nothing has met no file, so it finds nothing either where some are gone. -/
theorem walk_absent (h : ∀ loc, fs'.entry? loc = fs.entry? loc ∨ ∃ id, fs.entry? loc = some (.file id))
    {r : Except SystemError Place} (hr : r = .error .notFound ∨ ∃ loc, r = .ok (.free loc))
    (hw : fs.walk mode links dir steps slash = r) : fs'.walk mode links dir steps slash = r := by
  have same {loc : Location} {e : Option Entry} (he : fs.entry? loc = e) (hne : ∀ id, e ≠ some (.file id)) :
      fs'.entry? loc = e := by
    rcases h loc with h | ⟨id, h⟩
    · rw [h, he]
    · exact absurd (he.symm.trans h) (hne id)
  fun_induction fs.walk mode links dir steps slash with
  | case2 _ _ _ _ ih => rw [walk_current, ih hw]
  | case3 _ _ _ _ _ ih => rw [walk_parent, ih hw]
  | case6 _ _ _ _ hcurrent hparent hshort _ hnone hopen =>
    rw [walk_missing ⟨hcurrent, hparent, hshort⟩ hopen (same hnone (by simp)), if_pos rfl, hw]
  | case7 _ _ _ _ _ hcurrent hparent hopen hshort _ hnone hrest =>
    rw [walk_missing ⟨hcurrent, hparent, hshort⟩ hopen (same hnone (by simp)), if_neg hrest, hw]
  | case9 _ _ _ _ _ hcurrent hparent hopen hshort _ hdir hrest ih =>
    rw [walk_directory ⟨hcurrent, hparent, hshort⟩ hopen (same hdir (by simp)), if_neg hrest, ih hw]
  | case14 _ _ _ _ hcurrent hparent hopen hshort _ _ hlink hfollow _ ih =>
    rw [walk_link ⟨hcurrent, hparent, hshort⟩ hopen (same hlink (by simp)) hfollow]
    exact ih hw
  | _ =>
    -- the walk ends at an entry, or with another error
    subst hw
    simp at hr

theorem walk_file_slash (hmode : mode ≠ .entry) {id : FileId}
    (hw : fs.walk mode links dir steps slash = .ok (.taken loc (.file id))) : slash = false := by
  fun_induction fs.walk mode links dir steps slash with
  | case2 _ _ _ _ ih => exact ih hw
  | case3 _ _ _ _ _ ih => exact ih hw
  | case9 _ _ _ _ _ _ _ _ _ _ _ _ ih => exact ih hw
  | case10 _ _ _ _ _ _ _ _ _ _ _ _ hlast =>
    rcases hlast with ⟨-, h | h⟩
    · exact absurd h hmode
    · simpa using h
  | case14 _ _ _ _ _ _ _ _ _ _ _ _ _ ih => exact (Bool.or_eq_false_iff.1 (ih hw)).1
  | _ => simp_all

/-! ## The end of a walk -/

theorem entry?_of_walk (h : fs.walk mode links dir steps slash = .ok (.taken loc entry)) :
    fs.entry? loc = some entry := by
  fun_induction fs.walk mode links dir steps slash with
  | case1 | case6 => cases h
  | case2 _ _ _ _ ih => exact ih h
  | case3 _ _ _ _ _ ih => exact ih h
  | case4 | case5 | case7 | case11 | case13 => cases h
  | case8 _ _ _ _ _ _ _ _ hdir =>
    obtain ⟨hloc, hentry⟩ := Place.taken.inj (Except.ok.inj h)
    rw [← hloc, ← hentry]
    exact hdir
  | case9 _ _ _ _ _ _ _ _ _ _ _ _ ih => exact ih h
  | case10 _ _ _ _ _ _ _ _ _ _ _ hfile =>
    obtain ⟨hloc, hentry⟩ := Place.taken.inj (Except.ok.inj h)
    rw [← hloc, ← hentry]
    exact hfile
  | case12 _ _ _ _ _ _ _ _ _ _ _ hlink =>
    obtain ⟨hloc, hentry⟩ := Place.taken.inj (Except.ok.inj h)
    rw [← hloc, ← hentry]
    exact hlink
  | case14 _ _ _ _ _ _ _ _ _ _ _ _ _ ih => exact ih h

theorem entry?_of_walk_free (h : fs.walk mode links dir steps slash = .ok (.free loc)) : fs.entry? loc = none := by
  fun_induction fs.walk mode links dir steps slash with
  | case2 _ _ _ _ ih => exact ih h
  | case3 _ _ _ _ _ ih => exact ih h
  | case6 _ _ _ _ _ _ _ _ hnone =>
    rw [← Place.free.inj (Except.ok.inj h)]
    exact hnone
  | case9 _ _ _ _ _ _ _ _ _ _ _ _ ih => exact ih h
  | case14 _ _ _ _ _ _ _ _ _ _ _ _ _ ih => exact ih h
  | _ => cases h

/-! ## Paths -/

/-- A path is refused whatever there is, or it is walked. -/
theorem resolve_cases (path : Text) :
    (∃ e, ∀ fs mode, resolve fs mode path = .error e) ∨
      ∀ fs mode, resolve fs mode path =
        fs.walk mode linkLimit (if Path.isAbsolute path then .root else fs.current) (FileSystem.steps path)
          (endsInSlash path) := by
  unfold resolve
  by_cases hnul : path.contains '\x00' = true
  · exact .inl ⟨_, fun fs mode => if_pos hnul⟩
  · by_cases hempty : path = []
    · exact .inl ⟨_, fun fs mode => by rw [if_neg hnul, if_pos hempty]⟩
    · by_cases hlong : isTooLong path = true
      · exact .inl ⟨_, fun fs mode => by rw [if_neg hnul, if_neg hempty, if_pos hlong]⟩
      · exact .inr fun fs mode => by rw [if_neg hnul, if_neg hempty, if_neg hlong]

theorem resolve_eq_of_ok (hr : fs.resolve mode path = .ok p) (fs' : FileSystem) (mode' : LastName) :
    fs'.resolve mode' path = fs'.walk mode' linkLimit (if Path.isAbsolute path then .root else fs'.current)
      (FileSystem.steps path) (endsInSlash path) := by
  rcases resolve_cases path with ⟨e, he⟩ | hw
  · rw [he] at hr
    cases hr
  · exact hw fs' mode'

theorem resolve_congr (h : ∀ loc, fs'.entry? loc = fs.entry? loc) (hc : fs'.current = fs.current) :
    fs'.resolve mode path = fs.resolve mode path := by
  obtain ⟨e, he⟩ | hw := resolve_cases path
  · rw [he, he]
  · rw [hw, hw, hc]
    exact walk_congr h

theorem resolve_of_ways (h : fs.Ways fs') (hc : fs'.current = fs.current) (hr : fs.resolve .entry path = .ok p) :
    fs'.resolve .entry path = .ok (fs'.see p) := by
  have hw := resolve_eq_of_ok hr
  rw [hw] at hr ⊢
  rw [hc]
  exact walk_of_ways h hr

theorem see_of_resolve (hr : fs.resolve .entry path = .ok p) : fs.see p = p := by
  have h := resolve_of_ways (Ways.refl fs) rfl hr
  rw [hr] at h
  exact (Except.ok.inj h).symm

theorem resolve_eq_entry (hslash : endsInSlash path = false)
    (hend : ∀ loc target, fs.resolve .entry path ≠ .ok (.taken loc (.link target))) :
    fs.resolve mode path = fs.resolve .entry path := by
  rcases resolve_cases path with ⟨e, he⟩ | hw
  · rw [he, he]
  · rw [hw] at hend ⊢
    rw [hw]
    exact walk_eq_entry hslash hend

theorem resolve_absent (h : ∀ loc, fs'.entry? loc = fs.entry? loc ∨ ∃ id, fs.entry? loc = some (.file id))
    (hc : fs'.current = fs.current) {r : Except SystemError Place}
    (hr : r = .error .notFound ∨ ∃ loc, r = .ok (.free loc)) (he : fs.resolve mode path = r) :
    fs'.resolve mode path = r := by
  rcases resolve_cases path with ⟨e, herr⟩ | hw
  · rw [herr] at he ⊢
    exact he
  · rw [hw] at he ⊢
    rw [hc]
    exact walk_absent h hr he

theorem resolve_file_slash (hmode : mode ≠ .entry) {id : FileId}
    (hr : fs.resolve mode path = .ok (.taken loc (.file id))) : endsInSlash path = false := by
  have hw := resolve_eq_of_ok hr
  rw [hw] at hr
  exact walk_file_slash hmode hr

theorem entry?_of_resolve (hr : fs.resolve mode path = .ok (.taken loc entry)) : fs.entry? loc = some entry := by
  have hw := resolve_eq_of_ok hr
  rw [hw] at hr
  exact entry?_of_walk hr

theorem entry?_of_resolve_free (hr : fs.resolve mode path = .ok (.free loc)) : fs.entry? loc = none := by
  have hw := resolve_eq_of_ok hr
  rw [hw] at hr
  exact entry?_of_walk_free hr

end ScenarioDocs.FileSystem
