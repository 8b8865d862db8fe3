import ScenarioDocs.Text.Basic

/-!
# Locations

A location is a place in a tree of directories, given by the names that lead
to it from the root. The names are kept innermost first, so that a directory
and all below it share them, and their number comes first, so that places at
different depths are told apart at once.
-/

namespace ScenarioDocs

structure Location where
  depth : Nat
  /-- Innermost first. -/
  names : List Text
  length_names : names.length = depth

namespace Location

/-! ## Equality

Every step along a path looks a location up, so equality is decided by a
function that is compiled for names. -/

theorem eq_of_names {a b : Location} (h : a.names = b.names) : a = b := by
  obtain ⟨_, _, rfl⟩ := a
  obtain ⟨_, _, rfl⟩ := b
  cases h
  rfl

@[specialize] def sameList {α : Type} (same : α → α → Bool) : List α → List α → Bool
  | [], [] => true
  | a :: as, b :: bs => same a b && sameList same as bs
  | _, _ => false

theorem sameList_iff {α : Type} {same : α → α → Bool} (h : ∀ a b, same a b = true ↔ a = b)
    {as bs : List α} : sameList same as bs = true ↔ as = bs := by
  induction as generalizing bs with
  | nil => cases bs <;> simp [sameList]
  | cons a as ih => cases bs <;> simp [sameList, ih, h]

def same (a b : Location) : Bool :=
  a.depth == b.depth && sameList (sameList (· == ·)) a.names b.names

theorem same_iff {a b : Location} : a.same b = true ↔ a = b := by
  rw [same, Bool.and_eq_true, beq_iff_eq, sameList_iff fun _ _ => sameList_iff fun _ _ => beq_iff_eq]
  exact ⟨fun h => eq_of_names h.2, fun h => h ▸ ⟨rfl, rfl⟩⟩

instance : DecidableEq Location := fun _ _ => decidable_of_iff _ same_iff

/-! ## Going up and down -/

def root : Location := ⟨0, [], rfl⟩

def child (dir : Location) (name : Text) : Location :=
  ⟨dir.depth + 1, name :: dir.names, by simp [dir.length_names]⟩

/-- The directory that holds a location. The root holds itself. -/
def parent (loc : Location) : Location :=
  ⟨loc.depth - 1, loc.names.tail, by simp [loc.length_names]⟩

def name? (loc : Location) : Option Text := loc.names.head?

def descend (dir : Location) : List Text → Location
  | [] => dir
  | step :: steps => descend (dir.child step) steps

def stepsFrom? (dir loc : Location) : Option (List Text) :=
  let below := loc.depth - dir.depth
  if loc.names.drop below = dir.names then some (loc.names.take below).reverse else none

def path (loc : Location) : Text := '/' :: Text.join ['/'] loc.names.reverse

variable {dir loc : Location} {name : Text} {steps : List Text}

@[simp] theorem names_root : root.names = [] := rfl

@[simp] theorem names_child : (dir.child name).names = name :: dir.names := rfl

@[simp] theorem names_parent : loc.parent.names = loc.names.tail := rfl

@[simp] theorem parent_child : (dir.child name).parent = dir := eq_of_names rfl

@[simp] theorem name?_child : (dir.child name).name? = some name := rfl

@[simp] theorem name?_root : root.name? = none := rfl

theorem child_ne_root : dir.child name ≠ root := fun h => by
  simpa using congrArg names h

theorem child_inj {dir' : Location} {name' : Text} : dir.child name = dir'.child name' ↔ dir = dir' ∧ name = name' := by
  constructor
  · intro h
    have hnames : name :: dir.names = name' :: dir'.names := congrArg names h
    rw [List.cons.injEq] at hnames
    exact ⟨eq_of_names hnames.2, hnames.1⟩
  · rintro ⟨rfl, rfl⟩
    rfl

theorem child_parent (h : loc.name? = some name) : loc.parent.child name = loc := by
  apply eq_of_names
  obtain ⟨_, _ | ⟨_, _⟩, _⟩ := loc <;> simp_all [name?]

theorem names_descend : (dir.descend steps).names = steps.reverse ++ dir.names := by
  induction steps generalizing dir with
  | nil => rfl
  | cons step steps ih => simp [descend, ih]

theorem depth_descend : (dir.descend steps).depth = steps.length + dir.depth := by
  rw [← length_names, names_descend, List.length_append, List.length_reverse, dir.length_names]

theorem stepsFrom?_descend : stepsFrom? dir (dir.descend steps) = some steps := by
  simp [stepsFrom?, names_descend, depth_descend]

end Location

end ScenarioDocs
