import ScenarioDocs.Text.Basic

/-!
# Paths

A path is a text with slashes between its segments. Segments that name nothing,
empty ones and `.`, do not count, except a `.` that starts the path and the
empty segment before the first slash of an absolute one.
-/

namespace ScenarioDocs.Path

open Text

def isAbsolute (p : Text) : Bool := p.head? = some '/'

/-- Puts `p` below `base`. An absolute `p` replaces it, an empty one only adds the slash. -/
def join (base p : Text) : Text :=
  if isAbsolute p then p
  else if base = [] ∨ base.getLast? = some '/' then base ++ p
  else base ++ '/' :: p

/-- A segment after the first that names nothing. -/
def isIdle (segment : Text) : Bool := segment = [] || segment = ['.']

def dropIdle (segments : List Text) : List Text := (segments.reverse.dropWhile isIdle).reverse

/-- The first segment and those after it up to the last that names something. -/
def segments (p : Text) : Text × List Text :=
  match pieces '/' p with
  | [] => ([], [])
  | first :: others => (first, dropIdle others)

/-- The path without its last segment; the empty path and the root have none. -/
def parent? (p : Text) : Option Text :=
  let (first, others) := segments p
  let kept := dropIdle others.dropLast
  if others = [] then if first = [] then none else some []
  else if first = [] ∧ kept = [] then some ['/']
  else some (Text.join ['/'] (first :: kept))

/-- The last segment, if it is a name and not `.` or `..`. -/
def fileName? (p : Text) : Option Text :=
  let (first, others) := segments p
  let last := others.getLast?.getD first
  if isIdle last ∨ last = ['.', '.'] then none else some last

/-- What follows the last dot of the file name, unless that dot comes first. -/
def extension? (p : Text) : Option Text := do
  let name ← fileName? p
  let tail := (name.reverse.takeWhile (· ≠ '.')).reverse
  let stem := name.take (name.length - tail.length - 1)
  if stem = [] ∨ tail.length = name.length then none else some tail

/-- The directory and the name that a path spells. One without a file name is all directory. -/
def split (p : Text) : Text × Text :=
  match fileName? p with
  | some name => ((parent? p).getD [], name)
  | none => (p, [])

/-- The path of the neighbour that has `ending` after its name. A path without a file name has
its neighbour inside it. -/
def sibling (p ending : Text) : Text :=
  match fileName? p with
  | some name => join ((parent? p).getD []) (name ++ ending)
  | none => join p ending

theorem sibling_eq (p ending : Text) : sibling p ending = join (split p).1 ((split p).2 ++ ending) := by
  unfold sibling split
  split <;> rfl

/-! ## A parent is shorter -/

theorem length_le_join (sep : Text) {x : Text} {l : List Text} (h : x ∈ l) :
    x.length ≤ (Text.join sep l).length := by
  induction l with
  | nil => cases h
  | cons y ys ih =>
    cases ys with
    | nil => simp_all [Text.join]
    | cons z zs =>
      simp only [Text.join, List.length_append]
      rcases List.mem_cons.1 h with rfl | h
      · omega
      · have := ih h
        omega

theorem length_join_append_lt {sep : Text} {a b : List Text} (ha : a ≠ []) (hb : b ≠ [])
    (hs : sep ≠ []) : (Text.join sep a).length < (Text.join sep (a ++ b)).length := by
  have := List.length_pos_iff.2 hs
  induction a with
  | nil => exact absurd rfl ha
  | cons x xs ih =>
    cases xs with
    | nil =>
      cases b with
      | nil => exact absurd rfl hb
      | cons y ys =>
        simp only [Text.join, List.cons_append, List.nil_append, List.length_append]
        omega
    | cons y ys =>
      have := ih (by simp)
      simp only [Text.join, List.cons_append, List.length_append] at this ⊢
      omega

theorem dropIdle_append (l : List Text) : ∃ idle, l = dropIdle l ++ idle ∧ ∀ x ∈ idle, isIdle x = true := by
  refine ⟨(l.reverse.takeWhile isIdle).reverse, ?_, fun x hx => ?_⟩
  · unfold dropIdle
    rw [← List.reverse_append, List.takeWhile_append_dropWhile, List.reverse_reverse]
  · exact List.all_eq_true.1 List.all_takeWhile x (List.mem_reverse.1 hx)

theorem exists_not_isIdle {l : List Text} (h : dropIdle l ≠ []) :
    ∃ x ∈ dropIdle l, isIdle x = false := by
  have hd := List.head?_dropWhile_not isIdle l.reverse
  unfold dropIdle at h ⊢
  cases hc : l.reverse.dropWhile isIdle with
  | nil => rw [hc] at h; exact absurd rfl h
  | cons x xs =>
    rw [hc] at hd
    exact ⟨x, by simp, by simpa using hd⟩

/-- What a parent keeps of the later segments is less than all of them. -/
theorem dropIdle_dropLast_append {l : List Text} (h : dropIdle l ≠ []) :
    ∃ cut, cut ≠ [] ∧ l = dropIdle (dropIdle l).dropLast ++ cut := by
  obtain ⟨idle, hi, -⟩ := dropIdle_append l
  obtain ⟨idle', hi', -⟩ := dropIdle_append (dropIdle l).dropLast
  refine ⟨idle' ++ [(dropIdle l).getLast h] ++ idle, by simp, ?_⟩
  calc l = dropIdle l ++ idle := hi
    _ = (dropIdle l).dropLast ++ [(dropIdle l).getLast h] ++ idle := by
      rw [List.dropLast_concat_getLast h]
    _ = dropIdle (dropIdle l).dropLast ++ idle' ++ [(dropIdle l).getLast h] ++ idle := by
      rw [← hi']
    _ = _ := by simp only [List.append_assoc]

theorem length_parent?_lt {p q : Text} (h : parent? p = some q) : q.length < p.length := by
  have hp := join_pieces '/' p
  unfold parent? segments at h
  cases hs : pieces '/' p with
  | nil => exact absurd hs (pieces_ne_nil _ _)
  | cons first others =>
    rw [hs] at h hp
    simp only at h
    split at h
    · split at h
      · cases h
      · rename_i hne
        cases h
        have hle := length_le_join ['/'] (List.mem_cons_self (a := first) (l := others))
        have := List.length_pos_iff.2 hne
        rw [hp] at hle
        simp only [List.length_nil]
        omega
    · rename_i hne
      obtain ⟨idle, hi, -⟩ := dropIdle_append others
      split at h
      · rename_i hk
        cases h
        obtain ⟨x, hx, hidle⟩ := exists_not_isIdle hne
        have hx' : x ∈ others := by rw [hi]; exact List.mem_append_left _ hx
        cases others with
        | nil => cases hx'
        | cons o os =>
          have := length_le_join ['/'] hx'
          have : x ≠ [] := by rintro rfl; simp [isIdle] at hidle
          have := List.length_pos_iff.2 this
          rw [← hp]
          simp only [Text.join, List.length_append, List.length_cons, List.length_nil]
          omega
      · cases h
        obtain ⟨cut, hcut, hc⟩ := dropIdle_dropLast_append hne
        have := @length_join_append_lt ['/']
          (first :: dropIdle (dropIdle others).dropLast) cut (by simp) hcut (by simp)
        rw [List.cons_append, ← hc, hp] at this
        exact this

end ScenarioDocs.Path
