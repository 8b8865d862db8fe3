import ScenarioDocs.Schema.Shape

/-!
# The registry of schemas

Maps marker names to shapes. A marker body, the text after its `+`, belongs to
a name if it is that name alone or goes on with a colon; of several such names
the longest counts.
-/

namespace ScenarioDocs

/-- Schemas stand in the order of their registration, and no name stands twice. -/
structure Registry where
  schemas : List (Text × Shape)
  distinct : (schemas.map (·.1)).Nodup

namespace Registry

def empty : Registry := ⟨[], .nil⟩

def get? (r : Registry) (name : Text) : Option Shape := r.schemas.lookup name

def size (r : Registry) : Nat := r.schemas.length

theorem not_mem_names {r : Registry} {name : Text} (h : ¬(r.get? name).isSome) :
    name ∉ r.schemas.map (·.1) := by
  intro hm
  obtain ⟨p, hp, rfl⟩ := List.mem_map.1 hm
  have := List.lookup_eq_none_iff.1 (Option.not_isSome_iff_eq_none.1 h) p hp
  simp at this

def register (r : Registry) (name : Text) (shape : Shape) : Except Error Registry :=
  if h : (r.get? name).isSome then .error (.duplicateSchema name)
  else .ok ⟨r.schemas ++ [(name, shape)], by
    rw [List.map_append, List.nodup_append]
    refine ⟨r.distinct, by simp, ?_⟩
    intro a ha b hb hab
    simp only [List.map_cons, List.map_nil, List.mem_singleton] at hb
    exact not_mem_names h (hb ▸ hab ▸ ha)⟩

def require (r : Registry) (name : Text) : Except Error Shape :=
  match r.get? name with
  | some shape => .ok shape
  | none => .error (.unknownSchema name)

structure Resolved where
  name : Text
  shape : Shape
  arguments : Text

def argumentsAfter? (name body : Text) : Option Text :=
  match List.isPrefixOf? name body with
  | some [] => some []
  | some (':' :: arguments) => some arguments
  | _ => none

def candidates (r : Registry) (body : Text) : List Resolved :=
  r.schemas.filterMap fun (name, shape) =>
    (argumentsAfter? name body).map fun arguments => ⟨name, shape, arguments⟩

def longer (best : Option Resolved) (c : Resolved) : Option Resolved :=
  match best with
  | none => some c
  | some b => if b.name.length ≤ c.name.length then some c else some b

def resolve? (r : Registry) (body : Text) : Option Resolved :=
  (r.candidates body).foldl longer none

end Registry

end ScenarioDocs
