import Mathlib.Data.List.Dedup
import ScenarioDocs.Proofs.Lookup
import ScenarioDocs.Schema.Registry

/-!
# What a registry resolves

After any calls the registry holds, under every name that was called, the
shape of the first call. A body resolves to the longest name that it belongs
to; such a name is the only one of its length, so the order of the calls for
different names does not count.
-/

namespace ScenarioDocs.Registry

variable {r r' : Registry} {c : Text × Shape} {calls calls' : List (Text × Shape)} {name other body arguments : Text}
  {shape : Shape} {best : Option Resolved} {cs : List Resolved} {m m' : Resolved}

/-! ## Registering -/

theorem isSome_get?_iff : (r.get? name).isSome ↔ name ∈ r.schemas.map (·.1) := lookup_isSome_iff_mem

theorem register_of_mem (h : name ∈ r.schemas.map (·.1)) : r.register name shape = .error (.duplicateSchema name) :=
  dif_pos (isSome_get?_iff.2 h)

theorem register_of_not_mem (h : name ∉ r.schemas.map (·.1)) :
    ∃ r', r.register name shape = .ok r' ∧ r'.schemas = r.schemas ++ [(name, shape)] := by
  rw [register, dif_neg (mt isSome_get?_iff.1 h)]
  exact ⟨_, rfl, rfl⟩

/-- The registry after a call to register; one that is refused leaves it as it was. -/
def call (r : Registry) (c : Text × Shape) : Registry :=
  match r.register c.1 c.2 with
  | .ok r' => r'
  | .error _ => r

def after (r : Registry) (calls : List (Text × Shape)) : Registry := calls.foldl call r

theorem call_of_mem (h : c.1 ∈ r.schemas.map (·.1)) : r.call c = r := by
  rw [call, register_of_mem h]

theorem schemas_call (h : c.1 ∉ r.schemas.map (·.1)) : (r.call c).schemas = r.schemas ++ [c] := by
  obtain ⟨r', hr, hschemas⟩ := register_of_not_mem h
  rw [call, hr]
  exact hschemas

theorem get?_call : (r.call c).get? name = (r.get? name).or ([c].lookup name) := by
  by_cases h : c.1 ∈ r.schemas.map (·.1)
  · rw [call_of_mem h]
    cases hname : r.get? name with
    | some shape => rfl
    | none =>
      have hne : name ≠ c.1 := by
        rintro rfl
        have hsome := isSome_get?_iff.2 h
        rw [hname] at hsome
        cases hsome
      rw [lookup_cons, if_neg hne]
      rfl
  · rw [get?, get?, schemas_call h, List.lookup_append]

theorem get?_after : (r.after calls).get? name = (r.get? name).or (calls.lookup name) := by
  induction calls generalizing r with
  | nil => simp [after]
  | cons c calls ih =>
    rw [after, List.foldl_cons, ← after, ih, get?_call, Option.or_assoc, ← List.lookup_append]
    rfl

theorem isSome_get?_after : ((r.after calls).get? name).isSome ↔ (r.get? name).isSome ∨ name ∈ calls.map (·.1) := by
  rw [get?_after, Option.isSome_or, Bool.or_eq_true, lookup_isSome_iff_mem]

theorem get?_empty_after : (empty.after calls).get? name = calls.lookup name := get?_after

theorem mem_names_after : name ∈ (empty.after calls).schemas.map (·.1) ↔ name ∈ calls.map (·.1) := by
  rw [← isSome_get?_iff, isSome_get?_after]
  exact or_iff_right nofun

theorem size_after : (empty.after calls).size = (calls.map (·.1)).dedup.length := by
  have hperm : ((empty.after calls).schemas.map (·.1)).Perm (calls.map (·.1)).dedup :=
    (List.perm_ext_iff_of_nodup (distinct _) (List.nodup_dedup _)).2 fun name => by
      rw [mem_names_after, List.mem_dedup]
  rw [size, ← List.length_map, hperm.length_eq]

/-! ## Names of a body -/

/-- A body belongs to a name if it is the name, or goes on after it with a colon. -/
def Belongs (name body : Text) : Prop := body = name ∨ name ++ [':'] <+: body

instance (name body : Text) : Decidable (Belongs name body) := inferInstanceAs (Decidable (_ ∨ _))

theorem argumentsAfter?_eq_some_iff : argumentsAfter? name body = some arguments ↔
    body = name ∧ arguments = [] ∨ body = name ++ ':' :: arguments := by
  constructor
  · intro h
    unfold argumentsAfter? at h
    split at h
    · rename_i hp
      cases h
      rw [List.isPrefixOf?_eq_some_iff_append_eq, List.append_nil] at hp
      exact .inl ⟨hp.symm, rfl⟩
    · rename_i hp
      cases h
      exact .inr (List.isPrefixOf?_eq_some_iff_append_eq.1 hp).symm
    · cases h
  · rintro (⟨rfl, rfl⟩ | rfl)
    · rw [argumentsAfter?, List.isPrefixOf?_eq_some_iff_append_eq.2 (List.append_nil body)]
    · rw [argumentsAfter?, List.isPrefixOf?_eq_some_iff_append_eq.2 rfl]
      rfl

theorem belongs_iff : Belongs name body ↔ ∃ arguments, argumentsAfter? name body = some arguments := by
  simp only [argumentsAfter?_eq_some_iff]
  constructor
  · rintro (rfl | ⟨arguments, rfl⟩)
    · exact ⟨[], .inl ⟨rfl, rfl⟩⟩
    · exact ⟨arguments, .inr (by simp)⟩
  · rintro ⟨arguments, ⟨rfl, -⟩ | rfl⟩
    · exact .inl rfl
    · exact .inr ⟨arguments, by simp⟩

theorem Belongs.isPrefix (h : Belongs name body) : name <+: body := by
  rcases h with rfl | h
  · exact List.prefix_refl body
  · exact (List.prefix_append name [':']).trans h

/-- A body has no two names of one length. -/
theorem Belongs.length_ne (h : Belongs name body) (h' : Belongs other body) (hne : other ≠ name) :
    other.length ≠ name.length := by
  intro hlength
  have hstart : other <+: name := List.prefix_of_prefix_length_le h'.isPrefix h.isPrefix (Nat.le_of_eq hlength)
  exact hne (hstart.eq_of_length hlength)

theorem Belongs.colon_of_le (h : Belongs name body) (h' : Belongs other body) (hne : other ≠ name)
    (hle : name.length ≤ other.length) : name ++ [':'] <+: other := by
  have hlt : name.length < other.length := Nat.lt_of_le_of_ne hle (h.length_ne h' hne).symm
  rcases h with rfl | h
  · exact absurd h'.isPrefix.length_le (Nat.not_le_of_lt hlt)
  · exact List.prefix_of_prefix_length_le h h'.isPrefix (by simpa using Nat.succ_le_of_lt hlt)

/-! ## The longest name -/

theorem mem_candidates_iff : m ∈ r.candidates body ↔
    r.get? m.name = some m.shape ∧ argumentsAfter? m.name body = some m.arguments := by
  rw [candidates, List.mem_filterMap, get?, lookup_eq_some_iff r.distinct]
  constructor
  · rintro ⟨⟨name, shape⟩, hmem, h⟩
    obtain ⟨arguments, ha, rfl⟩ := Option.map_eq_some_iff.1 h
    exact ⟨hmem, ha⟩
  · rintro ⟨hmem, ha⟩
    exact ⟨(m.name, m.shape), hmem, by simp only [ha, Option.map_some]⟩

theorem exists_longer (best : Option Resolved) (m : Resolved) : ∃ d, longer best m = some d ∧
    (best = some d ∨ d = m) ∧ m.name.length ≤ d.name.length ∧ ∀ b ∈ best, b.name.length ≤ d.name.length := by
  cases best with
  | none => exact ⟨m, rfl, .inr rfl, Nat.le_refl _, by simp⟩
  | some b =>
    by_cases h : b.name.length ≤ m.name.length
    · exact ⟨m, by rw [longer, if_pos h], .inr rfl, Nat.le_refl _, by simpa using h⟩
    · exact ⟨b, by rw [longer, if_neg h], .inl rfl, Nat.le_of_not_le h, by simp⟩

/-- Going through the candidates keeps the longest. -/
theorem foldl_longer_eq_some (h : cs.foldl longer best = some m) : (best = some m ∨ m ∈ cs) ∧
    (∀ c ∈ cs, c.name.length ≤ m.name.length) ∧ ∀ b ∈ best, b.name.length ≤ m.name.length := by
  induction cs generalizing best with
  | nil =>
    have hbest : best = some m := h
    exact ⟨.inl hbest, by simp, by simp [hbest]⟩
  | cons c cs ih =>
    obtain ⟨d, hd, hfrom, hc, hb⟩ := exists_longer best c
    rw [List.foldl_cons, hd] at h
    obtain ⟨hm, hcs, hdm⟩ := ih h
    have hdm : d.name.length ≤ m.name.length := hdm d rfl
    refine ⟨?_, List.forall_mem_cons.2 ⟨Nat.le_trans hc hdm, hcs⟩, fun b hbest => Nat.le_trans (hb b hbest) hdm⟩
    rcases hm with hm | hm
    · cases hm
      exact hfrom.imp_right fun h => by simp [h]
    · exact .inr (List.mem_cons_of_mem c hm)

theorem isSome_foldl_longer : (cs.foldl longer best).isSome ↔ best.isSome ∨ cs ≠ [] := by
  induction cs generalizing best with
  | nil => simp
  | cons c cs ih =>
    obtain ⟨d, hd, -⟩ := exists_longer best c
    simp [ih, hd]

theorem isSome_resolve?_iff : (r.resolve? body).isSome ↔ ∃ name, (r.get? name).isSome ∧ Belongs name body := by
  have hcandidates : (r.resolve? body).isSome ↔ ∃ m, m ∈ r.candidates body := by
    rw [resolve?, isSome_foldl_longer, Ne, List.eq_nil_iff_forall_not_mem, Classical.not_forall_not]
    simp
  rw [hcandidates]
  simp only [mem_candidates_iff]
  constructor
  · rintro ⟨m, hshape, ha⟩
    exact ⟨m.name, Option.isSome_of_eq_some hshape, belongs_iff.2 ⟨m.arguments, ha⟩⟩
  · rintro ⟨name, hname, h⟩
    obtain ⟨shape, hshape⟩ := Option.isSome_iff_exists.1 hname
    obtain ⟨arguments, ha⟩ := belongs_iff.1 h
    exact ⟨⟨name, shape, arguments⟩, hshape, ha⟩

/-- A name under which the registry has a shape, longer than any other that the body belongs to. -/
structure IsLongest (r : Registry) (body : Text) (m : Resolved) : Prop where
  shape : r.get? m.name = some m.shape
  arguments : body = m.name ∧ m.arguments = [] ∨ body = m.name ++ ':' :: m.arguments
  longest : ∀ name, (r.get? name).isSome → Belongs name body → name ≠ m.name → name.length < m.name.length

section
variable (h : r.IsLongest body m)
include h

theorem IsLongest.isSome : (r.get? m.name).isSome := Option.isSome_of_eq_some h.shape

theorem IsLongest.belongs : Belongs m.name body :=
  belongs_iff.2 ⟨m.arguments, argumentsAfter?_eq_some_iff.2 h.arguments⟩

theorem IsLongest.unique (h' : r.IsLongest body m') : m = m' := by
  have hname : m.name = m'.name := by
    by_contra hne
    have hlt := h'.longest m.name h.isSome h.belongs hne
    exact Nat.lt_asymm hlt (h.longest m'.name h'.isSome h'.belongs (Ne.symm hne))
  obtain ⟨name, shape, arguments⟩ := m
  obtain ⟨name', shape', arguments'⟩ := m'
  cases hname
  cases h.shape.symm.trans h'.shape
  cases (argumentsAfter?_eq_some_iff.2 h.arguments).symm.trans (argumentsAfter?_eq_some_iff.2 h'.arguments)
  rfl

end

theorem isLongest_of_resolve? (h : r.resolve? body = some m) : r.IsLongest body m := by
  obtain ⟨hm, hle, -⟩ := foldl_longer_eq_some h
  obtain ⟨hshape, ha⟩ := mem_candidates_iff.1 (hm.resolve_left (by simp))
  refine ⟨hshape, argumentsAfter?_eq_some_iff.1 ha, fun name hname h hne => ?_⟩
  refine Nat.lt_of_le_of_ne ?_ ((belongs_iff.2 ⟨m.arguments, ha⟩).length_ne h hne)
  obtain ⟨shape, hshape⟩ := Option.isSome_iff_exists.1 hname
  obtain ⟨arguments, ha⟩ := belongs_iff.1 h
  exact hle ⟨name, shape, arguments⟩ (mem_candidates_iff.2 ⟨hshape, ha⟩)

theorem resolve?_eq_some_iff : r.resolve? body = some m ↔ r.IsLongest body m := by
  refine ⟨isLongest_of_resolve?, fun h => ?_⟩
  obtain ⟨m', hm'⟩ := Option.isSome_iff_exists.1 (isSome_resolve?_iff.2 ⟨m.name, h.isSome, h.belongs⟩)
  rw [hm', h.unique (isLongest_of_resolve? hm')]

/-- Only the shapes count, not in what order the registry has them. -/
theorem resolve?_congr (h : ∀ name, r.get? name = r'.get? name) : r.resolve? body = r'.resolve? body := by
  refine Option.ext fun m => ?_
  have hlongest {r r' : Registry} (h : ∀ name, r.get? name = r'.get? name) (hm : r.IsLongest body m) :
      r'.IsLongest body m :=
    ⟨h m.name ▸ hm.shape, hm.arguments, fun name hname => hm.longest name (h name ▸ hname)⟩
  rw [resolve?_eq_some_iff, resolve?_eq_some_iff]
  exact ⟨hlongest h, hlongest fun name => (h name).symm⟩

/-! ## Any calls -/

theorem exists_register_iff : (∃ r', r.register name shape = .ok r') ↔ name ∉ r.schemas.map (·.1) := by
  constructor
  · rintro ⟨r', h⟩ hmem
    rw [register_of_mem hmem] at h
    cases h
  · intro h
    obtain ⟨r', hr, -⟩ := register_of_not_mem h
    exact ⟨r', hr⟩

theorem register_error_iff {e : Error} : r.register name shape = .error e ↔
    e = .duplicateSchema name ∧ name ∈ r.schemas.map (·.1) := by
  constructor
  · intro h
    by_cases hmem : name ∈ r.schemas.map (·.1)
    · rw [register_of_mem hmem] at h
      exact ⟨(Except.error.inj h).symm, hmem⟩
    · obtain ⟨r', hr, -⟩ := register_of_not_mem hmem
      rw [hr] at h
      cases h
  · rintro ⟨rfl, hmem⟩
    exact register_of_mem hmem

theorem get?_after_eq_some_iff : (empty.after calls).get? name = some shape ↔
    ∃ before later, calls = before ++ (name, shape) :: later ∧ name ∉ before.map (·.1) := by
  rw [get?_empty_after, List.lookup_eq_some_iff]
  refine exists_congr fun before => exists_congr fun later => and_congr_right fun _ => ?_
  rw [← List.lookup_eq_none_iff, ← lookup_isSome_iff_mem, Option.not_isSome_iff_eq_none]

/-- Calls for different names may change places. -/
theorem get?_after_congr (h : ∀ name, calls'.filter (·.1 = name) = calls.filter (·.1 = name)) (name : Text) :
    (empty.after calls').get? name = (empty.after calls).get? name := by
  rw [get?_empty_after, get?_empty_after, lookup_eq_head?, lookup_eq_head?, h]

/-- Registering is refused for names that were registered before, and for no others; under a name is
the shape of the first call. A body is resolved if it belongs to some name that was called, to the
longest of them and with what follows it, and calls for different names may change places. -/
theorem after_resolves_longest (calls : List (Text × Shape)) :
    (∀ name shape,
      ((∃ r, (empty.after calls).register name shape = .ok r) ↔ name ∉ calls.map (·.1)) ∧
      (∀ e, (empty.after calls).register name shape = .error e ↔
        e = .duplicateSchema name ∧ name ∈ calls.map (·.1)) ∧
      (name ∈ calls.map (·.1) → empty.after (calls ++ [(name, shape)]) = empty.after calls)) ∧
    (∀ name shape, (empty.after calls).get? name = some shape ↔
      ∃ before later, calls = before ++ (name, shape) :: later ∧ name ∉ before.map (·.1)) ∧
    (empty.after calls).size = (calls.map (·.1)).dedup.length ∧
    (∀ body, ((empty.after calls).resolve? body).isSome ↔
      ∃ name ∈ calls.map (·.1), body = name ∨ name ++ [':'] <+: body) ∧
    (∀ body m, (empty.after calls).resolve? body = some m ↔
      (empty.after calls).get? m.name = some m.shape ∧
      (body = m.name ∧ m.arguments = [] ∨ body = m.name ++ ':' :: m.arguments) ∧
      ∀ name ∈ calls.map (·.1), (body = name ∨ name ++ [':'] <+: body) → name ≠ m.name →
        name.length < m.name.length) ∧
    ∀ calls', (∀ name, calls'.filter (·.1 = name) = calls.filter (·.1 = name)) →
      (∀ name, (empty.after calls').get? name = (empty.after calls).get? name) ∧
      ∀ body, (empty.after calls').resolve? body = (empty.after calls).resolve? body := by
  have hcalled {name : Text} : ((empty.after calls).get? name).isSome ↔ name ∈ calls.map (·.1) := by
    rw [isSome_get?_iff, mem_names_after]
  refine ⟨fun name shape => ⟨?_, fun e => ?_, fun h => ?_⟩, fun _ _ => get?_after_eq_some_iff, size_after,
    fun body => ?_, fun body m => ?_, fun calls' h => ⟨get?_after_congr h, fun body => ?_⟩⟩
  · rw [exists_register_iff, mem_names_after]
  · rw [register_error_iff, mem_names_after]
  · rw [after, List.foldl_append, ← after]
    exact call_of_mem (mem_names_after.2 h)
  · rw [isSome_resolve?_iff]
    simp only [hcalled, Belongs]
  · rw [resolve?_eq_some_iff]
    simp only [← hcalled]
    exact ⟨fun ⟨hshape, ha, hlongest⟩ => ⟨hshape, ha, hlongest⟩, fun ⟨hshape, ha, hlongest⟩ => ⟨hshape, ha, hlongest⟩⟩
  · exact resolve?_congr (get?_after_congr h)

/-- A name with a colon at its end, one that goes on from another and one that is called twice. -/
theorem after_resolves_longest_nested :
    let calls : List (Text × Shape) := [("a", ⟨[]⟩), ("a:", ⟨[]⟩), ("a", ⟨[⟨"k", .text⟩]⟩), ("a:b", ⟨[]⟩)]
    let calls' : List (Text × Shape) := [("a:b", ⟨[]⟩), ("a", ⟨[]⟩), ("a", ⟨[⟨"k", .text⟩]⟩), ("a:", ⟨[]⟩)]
    (∀ name, calls'.filter (·.1 = name) = calls.filter (·.1 = name)) ∧ (empty.after calls).size = 3 ∧
      (∀ body, (empty.after calls').resolve? body = (empty.after calls).resolve? body) ∧
      (empty.after calls).resolve? "a:b:k=v" = some ⟨"a:b", ⟨[]⟩, "k=v"⟩ ∧
      (empty.after calls).resolve? "a::b" = some ⟨"a:", ⟨[]⟩, "b"⟩ ∧
      (empty.after calls).resolve? "a:c" = some ⟨"a", ⟨[]⟩, "c"⟩ := by
  intro calls calls'
  have horder : ∀ name, calls'.filter (·.1 = name) = calls.filter (·.1 = name) := by
    intro name
    simp only [calls, calls', List.filter_cons]
    grind
  obtain ⟨-, -, hsize, -, hresolve, hcalls'⟩ := after_resolves_longest calls
  refine ⟨horder, hsize, (hcalls' calls' horder).2, (hresolve _ _).2 ?_, (hresolve _ _).2 ?_, (hresolve _ _).2 ?_⟩
  all_goals decide

end ScenarioDocs.Registry
