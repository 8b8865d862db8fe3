import ScenarioDocs.Proofs.Schema.Registration
import ScenarioDocs.Proofs.Source.Locations

/-!
# Scanning beside other schemas

A name takes a marker away from the pod schema only if it goes on from the
name of that schema with a colon, and then only markers of its own. All other
names that are registered leave a scan as it was.
-/

namespace ScenarioDocs.Scanner

open Text Registry

variable {s s' : Scanner} {calls : List (Text × Shape)} {line arguments name : Text}

def IsMarkerOf (name line : Text) : Prop := ∃ body ∈ markerBody? line, Belongs name body

instance (name line : Text) : Decidable (IsMarkerOf name line) :=
  inferInstanceAs (Decidable (∃ body ∈ markerBody? line, Belongs name body))

/-- A name that can stand between the pod schema and a marker of its own. -/
def Specializes (name : Text) : Prop := Scenario.schemaName ++ [':'] <+: name

instance (name : Text) : Decidable (Specializes name) := inferInstanceAs (Decidable (_ <+: name))

theorem Specializes.length_lt (h : Specializes name) : Scenario.schemaName.length < name.length := by
  have hle := h.length_le
  rwa [List.length_append] at hle

/-! ## Pod markers -/

theorem podArguments?_eq_some_iff : s.podArguments? line = some arguments ↔ ∃ body, markerBody? line = some body ∧
    argumentsAfter? Scenario.schemaName body = some arguments ∧
    ∀ name, (s.registry.get? name).isSome → Specializes name → ¬Belongs name body := by
  simp only [podArguments?, Option.bind_eq_bind, Option.bind_eq_some_iff, Option.ite_none_right_eq_some,
    Option.some.injEq, resolve?_eq_some_iff]
  refine exists_congr fun body => and_congr_right fun _ => ?_
  constructor
  · rintro ⟨m, hm, hname, rfl⟩
    refine ⟨hname ▸ argumentsAfter?_eq_some_iff.2 hm.arguments, fun name hget hspecial hbody => ?_⟩
    have hlt : m.name.length < name.length := hname ▸ hspecial.length_lt
    exact Nat.lt_asymm hlt (hm.longest name hget hbody fun h => Nat.lt_irrefl _ (h ▸ hlt))
  · rintro ⟨ha, hspecial⟩
    refine ⟨⟨Scenario.schemaName, s.shape, arguments⟩, ⟨s.holds, argumentsAfter?_eq_some_iff.1 ha, ?_⟩, rfl, rfl⟩
    intro name hget hbody hne
    by_contra hle
    exact hspecial name hget ((belongs_iff.2 ⟨_, ha⟩).colon_of_le hbody hne (Nat.le_of_not_lt hle)) hbody

section
variable (hs : s'.registry = s.registry.after calls)
include hs

theorem shape_after : s'.shape = s.shape := by
  have h := s'.holds
  rw [hs, get?_after, s.holds] at h
  exact (Option.some.inj h).symm

theorem podArguments?_after : s'.podArguments? line =
    if ∀ c ∈ calls, Specializes c.1 → ¬IsMarkerOf c.1 line then s.podArguments? line else none := by
  refine Option.ext fun arguments => ?_
  simp only [Option.ite_none_right_eq_some, podArguments?_eq_some_iff, hs, isSome_get?_after]
  constructor
  · rintro ⟨body, hbody, ha, hall⟩
    refine ⟨fun c hc hspecial hmarker => ?_, body, hbody, ha, fun name hget => hall name (.inl hget)⟩
    obtain ⟨body', hbody', h⟩ := hmarker
    cases hbody.symm.trans hbody'
    exact hall c.1 (.inr (List.mem_map_of_mem hc)) hspecial h
  · rintro ⟨hcalls, body, hbody, ha, hall⟩
    refine ⟨body, hbody, ha, fun name hget hspecial h => ?_⟩
    rcases hget with hget | hmem
    · exact hall name hget hspecial h
    · obtain ⟨c, hc, rfl⟩ := List.mem_map.1 hmem
      exact hcalls c hc hspecial ⟨body, hbody, h⟩

theorem readLine_after (label : Text) (n : Nat) (line : Text) : s'.readLine label n line =
    if ∀ c ∈ calls, Specializes c.1 → ¬IsMarkerOf c.1 line then s.readLine label n line else none := by
  rw [readLine, shape_after hs, podArguments?_after hs, readLine]
  split <;> rfl

end

/-! ## Scans -/

def foundOn (s : Scanner) (label : Text) (numbered : List (Text × Nat)) : Found :=
  let outcomes := numbered.filterMap fun (line, number) => s.readLine label number line
  ⟨outcomes.filterMap scenario?, outcomes.filterMap skip?⟩

theorem scan_eq_foundOn (s : Scanner) (text label : Text) :
    s.scan text label = s.foundOn label ((lines text).zipIdx 1) := rfl

theorem foundOn_after (hs : s'.registry = s.registry.after calls) (label : Text) (numbered : List (Text × Nat)) :
    s'.foundOn label numbered = s.foundOn label
      (numbered.filter fun p => ∀ c ∈ calls, Specializes c.1 → ¬IsMarkerOf c.1 p.1) := by
  have houtcomes : (numbered.filterMap fun (line, number) => s'.readLine label number line) =
      (numbered.filter fun p => ∀ c ∈ calls, Specializes c.1 → ¬IsMarkerOf c.1 p.1).filterMap
        fun (line, number) => s.readLine label number line := by
    rw [List.filterMap_filter]
    refine List.filterMap_congr fun p _ => ?_
    simp only [readLine_after hs, decide_eq_true_eq]
  simp only [foundOn, houtcomes]

theorem exists_scanner_after (s : Scanner) (calls : List (Text × Shape)) :
    ∃ s', ofRegistry (s.registry.after calls) = .ok s' ∧ s'.registry = s.registry.after calls := by
  have hholds : (s.registry.after calls).get? Scenario.schemaName = some s.shape := by
    rw [get?_after, s.holds, Option.some_or]
  refine ⟨⟨_, s.shape, hholds⟩, ?_, rfl⟩
  unfold ofRegistry
  split
  · rename_i shape h
    cases hholds.symm.trans h
    rfl
  · rename_i h
    cases hholds.symm.trans h

/-- Registering more names leaves a scan as it was, but for the lines whose markers belong to a new
name that goes on from the pod schema's with a colon: what they held is gone. -/
theorem scan_after_registering (s : Scanner) (calls : List (Text × Shape)) :
    ∃ s', ofRegistry (s.registry.after calls) = .ok s' ∧ ∀ text label,
      ((∀ c ∈ calls, ¬Scenario.schemaName ++ [':'] <+: c.1) → s'.scan text label = s.scan text label) ∧
      s.scan text label = s.foundOn label ((lines text).zipIdx 1) ∧
      s'.scan text label = s.foundOn label (((lines text).zipIdx 1).filter fun p =>
        ∀ c ∈ calls, Scenario.schemaName ++ [':'] <+: c.1 → ¬IsMarkerOf c.1 p.1) := by
  obtain ⟨s', hok, hs⟩ := exists_scanner_after s calls
  refine ⟨s', hok, fun text label => ?_⟩
  have hafter := foundOn_after hs label ((lines text).zipIdx 1)
  refine ⟨fun hcalls => ?_, scan_eq_foundOn s text label, hafter⟩
  rw [scan_eq_foundOn, hafter, List.filter_eq_self.2, ← scan_eq_foundOn]
  intro p _
  exact decide_eq_true fun c hc hspecial => absurd hspecial (hcalls c hc)

/-- Names around that of the pod schema do nothing; one below it takes its own markers away, here the
second line's, but not the first line's, which goes on with something else than a colon. -/
theorem scan_after_registering_nested :
    let around : List (Text × Shape) :=
      [("docgenerator", ⟨[]⟩), ("docgenerator:", ⟨[]⟩), ("docgenerator:pod", ⟨[]⟩), ("docgenerator:pods", ⟨[]⟩)]
    let below : List (Text × Shape) := [("docgenerator:pod:x", ⟨[]⟩)]
    let text : Text := "// +docgenerator:pod:x=1\n// +docgenerator:pod:x:y\n//+docgenerator:pod:scenario=a"
    (∀ c ∈ around, ¬Scenario.schemaName ++ [':'] <+: c.1) ∧
      (∃ s', ofRegistry (standard.registry.after around) = .ok s' ∧ s'.scan text "f" = standard.scan text "f") ∧
      (standard.scan text "f").skipped.map (·.location) = ["f:1", "f:2"] ∧
      ∃ s', ofRegistry (standard.registry.after below) = .ok s' ∧
        (s'.scan text "f").scenarios = (standard.scan text "f").scenarios ∧
        (s'.scan text "f").skipped.map (·.location) = ["f:1"] := by
  intro around below text
  have haround : ∀ c ∈ around, ¬Scenario.schemaName ++ [':'] <+: c.1 := by decide
  obtain ⟨s₁, hok₁, h₁⟩ := scan_after_registering standard around
  obtain ⟨s₂, hok₂, h₂⟩ := scan_after_registering standard below
  obtain ⟨-, -, hbelow⟩ := h₂ text "f"
  refine ⟨haround, ⟨s₁, hok₁, (h₁ text "f").1 haround⟩, by decide +kernel, s₂, hok₂, ?_⟩
  rw [hbelow]
  decide +kernel

end ScenarioDocs.Scanner
