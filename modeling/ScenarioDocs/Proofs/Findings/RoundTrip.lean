import Mathlib
import ScenarioDocs.Findings.Reader
import ScenarioDocs.Proofs.Json.RoundTrip
import ScenarioDocs.Proofs.Outcome

/-!
# Findings survive their JSON form

Layer by layer, from texts up to findings: what a part is written as holds no
numbers, so that its text is read as the JSON it came from, and that JSON is
read as the part.
-/

namespace ScenarioDocs

open Json

/-! ## From JSON to findings -/

theorem Json.list?_map {α : Type} {write : α → Json} {read : Json → Option α}
    (h : ∀ a, read (write a) = some a) (items : List α) :
    list? read (.array (items.map write)) = some items := mapM_map_eq_some h items

theorem Json.list?_texts (ts : List Text) : list? text? (.texts ts) = some ts := by
  apply list?_map
  intro t
  rfl

theorem Flag.ofJson?_spelling (flag : Flag) : Flag.ofJson? (.string flag.spelling) = some flag := by
  cases flag <;> rfl

theorem Scenario.ofJson?_scenarioJson (s : Scenario) : ofJson? (Findings.scenarioJson s) = some s := by
  have htext (t : Text) : text? (.string t) = some t := rfl
  simp [ofJson?, Findings.scenarioJson, memberOr, List.lookup, htext, list?_texts, Flag.ofJson?_spelling]

theorem Scope.ofJson?_scopeJson (scope : Scope) : ofJson? (Findings.scopeJson scope) = some scope := by
  have hrecords := list?_map Scenario.ofJson?_scenarioJson scope.scenarios
  simp [ofJson?, Findings.scopeJson, member?, List.lookup, text?, hrecords]

theorem Skip.ofJson?_skipJson (s : Skip) : ofJson? (Findings.skipJson s) = some s := rfl

/-! ## From the text to JSON -/

theorem Json.numberless_map {α : Type} {write : α → Json} (h : ∀ a, (write a).Numberless) (items : List α) :
    (Json.array (items.map write)).Numberless := by
  apply Numberless.array
  intro j hj
  obtain ⟨a, -, rfl⟩ := List.mem_map.1 hj
  exact h a

namespace Findings

theorem numberless_scenarioJson (s : Scenario) : (scenarioJson s).Numberless := by
  apply Numberless.object
  simp [Numberless.string, texts, numberless_map Numberless.string]

theorem numberless_scopeJson (scope : Scope) : (scopeJson scope).Numberless := by
  apply Numberless.object
  simp [Numberless.string, numberless_map numberless_scenarioJson]

theorem numberless_skipJson (s : Skip) : (skipJson s).Numberless := by
  apply Numberless.object
  simp [Numberless.string]

theorem numberless_json (f : Findings) : f.json.Numberless := by
  apply Numberless.object
  simp [numberless_map numberless_scopeJson, numberless_map numberless_skipJson]

/-! ## The round trip -/

theorem scopes_json (f : Findings) : (f.json.member? "scopes").bind (list? Scope.ofJson?) = some f.scopes :=
  list?_map Scope.ofJson?_scopeJson f.scopes

theorem skipped_json (f : Findings) : (f.json.member? "skipped").bind (list? Skip.ofJson?) = some f.skipped :=
  list?_map Skip.ofJson?_skipJson f.skipped

theorem ofJson?_json (f : Findings) : ofJson? f.json = some f := by
  have h : ofJson? f.json =
      (list? Scope.ofJson? (.array (f.scopes.map scopeJson))).bind fun scopes =>
        (list? Skip.ofJson? (.array (f.skipped.map skipJson))).bind fun skipped => some ⟨scopes, skipped⟩ := rfl
  rw [h, list?_map Scope.ofJson?_scopeJson, list?_map Skip.ofJson?_skipJson]
  rfl

theorem parse?_pretty_json (f : Findings) : parse? f.json.pretty = some f := by
  rw [parse?, (numberless_json f).parse?_pretty]
  exact ofJson?_json f

/-- The listing of any findings is one JSON text. It reads as the object it was made from, whose
members give the scopes and the skipped markers back in order, so no two findings share it. -/
theorem pretty_json_reads_back (f : Findings) :
    Json.parse? f.json.pretty = some f.json ∧
      (f.json.member? "scopes").bind (list? Scope.ofJson?) = some f.scopes ∧
      (f.json.member? "skipped").bind (list? Skip.ofJson?) = some f.skipped ∧
      parse? f.json.pretty = some f ∧ ∀ g : Findings, g.json.pretty = f.json.pretty ↔ g = f := by
  refine ⟨(numberless_json f).parse?_pretty, scopes_json f, skipped_json f, parse?_pretty_json f, fun g => ?_⟩
  constructor
  · intro h
    have hg := parse?_pretty_json g
    rw [h, parse?_pretty_json f, Option.some.injEq] at hg
    exact hg.symm
  · intro h
    rw [h]

end Findings

end ScenarioDocs
