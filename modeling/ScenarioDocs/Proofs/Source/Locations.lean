import Mathlib.Data.List.Nodup
import ScenarioDocs.Proofs.Text.Lines
import ScenarioDocs.Source

/-!
# What a scan says about its lines

Every pod marker gives one scenario or one skip. Neither depends on the label,
except for the location of a skip, and that tells the label and the line.
-/

namespace ScenarioDocs

open Text

variable {label label' t : Text} {n m start : Nat} {ls : List Text} {skip : Skip}

/-! ## Locations -/

theorem Text.decimal_inj (h : decimal n = decimal m) : n = m := by
  have hn := Nat.ofDigitChars_toDigits (b := 10) (n := n) (by decide) (by decide)
  have hm := Nat.ofDigitChars_toDigits (b := 10) (n := m) (by decide) (by decide)
  rw [← hn, ← hm]
  exact congrArg (Nat.ofDigitChars 10 · 0) h

theorem Text.colon_not_mem_decimal (n : Nat) : ':' ∉ decimal n := fun h =>
  absurd (Nat.isDigit_of_mem_toDigits (by decide) (by decide) h) (by decide)

theorem location_inj (h : label ++ ":" ++ decimal n = label' ++ ":" ++ decimal m) : label = label' ∧ n = m := by
  have hrev := congrArg (fun t => pieces ':' t.reverse) h
  have hcut (l : Text) (k : Nat) :
      pieces ':' (l ++ ":" ++ decimal k).reverse = (decimal k).reverse :: pieces ':' l.reverse := by
    rw [List.reverse_append, List.reverse_append]
    exact pieces_append (by simpa using colon_not_mem_decimal k)
  simp only [hcut, List.cons.injEq] at hrev
  refine ⟨?_, decimal_inj (List.reverse_injective hrev.1)⟩
  rw [← List.reverse_inj, ← join_pieces ':' label.reverse, hrev.2, join_pieces]

def Text.lineOf (label location : Text) : Nat :=
  Nat.ofDigitChars 10 (location.drop (label.length + 1)) 0

theorem lineOf_location (label : Text) (n : Nat) : lineOf label (label ++ ":" ++ decimal n) = n := by
  have hlength : label.length + 1 = (label ++ ":".toList).length := by
    rw [List.length_append]
    rfl
  rw [lineOf, hlength, List.drop_left]
  exact Nat.ofDigitChars_toDigits (by decide) (by decide)

def Skip.line (label : Text) (skip : Skip) : Nat := lineOf label skip.location

theorem Skip.line_of_location (h : skip.location = label ++ ":" ++ decimal n) : skip.line label = n := by
  rw [Skip.line, h, lineOf_location]

namespace Scanner

def scenario? : Except Skip Scenario → Option Scenario
  | .ok r => some r
  | .error _ => none

def skip? : Except Skip Scenario → Option Skip
  | .ok _ => none
  | .error e => some e

variable (s : Scanner)

theorem scan_eq (t label : Text) : s.scan t label =
    ⟨(s.readLines label 1 (lines t)).filterMap scenario?, (s.readLines label 1 (lines t)).filterMap skip?⟩ := rfl

def countMarkers (t : Text) : Nat := (lines t).countP fun line => (s.podArguments? line).isSome

def reasons (t : Text) : List Text := (s.scan t []).skipped.map (·.reason)

theorem readLines_cons (label : Text) (start : Nat) (line : Text) (ls : List Text) :
    s.readLines label start (line :: ls) =
      (s.readLine label start line).toList ++ s.readLines label (start + 1) ls := by
  rw [readLines, List.zipIdx_cons, List.filterMap_cons]
  cases h : s.readLine label start line <;> simp only [h] <;> rfl

theorem readLine_location (h : s.readLine label n t = some (.error skip)) :
    skip.location = label ++ ":" ++ decimal n := by
  obtain ⟨arguments, -, h⟩ := Option.map_eq_some_iff.1 h
  split at h
  · cases h
  · cases h
    rfl

theorem exists_location (h : skip ∈ (s.readLines label start ls).filterMap skip?) :
    ∃ n, start ≤ n ∧ skip.location = label ++ ":" ++ decimal n := by
  induction ls generalizing start with
  | nil => cases h
  | cons line ls ih =>
    rw [readLines_cons, List.filterMap_append, List.mem_append] at h
    rcases h with h | h
    · obtain ⟨o, ho, hskip⟩ := List.mem_filterMap.1 h
      cases o with
      | ok r => cases hskip
      | error e =>
        cases hskip
        exact ⟨start, Nat.le_refl _, s.readLine_location (by simpa using ho)⟩
    · obtain ⟨n, hn, hloc⟩ := ih h
      exact ⟨n, Nat.le_of_succ_le hn, hloc⟩

theorem pairwise_readLines (label : Text) (start : Nat) (ls : List Text) :
    (((s.readLines label start ls).filterMap skip?).map (Skip.line label)).Pairwise (· < ·) := by
  induction ls generalizing start with
  | nil => exact .nil
  | cons line ls ih =>
    rw [readLines_cons, List.filterMap_append, List.map_append]
    rcases h : s.readLine label start line with _ | e | r
    · exact ih (start + 1)
    · refine List.pairwise_cons.2 ⟨fun n hmem => ?_, ih (start + 1)⟩
      obtain ⟨e', he', rfl⟩ := List.mem_map.1 hmem
      obtain ⟨n, hn, hloc⟩ := s.exists_location he'
      rw [Skip.line_of_location hloc, Skip.line_of_location (s.readLine_location h)]
      exact hn
    · exact ih (start + 1)

theorem pairwise_skipped (t label : Text) : ((s.scan t label).skipped.map (Skip.line label)).Pairwise (· < ·) :=
  s.pairwise_readLines label 1 (lines t)

theorem nodup_locations (t label : Text) : ((s.scan t label).skipped.map (·.location)).Nodup := by
  have hlines := (s.pairwise_skipped t label).imp fun h => Nat.ne_of_lt h
  rw [show Skip.line label = lineOf label ∘ (·.location) from rfl, ← List.map_map] at hlines
  exact List.Nodup.of_map _ hlines

theorem exists_location_of_scan (h : skip ∈ (s.scan t label).skipped) :
    ∃ n, skip.location = label ++ ":" ++ decimal n := by
  obtain ⟨n, -, hloc⟩ := s.exists_location h
  exact ⟨n, hloc⟩

/-! ## Outcomes -/

/-- The scenario on a line, or why there is none, if the line is a pod marker. -/
def outcome? (line : Text) : Option (Except Text Scenario) :=
  (s.podArguments? line).map fun arguments =>
    match s.shape.annotate Scenario.schemaName arguments with
    | .ok a => .ok (.ofDecoded a)
    | .error m => .error m.reason

theorem readLine_eq (label : Text) (n : Nat) (line : Text) :
    s.readLine label n line =
      (s.outcome? line).map (Except.mapError fun reason => ⟨label ++ ":" ++ decimal n, reason⟩) := by
  unfold readLine outcome?
  rw [Option.map_map]
  congr 1
  funext arguments
  simp only [Function.comp_apply]
  cases s.shape.annotate Scenario.schemaName arguments <;> rfl

theorem readLines_outcomes (label : Text) (start : Nat) (ls : List Text) :
    (s.readLines label start ls).map (Except.mapError (·.reason)) = ls.filterMap s.outcome? := by
  induction ls generalizing start with
  | nil => rfl
  | cons line ls ih =>
    rw [readLines_cons, List.map_append, ih, readLine_eq, List.filterMap_cons]
    rcases s.outcome? line with _ | e | r <;> rfl

theorem filterMap_scenario? (os : List (Except Skip Scenario)) :
    os.filterMap scenario? = (os.map (Except.mapError (·.reason))).filterMap Except.toOption := by
  rw [List.filterMap_map]
  congr 1
  funext o
  cases o <;> rfl

theorem map_reason_filterMap (os : List (Except Skip Scenario)) :
    (os.filterMap skip?).map (·.reason) = (os.map (Except.mapError (·.reason))).filterMap fun
      | .ok _ => none
      | .error reason => some reason := by
  rw [List.filterMap_map, List.map_filterMap]
  congr 1
  funext o
  cases o <;> rfl

theorem length_filterMap (os : List (Except Skip Scenario)) :
    (os.filterMap scenario?).length + (os.filterMap skip?).length = os.length := by
  induction os with
  | nil => rfl
  | cons o os ih =>
    cases o with
    | ok r =>
      change (os.filterMap scenario?).length + 1 + (os.filterMap skip?).length = os.length + 1
      omega
    | error e =>
      change (os.filterMap scenario?).length + ((os.filterMap skip?).length + 1) = os.length + 1
      omega

theorem scan_scenarios (t label label' : Text) : (s.scan t label).scenarios = (s.scan t label').scenarios := by
  rw [scan_eq, scan_eq, filterMap_scenario?, filterMap_scenario?, readLines_outcomes, readLines_outcomes]

theorem scan_reasons (t label : Text) : (s.scan t label).skipped.map (·.reason) = s.reasons t := by
  rw [reasons, scan_eq, scan_eq, map_reason_filterMap, map_reason_filterMap, readLines_outcomes, readLines_outcomes]

theorem isSome_outcome? (line : Text) : (s.outcome? line).isSome = (s.podArguments? line).isSome := Option.isSome_map

theorem length_scan (t label : Text) :
    (s.scan t label).scenarios.length + (s.scan t label).skipped.length = s.countMarkers t := by
  rw [scan_eq, length_filterMap, ← List.length_map (Except.mapError (·.reason)), readLines_outcomes,
    List.length_filterMap_eq_countP, countMarkers]
  simp only [isSome_outcome?]

end Scanner

end ScenarioDocs
