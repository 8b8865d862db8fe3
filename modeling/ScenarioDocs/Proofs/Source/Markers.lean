import Mathlib.Data.List.TakeWhile
import ScenarioDocs.Proofs.Text.Lines
import ScenarioDocs.Proofs.Text.Trimming
import ScenarioDocs.Source

/-!
# Finding the marker of a line

Blanks before the slashes, after them and at the end of a line do not count;
the rest of a pod marker's line are its arguments.
-/

namespace ScenarioDocs

open Text

variable {a b line body : Text}

theorem isPrefixOf?_append (word t : Text) : List.isPrefixOf? word (word ++ t) = some t :=
  List.isPrefixOf?_eq_some_iff_append_eq.2 rfl

theorem isPrefixOf?_append_blank {word : Text} (hword : ∀ c ∈ word, isBlank c = false)
    (hb : AllBlank b) (t : Text) :
    List.isPrefixOf? word (t ++ b) = (List.isPrefixOf? word t).map (· ++ b) := by
  induction word generalizing t with
  | nil => rfl
  | cons c word ih =>
    have hw : ∀ d ∈ word, isBlank d = false := fun d hd => hword d (by simp [hd])
    cases t with
    | cons d t =>
      simp only [List.cons_append, List.isPrefixOf?]
      split
      · exact ih hw t
      · rfl
    | nil =>
      cases b with
      | nil => rfl
      | cons d b =>
        have hne : c ≠ d := by
          rintro rfl
          exact hb.not_mem (hword c (by simp)) (by simp)
        simp [List.isPrefixOf?, hne]

/-- What follows a word, blanks before the word left out. -/
theorem prefix_trimStart_append_blank {word : Text} (hword : ∀ c ∈ word, isBlank c = false)
    (hne : word ≠ []) (hb : AllBlank b) (t : Text) :
    List.isPrefixOf? word (trimStart (t ++ b)) = (List.isPrefixOf? word (trimStart t)).map (· ++ b) := by
  by_cases ht : AllBlank t
  · obtain ⟨c, w, rfl⟩ := List.exists_cons_of_ne_nil hne
    rw [trimStart_eq_nil_iff.2 ht, trimStart_eq_nil_iff.2 (allBlank_append.2 ⟨ht, hb⟩)]
    rfl
  · rw [trimStart_append_of_not_allBlank ht, isPrefixOf?_append_blank hword hb]

theorem markerBody?_append_blank (hb : AllBlank b) (line : Text) :
    markerBody? (line ++ b) = markerBody? line := by
  unfold markerBody?
  rw [prefix_trimStart_append_blank (by simp [isBlank]) (by decide) hb]
  cases List.isPrefixOf? "//".toList (trimStart line) with
  | none => rfl
  | some comment =>
    simp only [Option.map_some, Option.bind_eq_bind, Option.bind_some]
    rw [prefix_trimStart_append_blank (by simp [isBlank]) (by decide) hb]
    cases List.isPrefixOf? "+".toList (trimStart comment) with
    | none => rfl
    | some body => simp [trimEnd_append hb]

theorem markerBody?_dropReturn (line : Text) : markerBody? (dropReturn line) = markerBody? line := by
  have hr : AllBlank ['\r'] := by simp [AllBlank, isBlank]
  rcases eq_dropReturn line with h | h
  · rw [← h]
  · have hm := markerBody?_append_blank hr (dropReturn line)
    rw [← h] at hm
    exact hm.symm

theorem markerBody?_comment (ha : AllBlank a) (hb : AllBlank b) (body : Text) :
    markerBody? (a ++ "//" ++ b ++ "+" ++ body) = some (trimEnd body) := by
  have hslash : trimStart (a ++ "//" ++ b ++ "+" ++ body) = "//".toList ++ (b ++ ("+" ++ body)) := by
    rw [List.append_assoc, List.append_assoc, List.append_assoc, trimStart_append ha]
    exact trimStart_cons (by decide)
  have hplus : trimStart (b ++ ("+".toList ++ body)) = "+".toList ++ body := by
    rw [trimStart_append hb]
    exact trimStart_cons (by decide)
  simp only [markerBody?, hslash, isPrefixOf?_append, hplus, Option.bind_eq_bind, Option.bind_some,
    Option.pure_def]

/-! ## Pod markers -/

namespace Scanner

theorem podArguments?_dropReturn (s : Scanner) (line : Text) :
    s.podArguments? (dropReturn line) = s.podArguments? line := by
  rw [podArguments?, podArguments?, markerBody?_dropReturn]

theorem trimEnd_schemaName : trimEnd Scenario.schemaName = Scenario.schemaName := by decide

theorem podArguments?_name {c : Text} (ha : AllBlank a) (hb : AllBlank b) (hc : AllBlank c) :
    standard.podArguments? (a ++ "//" ++ b ++ "+" ++ Scenario.schemaName ++ c) = some [] := by
  rw [podArguments?, List.append_assoc _ Scenario.schemaName, markerBody?_comment ha hb, trimEnd_append hc,
    trimEnd_schemaName]
  rfl

theorem podArguments?_colon (ha : AllBlank a) (hb : AllBlank b) (arguments : Text) :
    standard.podArguments? (a ++ "//" ++ b ++ "+" ++ (Scenario.schemaName ++ ':' :: arguments)) =
      some (trimEnd arguments) := by
  have hname : trimEnd (Scenario.schemaName ++ [':']) = Scenario.schemaName ++ [':'] :=
    trimEnd_concat (by decide)
  rw [podArguments?, markerBody?_comment ha hb, List.append_cons, trimEnd_append_of_trimEnd hname]
  rfl

end Scanner

end ScenarioDocs
