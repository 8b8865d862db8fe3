import ScenarioDocs.Proofs.Discovery.Silent
import ScenarioDocs.Proofs.Document.Lines
import ScenarioDocs.Proofs.Source.OneLine

/-!
# Documents are no sources

Every line of a document starts with words of its own, whatever the records
hold, so no line of a document is a marker, and to scan a document is to find
nothing.
-/

namespace ScenarioDocs

open Text

variable {line t : Text} {c : Char} {scopes : List Scope}

def Unmarked (t : Text) : Prop := ∀ line ∈ lines t, markerBody? line = none

theorem markerBody?_eq_none (hblank : isBlank c = false) (hslash : c ≠ '/') (t : Text) :
    markerBody? (c :: t) = none := by
  have hprefix : List.isPrefixOf? "//".toList (c :: t) = none := by
    simp [List.isPrefixOf?, hslash.symm]
  rw [markerBody?, trimStart_cons hblank, hprefix]
  rfl

/-- There is no marker without a slash. -/
theorem markerBody?_of_not_mem (hslash : '/' ∉ line) : markerBody? line = none := by
  have hprefix : List.isPrefixOf? "//".toList (trimStart line) = none := by
    cases h : trimStart line with
    | nil => rfl
    | cons c t =>
      have hc : c ∈ line := (List.dropWhile_sublist _).subset (h ▸ List.mem_cons_self ..)
      have hne : '/' ≠ c := by
        rintro rfl
        exact hslash hc
      simp [List.isPrefixOf?, hne]
  rw [markerBody?, hprefix]
  rfl

theorem markerBody?_topic (topic : Topic) (t : Text) : markerBody? (topic.line t) = none := by
  cases topic with
  | name => exact markerBody?_eq_none (c := '#') (by decide) (by decide) _
  | success => exact markerBody?_eq_none (c := '-') (by decide) (by decide) _
  | failure => exact markerBody?_eq_none (c := '-') (by decide) (by decide) _
  | reason => exact markerBody?_eq_none (c := '*') (by decide) (by decide) _

theorem unmarked_of_pieces (h : ∀ p ∈ pieces '\n' t, markerBody? p = none) : Unmarked t := by
  intro line hline
  obtain ⟨p, hp, rfl | rfl⟩ := mem_endLines hline
  · exact h _ hp
  · rw [markerBody?_dropReturn]
    exact h p hp

theorem PodSpec.unmarked_lines (i v : Bool) : ∀ line ∈ lines i v, (markerBody? line).isSome = false := by
  refine forall_mem_lines (P := fun line => (markerBody? line).isSome = false) (fun line hplain => ?_) rfl i v
  rw [markerBody?_of_not_mem fun hslash => hplain '/' hslash (by decide)]
  rfl

/-- No line of a document is a marker, as long as its records have texts of one line. -/
theorem Document.unmarked_text (h : ∀ r ∈ scenarios scopes, r.OneLine) : Unmarked (text scopes) := by
  refine unmarked_of_pieces fun p hp => Option.not_isSome_iff_eq_none.1 fun hmarker => ?_
  have hpicked : p ∈ (pieces '\n' (text scopes)).filter fun line => (markerBody? line).isSome :=
    List.mem_filter.2 ⟨hp, hmarker⟩
  rw [filter_text PodSpec.unmarked_lines rfl h rfl] at hpicked
  obtain ⟨r, -, hpicked⟩ := List.mem_flatMap.1 hpicked
  obtain ⟨topic, t, rfl⟩ := Scenario.exists_line_of_mem_topicLines (List.mem_filter.1 hpicked).1
  rw [markerBody?_topic] at hmarker
  cases hmarker

/-! ## Scanning a document -/

namespace Scanner

theorem isSilent_of_unmarked {s : Scanner} (h : Unmarked t) : s.IsSilent t := by
  intro line hline
  rw [podArguments?, h line hline]
  rfl

/-- A document of records that were scanned, from whatever texts and by whatever scanners, holds nothing for any
scanner. -/
theorem scan_text_of_scanned (h : ∀ r ∈ Document.scenarios scopes,
    ∃ (s : Scanner) (source label : Text), r ∈ (s.scan source label).scenarios) (s : Scanner) (label : Text) :
    s.scan (Document.text scopes) label = ⟨[], []⟩ := by
  apply scan_of_silent
  apply isSilent_of_unmarked
  apply Document.unmarked_text
  intro r hr
  obtain ⟨s, source, label, hscan⟩ := h r hr
  exact oneLine_of_mem_scan hscan

/-- Names, states and reasons that would be markers on lines of their own. -/
theorem scan_text_of_scanned_marked :
    let source : Text := "// +docgenerator:pod:scenario=\"// +docgenerator:pod:scenario=a\"," ++
      "successStates=\"// +docgenerator:pod\",failedStates=//+docgenerator:pod,failureReason=// +docgenerator:pod:a"
    let found := standard.scan source "a.go"
    found.scenarios ≠ [] ∧
      (∀ r ∈ Document.scenarios [⟨"a", found.scenarios⟩, ⟨"b", found.scenarios⟩],
        ∃ (s : Scanner) (source label : Text), r ∈ (s.scan source label).scenarios) ∧
      standard.scan (Document.text [⟨"a", found.scenarios⟩, ⟨"b", found.scenarios⟩]) "document" = ⟨[], []⟩ := by
  intro source found
  have hfound : found.scenarios ≠ [] := by decide +kernel
  have hscanned : ∀ r ∈ Document.scenarios [⟨"a", found.scenarios⟩, ⟨"b", found.scenarios⟩],
      ∃ (s : Scanner) (source label : Text), r ∈ (s.scan source label).scenarios := by
    intro r hr
    simp only [Document.scenarios, List.flatMap_cons, List.flatMap_nil, List.append_nil, List.mem_append, or_self] at hr
    exact ⟨standard, source, "a.go", hr⟩
  exact ⟨hfound, hscanned, scan_text_of_scanned hscanned standard "document"⟩

end Scanner

end ScenarioDocs
