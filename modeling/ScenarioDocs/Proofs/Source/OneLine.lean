import ScenarioDocs.Document.Shown
import ScenarioDocs.Proofs.Marker.Reading
import ScenarioDocs.Proofs.Outcome
import ScenarioDocs.Proofs.Schema.Decoding
import ScenarioDocs.Proofs.Schema.Registration
import ScenarioDocs.Proofs.Source.Markers

/-!
# Records of one line

Whatever the registry holds, the texts of a record are made of characters of
its marker's line, so none of them has a line break.
-/

namespace ScenarioDocs

open Text

variable {line body arguments schema key t u : Text} {a : Decoded}

theorem isPrefixOf?_subset {word : Text} (h : List.isPrefixOf? word u = some t) : t ⊆ u := by
  rw [List.isPrefixOf?_eq_some_iff_append_eq] at h
  rw [← h]
  exact List.subset_append_right word t

theorem markerBody?_subset (h : markerBody? line = some body) : body ⊆ line := by
  unfold markerBody? at h
  simp only [Option.bind_eq_bind, Option.bind_eq_some_iff, Option.pure_def, Option.some.injEq] at h
  obtain ⟨comment, hslash, rest, hplus, rfl⟩ := h
  have hstart (s : Text) : trimStart s ⊆ s := (List.dropWhile_sublist isBlank).subset
  calc trimEnd rest ⊆ rest := (trimEnd_sublist rest).subset
    _ ⊆ trimStart comment := isPrefixOf?_subset hplus
    _ ⊆ comment := hstart comment
    _ ⊆ trimStart line := isPrefixOf?_subset hslash
    _ ⊆ line := hstart line

/-! ## Arguments -/

namespace Registry

theorem resolve?_subset {r : Registry} {m : Resolved} (h : r.resolve? body = some m) : m.arguments ⊆ body := by
  rcases (resolve?_eq_some_iff.1 h).arguments with ⟨-, ha⟩ | hbody
  · rw [ha]
    exact List.nil_subset body
  · rw [hbody]
    exact List.Subset.trans (List.subset_cons_self _ _) (List.subset_append_right _ _)

end Registry

theorem Scanner.podArguments?_subset {s : Scanner} (h : s.podArguments? line = some arguments) :
    arguments ⊆ line := by
  unfold podArguments? at h
  simp only [Option.bind_eq_bind, Option.bind_eq_some_iff, Option.ite_none_right_eq_some,
    Option.some.injEq] at h
  obtain ⟨body, hb, c, hc, -, rfl⟩ := h
  exact List.Subset.trans (Registry.resolve?_subset hc) (markerBody?_subset hb)

/-! ## Records -/

theorem Shape.fit?_texts {kind : FieldKind} {v w : Marker.Value} (h : fit? kind v = some w) :
    w.texts = v.texts := by
  unfold fit? at h
  split at h <;> cases h <;> rfl

theorem Shape.annotate_texts_subset {shape : Shape} {v : Marker.Value}
    (h : shape.annotate schema arguments = .ok a) (hv : a.value? key = some v) :
    ∀ t ∈ v.texts, t ⊆ arguments := by
  unfold annotate at h
  split at h
  · cases h
  · rename_i args hparse
    obtain ⟨fields, htake, rfl⟩ := map_eq_ok_iff.1 h
    have hl := lookup_take htake key
    unfold Decoded.value? at hv
    rw [hv, List.lookup_nil, Option.or_none, eq_comm, Option.bind_eq_some_iff] at hl
    obtain ⟨arg, hfind, hkept⟩ := hl
    obtain ⟨field, -, hfit⟩ := Option.bind_eq_some_iff.1 hkept
    rw [fit?_texts hfit]
    exact (Marker.parse_sound hparse).texts_subset arg (List.mem_of_find?_eq_some hfind)

section
variable (h : ∀ {key v}, a.value? key = some v → ∀ t ∈ v.texts, t ⊆ u)
include h

theorem Decoded.text?_subset (name : Text) : (a.text? name).getD [] ⊆ u := by
  unfold text?
  split
  · rename_i t hv
    exact h hv t (by simp [Marker.Value.texts])
  · exact List.nil_subset u

theorem Decoded.list_subset (name : Text) : ∀ t ∈ a.list name, t ⊆ u := by
  unfold list
  split
  · rename_i items hv
    exact h hv
  · rename_i t hv
    exact h hv
  · simp

theorem Scenario.ofDecoded_texts_subset : ∀ t ∈ (ofDecoded a).texts, t ⊆ u := by
  intro t ht
  simp only [texts, ofDecoded, List.mem_cons, List.mem_append] at ht
  rcases ht with rfl | rfl | ht | ht
  · exact Decoded.text?_subset h _
  · exact Decoded.text?_subset h _
  · exact Decoded.list_subset h _ t ht
  · exact Decoded.list_subset h _ t ht

end

namespace Scanner

variable {s : Scanner} {r : Scenario}

theorem readLine_texts_subset {label : Text} {number : Nat} (h : s.readLine label number line = some (.ok r)) :
    ∀ t ∈ r.texts, t ⊆ line := by
  obtain ⟨arguments, harg, h⟩ := Option.map_eq_some_iff.1 h
  split at h
  · rename_i a ha
    cases h
    have htexts := Scenario.ofDecoded_texts_subset fun hv => Shape.annotate_texts_subset ha hv
    exact fun t ht => List.Subset.trans (htexts t ht) (podArguments?_subset harg)
  · cases h

theorem mem_scan {text label : Text} (h : r ∈ (s.scan text label).scenarios) :
    ∃ line ∈ lines text, ∃ number, s.readLine label number line = some (.ok r) := by
  obtain ⟨o, ho, hr⟩ := List.mem_filterMap.1 h
  obtain ⟨⟨line, number⟩, hl, hread⟩ := List.mem_filterMap.1 ho
  split at hr
  · cases hr
    exact ⟨line, List.fst_mem_of_mem_zipIdx hl, number, hread⟩
  · cases hr

theorem oneLine_of_mem_scan {text label : Text} (h : r ∈ (s.scan text label).scenarios) : r.OneLine := by
  obtain ⟨line, hl, number, hread⟩ := mem_scan h
  exact fun t ht hm => newline_not_mem_lines hl (readLine_texts_subset hread t ht hm)

end Scanner

end ScenarioDocs
