import ScenarioDocs.Document.Shown
import ScenarioDocs.Proofs.Marker.Reading
import ScenarioDocs.Proofs.Schema.Decoding
import ScenarioDocs.Proofs.Source.Markers
import ScenarioDocs.Proofs.Source.Spelling

/-!
# Spelling a record and scanning it

Scanning undoes spelling: a line that stands for a record is read as that
record, whatever form its arguments have.
-/

namespace ScenarioDocs

open Text Marker

variable {r : Scenario} {key : Text} {v v' : Value} {fields : FieldValues}
  {args args' : List Argument}

/-! ## From fields to the record -/

theorem fit?_text {t : Text} (h : (Value.text t).ReadAs v) : Shape.fit? .text v = some (.text t) := by
  cases h
  rfl

theorem fit?_list {l : List Text} (h : (Value.list l).ReadAs v) : Shape.fit? .list v = some (.list l) := by
  cases h <;> rfl

namespace Scenario

/-- A field of the record is kept as the value that it was spelled for. -/
theorem Gives.kept? {arg : Argument} (h : r.Gives arg.key v) (hread : v.ReadAs arg.value) :
    shape.kept? arg = some v := by
  obtain ⟨key, value⟩ := arg
  cases h with
  | name => exact fit?_text hread
  | successStates => exact fit?_list hread
  | failedStates => exact fit?_list hread
  | failureReason => exact fit?_text hread
  | initContainer => exact fit?_text hread
  | volume => exact fit?_text hread

theorem Gives.isKey (h : r.Gives key v) : IsKey key := by
  cases h <;> exact ⟨by decide, by decide, by decide, by decide⟩

theorem Gives.key_oneLine (h : r.Gives key v) : '\n' ∉ key := by
  cases h <;> decide

theorem Gives.value_eq (h : r.Gives key v) :
    (key = "scenario".toList → v = .text r.name) ∧
    (key = "successStates".toList → v = .list r.successStates) ∧
    (key = "failedStates".toList → v = .list r.failedStates) ∧
    (key = "failureReason".toList → v = .text r.failureReason) ∧
    (key = "hasInitContainer".toList → ∃ t, v = .text t ∧ Flag.ofText t = r.initContainer) ∧
    (key = "hasVolume".toList → ∃ t, v = .text t ∧ Flag.ofText t = r.volume) := by
  cases h <;> simp_all

theorem default_of_not_stated :
    ("scenario".toList ∉ r.stated → r.name = []) ∧
    ("successStates".toList ∉ r.stated → r.successStates = []) ∧
    ("failedStates".toList ∉ r.stated → r.failedStates = []) ∧
    ("failureReason".toList ∉ r.stated → r.failureReason = []) ∧
    ("hasInitContainer".toList ∉ r.stated → r.initContainer = .unset) ∧
    ("hasVolume".toList ∉ r.stated → r.volume = .unset) := by
  simp [stated]

end Scenario

theorem not_stated (hstated : ∀ key ∈ r.stated, (fields.lookup key).isSome)
    (hl : fields.lookup key = none) : key ∉ r.stated := by
  intro hs
  have h := hstated key hs
  rw [hl] at h
  cases h

section
variable (hgives : ∀ key v, fields.lookup key = some v → r.Gives key v)
  (hstated : ∀ key ∈ r.stated, (fields.lookup key).isSome)
include hgives hstated

theorem text?_getD {schema t : Text} (hv : ∀ v, r.Gives key v → v = .text t)
    (hd : key ∉ r.stated → t = []) : ((⟨schema, fields⟩ : Decoded).text? key).getD [] = t := by
  unfold Decoded.text? Decoded.value?
  cases hl : fields.lookup key with
  | some v =>
    rw [hv v (hgives key v hl)]
    rfl
  | none => exact (hd (not_stated hstated hl)).symm

theorem list_eq {schema : Text} {l : List Text} (hv : ∀ v, r.Gives key v → v = .list l)
    (hd : key ∉ r.stated → l = []) : (⟨schema, fields⟩ : Decoded).list key = l := by
  unfold Decoded.list Decoded.value?
  cases hl : fields.lookup key with
  | some v => rw [hv v (hgives key v hl)]
  | none => exact (hd (not_stated hstated hl)).symm

theorem flag_eq {schema : Text} {f : Flag} (hv : ∀ v, r.Gives key v → ∃ t, v = .text t ∧ Flag.ofText t = f)
    (hd : key ∉ r.stated → f = .unset) :
    (((⟨schema, fields⟩ : Decoded).text? key).map Flag.ofText).getD .unset = f := by
  unfold Decoded.text? Decoded.value?
  cases hl : fields.lookup key with
  | some v =>
    obtain ⟨t, rfl, ht⟩ := hv v (hgives key v hl)
    exact ht
  | none => exact (hd (not_stated hstated hl)).symm

theorem Scenario.ofDecoded_eq {schema : Text} : Scenario.ofDecoded ⟨schema, fields⟩ = r := by
  obtain ⟨name, success, failed, reason, init, volume⟩ := Scenario.default_of_not_stated (r := r)
  rw [Scenario.ofDecoded,
    text?_getD hgives hstated (fun v h => h.value_eq.1 rfl) name,
    list_eq hgives hstated (fun v h => h.value_eq.2.1 rfl) success,
    list_eq hgives hstated (fun v h => h.value_eq.2.2.1 rfl) failed,
    text?_getD hgives hstated (fun v h => h.value_eq.2.2.2.1 rfl) reason,
    flag_eq hgives hstated (fun v h => h.value_eq.2.2.2.2.1 rfl) init,
    flag_eq hgives hstated (fun v h => h.value_eq.2.2.2.2.2 rfl) volume]

end

/-! ## From arguments to fields -/

theorem keys_eq (hread : List.Forall₂ Argument.ReadAs args args') :
    args'.map (·.key) = args.map (·.key) := by
  induction hread with
  | nil => rfl
  | cons h _ ih => rw [List.map_cons, List.map_cons, ih, h.1]

theorem forall_kept (hr : ∀ a ∈ args, r.Gives a.key a.value)
    (hread : List.Forall₂ Argument.ReadAs args args') :
    ∀ a ∈ args', ∃ v, Scenario.shape.kept? a = some v ∧ r.Gives a.key v := by
  induction hread with
  | nil => simp
  | @cons a a' _ _ h _ ih =>
    obtain ⟨ha, has⟩ := List.forall_mem_cons.1 hr
    obtain ⟨hkey, hvalue⟩ := h
    rw [← hkey] at ha
    exact List.forall_mem_cons.2 ⟨⟨a.value, ha.kept? hvalue, ha⟩, ih has⟩

theorem annotate_givenBy (schema : Text) {arguments : Text} (h : r.GivenBy args)
    (hread : List.Forall₂ Argument.ReadAs args args') (hparse : parse arguments = .ok args') :
    ∃ a, Scenario.shape.annotate schema arguments = .ok a ∧ Scenario.ofDecoded a = r := by
  have hkept := forall_kept h.fitting hread
  have hkeys := keys_eq hread
  have hfit : ∀ a ∈ args', (Scenario.shape.kept? a).isSome := by
    intro a ha
    obtain ⟨v, hv, -⟩ := hkept a ha
    rw [hv, Option.isSome_some]
  have htake : ∃ fields, Scenario.shape.take schema [] args' = .ok fields :=
    Shape.exists_take_eq_ok (hkeys ▸ h.distinct) (by simp) hfit
  obtain ⟨fields, hf⟩ := htake
  have hlookup : ∀ key, fields.lookup key = (args'.find? (·.key = key)).bind Scenario.shape.kept? := by
    intro key
    rw [Shape.lookup_take hf, List.lookup_nil, Option.or_none]
  refine ⟨⟨schema, fields⟩, by simp [Shape.annotate, hparse, hf, Except.map], ?_⟩
  refine Scenario.ofDecoded_eq (fun key v hl => ?_) fun key hs => ?_
  · rw [hlookup] at hl
    obtain ⟨a, ha, hv⟩ := Option.bind_eq_some_iff.1 hl
    obtain ⟨v', hv', hgives⟩ := hkept a (List.mem_of_find?_eq_some ha)
    have hkey : a.key = key := by simpa using List.find?_some ha
    rw [hv] at hv'
    cases hv'
    rwa [hkey] at hgives
  -- a field that is not at its default has been stated
  · have hm := h.complete key hs
    rw [← hkeys] at hm
    obtain ⟨a, ha, hkey⟩ := List.mem_map.1 hm
    have hfound : (args'.find? (·.key = key)).isSome := List.find?_isSome.2 ⟨a, ha, by simp [hkey]⟩
    obtain ⟨a', ha'⟩ := Option.isSome_iff_exists.1 hfound
    rw [hlookup, ha', Option.bind_some]
    exact hfit a' (List.mem_of_find?_eq_some ha')

/-! ## From lines to records -/

theorem Scenario.Line.readLine {line : Text} (h : r.Line line) (label : Text) (number : Nat) :
    Scanner.standard.readLine label number line = some (.ok r) := by
  have hread : ∀ {arguments : Text} {args args' : List Argument}, r.GivenBy args →
      List.Forall₂ Argument.ReadAs args args' → parse arguments = .ok args' →
      Scanner.standard.podArguments? line = some arguments →
      Scanner.standard.readLine label number line = some (.ok r) := by
    intro arguments args args' hgiven hread hparse hline
    obtain ⟨a, ha, rfl⟩ := annotate_givenBy Scenario.schemaName hgiven hread hparse
    simp only [Scanner.readLine, hline, Option.map_some]
    rw [show Scanner.standard.shape = Scenario.shape from rfl, ha]
  cases h with
  | bare ha hb hc hgiven =>
    exact hread hgiven .nil rfl (Scanner.podArguments?_name ha.1 hb.1 hc.1)
  | @arguments a b c s args ha hb hc hgiven hs =>
    obtain ⟨args', hargs, hreads⟩ := hs.map fun hm h => h.argumentText (hgiven.fitting _ hm).isKey
    have htext : ArgumentsText (trimEnd (s ++ c)) args' := by
      rw [trimEnd_append hc.1]
      exact .arguments (hargs.trimmedEnd (by decide) fun h => h.trimmedEnd)
    refine hread hgiven hreads (parse_complete htext) ?_
    rw [← Scanner.podArguments?_colon ha.1 hb.1]
    simp

theorem readLine_dropReturn (s : Scanner) (label : Text) (number : Nat) (line : Text) :
    s.readLine label number (dropReturn line) = s.readLine label number line := by
  rw [Scanner.readLine, Scanner.podArguments?_dropReturn, Scanner.readLine]

theorem Scenario.Line.ne_nil {line : Text} (h : r.Line line) : line ≠ [] := by
  cases h <;> simp

theorem Scenario.Gives.oneLine (hr : r.OneLine) (h : r.Gives key v) : ∀ t ∈ v.texts, '\n' ∉ t := by
  intro t ht
  cases h with
  | initContainer hn => exact List.mem_singleton.1 ht ▸ hn
  | volume hn => exact List.mem_singleton.1 ht ▸ hn
  | _ => exact hr t (by simp_all [texts, Value.texts])

theorem Scenario.Line.oneLine {line : Text} (hr : r.OneLine) (h : r.Line line) : '\n' ∉ line := by
  have hname : '\n' ∉ Scenario.schemaName := by decide
  cases h with
  | bare ha hb hc => simp [ha.2, hb.2, hc.2, hname]
  | @arguments a b c s args ha hb hc hgiven hs =>
    have hs : '\n' ∉ s := hs.not_mem (by decide) fun hm h => by
      have hg := hgiven.fitting _ hm
      exact h.oneLine hg.key_oneLine (hg.oneLine hr)
    simp [ha.2, hb.2, hc.2, hname, hs]

/-! ## From texts to records -/

variable {rs : List Scenario} {ls : List Text}

theorem readLines_spelled (label : Text) (h : List.Forall₂ Scenario.Line rs ls) (start : Nat) :
    Scanner.standard.readLines label start (endLines ls) = rs.map .ok := by
  induction h generalizing start with
  | nil => rfl
  | @cons r line rs ls hl hrest ih =>
    cases ls with
    | nil =>
      cases hrest
      simp [endLines, hl.ne_nil, Scanner.readLines, hl.readLine]
    | cons line' ls =>
      have hi := ih (start + 1)
      simp only [Scanner.readLines] at hi
      simp only [endLines, Scanner.readLines, List.zipIdx_cons, List.filterMap_cons,
        readLine_dropReturn, hl.readLine, hi, List.map_cons]

theorem spelled_oneLine (hr : ∀ r ∈ rs, r.OneLine) (h : List.Forall₂ Scenario.Line rs ls) :
    ∀ line ∈ ls, '\n' ∉ line := by
  induction h with
  | nil => simp
  | cons hl _ ih =>
    obtain ⟨hr, hrs⟩ := List.forall_mem_cons.1 hr
    exact List.forall_mem_cons.2 ⟨hl.oneLine hr, ih hrs⟩

/-- A text whose lines stand for records, however they are spelled, is read as these records. -/
theorem scan_join_spelled (label : Text) (hr : ∀ r ∈ rs, r.OneLine)
    (h : List.Forall₂ Scenario.Line rs ls) :
    Scanner.standard.scan (join ['\n'] ls) label = ⟨rs, []⟩ := by
  have hlines : lines (join ['\n'] ls) = endLines ls := by
    cases ls with
    | nil => rfl
    | cons line ls => rw [lines, pieces_join (by simp) (spelled_oneLine hr h)]
  rw [Scanner.scan, hlines, readLines_spelled label h]
  simp [List.filterMap_map]

theorem scan_join_spelled_two :
    let r : Scenario := ⟨"a \"b\"", ["Pending", "Running"], ["Ready"], [], .unset, .off⟩
    let line : Text := "\t// +docgenerator:pod: hasVolume = no,successStates= Pending ;\"Running\"," ++
      "failedStates=Ready,scenario=\"a \\\"b\\\"\" "
    let rs : List Scenario := [r, .blank]
    let ls : List Text := [line, "//+docgenerator:pod"]
    (∀ r ∈ rs, r.OneLine) ∧ List.Forall₂ Scenario.Line rs ls ∧
      Scanner.standard.scan (join ['\n'] ls) "pod.go" = ⟨rs, []⟩ := by
  intro r line rs ls
  have hpad : ∀ t : Text, Padded t t := fun t => by
    simpa using Padded.blanks (t := t) (a := []) (b := []) (by decide) (by decide)
  have hvolume : ArgumentSpelling " hasVolume = no" ⟨"hasVolume", .text "no"⟩ :=
    .pair (k := " hasVolume ") (v := " no") (.blanks (a := " ") (b := " ") (by decide) (by decide))
      (.text (.bare (by decide) (by simp) (by decide)) (by decide))
      (.blanks (a := " ") (b := []) (by decide) (by decide))
  have hpending : ItemSpelling [',', ';'] " Pending " "Pending" :=
    ⟨_, .bare (by decide) (by simp) (by decide), .blanks (a := " ") (b := " ") (by decide) (by decide)⟩
  have hsuccess : ArgumentSpelling "successStates= Pending ;\"Running\""
      ⟨"successStates", .list ["Pending", "Running"]⟩ :=
    .pair (k := "successStates") (hpad _)
      (.several (by decide) (by decide) (.more hpending (.one ⟨_, .quoted, hpad _⟩))) (hpad _)
  have hfailed : ArgumentSpelling "failedStates=Ready" ⟨"failedStates", .list ["Ready"]⟩ :=
    .pair (k := "failedStates") (hpad _)
      (.alone (.bare (by decide) (by simp) (by decide)) (by decide)) (hpad _)
  have hname : ArgumentSpelling "scenario=\"a \\\"b\\\"\"" ⟨"scenario", .text "a \"b\""⟩ :=
    .pair (k := "scenario") (hpad _) (.text .quoted (by decide)) (hpad _)
  have hgiven : r.GivenBy [⟨"hasVolume", .text "no"⟩, ⟨"successStates", .list ["Pending", "Running"]⟩,
      ⟨"failedStates", .list ["Ready"]⟩, ⟨"scenario", .text "a \"b\""⟩] := by
    refine ⟨by simp, ?_, by simp [Scenario.stated, r]⟩
    simp only [List.forall_mem_cons]
    exact ⟨.volume (by decide) rfl, .successStates, .failedStates, .name, by simp⟩
  have hline : r.Line line :=
    .arguments (a := "\t") (b := " ") (c := " ") (by decide) (by decide) (by decide) hgiven
      (.more hvolume (.more hsuccess (.more hfailed (.one hname))))
  have hblank : Scenario.blank.Line "//+docgenerator:pod" :=
    .bare (a := []) (b := []) (c := []) (by decide) (by decide) (by decide)
      ⟨by simp, by simp, by decide⟩
  have hr : ∀ r ∈ rs, r.OneLine := by decide
  have hlines : List.Forall₂ Scenario.Line rs ls := .cons hline (.cons hblank .nil)
  exact ⟨hr, hlines, scan_join_spelled "pod.go" hr hlines⟩

end ScenarioDocs
