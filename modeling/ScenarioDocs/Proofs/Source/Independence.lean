import ScenarioDocs.Proofs.Source.Locations
import ScenarioDocs.Proofs.Source.RoundTrip
import ScenarioDocs.Proofs.Text.Utf8

/-!
# Lines are read apart from each other

What a file holds is what its lines hold, put one after the other. The lines
after a line feed only move down by the number of lines before it, whatever
those lines are: a marker that cannot be decoded, or bytes that are not UTF-8,
stay the business of the line they stand on.
-/

namespace ScenarioDocs

open Text

variable {label : Text} {skip : Skip}

def Skip.down (label : Text) (k : Nat) (skip : Skip) : Skip :=
  { skip with location := label ++ ":" ++ decimal (skip.line label + k) }

theorem Skip.down_at (label : Text) (n k : Nat) (reason : Text) :
    Skip.down label k ⟨label ++ ":" ++ decimal n, reason⟩ = ⟨label ++ ":" ++ decimal (n + k), reason⟩ := by
  rw [Skip.down, Skip.line_of_location rfl]

theorem Skip.down_down (label : Text) (j k : Nat) (skip : Skip) :
    (skip.down label j).down label k = skip.down label (j + k) :=
  calc (skip.down label j).down label k = ⟨label ++ ":" ++ decimal (skip.line label + j + k), skip.reason⟩ :=
      Skip.down_at label _ k skip.reason
    _ = skip.down label (j + k) := by rw [Nat.add_assoc, Skip.down]

/-! ## Two findings in one file -/

namespace Found

/-- What is found in a file that goes on, after `k` lines, with a file that holds `below`. -/
def above (label : Text) (k : Nat) (f below : Found) : Found :=
  ⟨f.scenarios ++ below.scenarios, f.skipped ++ below.skipped.map (Skip.down label k)⟩

end Found

namespace Scanner

variable (s : Scanner)

def scanBytes (bs : Bytes) (label : Text) : Found := s.scan (Utf8.decodeLossy bs) label

theorem readLine_add (label : Text) (n k : Nat) (line : Text) :
    s.readLine label (n + k) line = (s.readLine label n line).map (Except.mapError (Skip.down label k)) := by
  rw [readLine_eq, readLine_eq, Option.map_map]
  congr 1
  funext o
  rcases o with reason | r
  · exact congrArg Except.error (Skip.down_at label n k reason).symm
  · rfl

theorem readLines_add (label : Text) (start k : Nat) (ls : List Text) :
    s.readLines label (start + k) ls = (s.readLines label start ls).map (Except.mapError (Skip.down label k)) := by
  induction ls generalizing start with
  | nil => rfl
  | cons line ls ih =>
    rw [readLines_cons, readLines_cons, List.map_append, readLine_add, ← ih, Nat.add_right_comm]
    cases s.readLine label start line <;> rfl

theorem readLines_append (label : Text) (start : Nat) (ls ls' : List Text) :
    s.readLines label start (ls ++ ls') =
      s.readLines label start ls ++ s.readLines label (start + ls.length) ls' := by
  rw [readLines, List.zipIdx_append, List.filterMap_append]
  rfl

/-- A line that is empty, or ends in a carriage return, is no exception. -/
theorem readLines_endLines (label : Text) (start : Nat) (parts : List Text) :
    s.readLines label start (endLines parts) = s.readLines label start parts := by
  fun_induction endLines parts generalizing start with
  | case1 => rfl
  | case2 last h =>
    rw [List.isEmpty_iff.1 h, readLines_cons, readLine, podArguments?]
    rfl
  | case3 last h => rfl
  | case4 line rest hne ih => rw [readLines_cons, readLines_cons, readLine_dropReturn, ih]

theorem readLines_lines (label : Text) (start : Nat) (t : Text) :
    s.readLines label start (lines t) = s.readLines label start (pieces '\n' t) :=
  s.readLines_endLines label start (pieces '\n' t)

theorem filterMap_down (label : Text) (k : Nat) (os : List (Except Skip Scenario)) :
    (os.map (Except.mapError (Skip.down label k))).filterMap scenario? = os.filterMap scenario? ∧
      (os.map (Except.mapError (Skip.down label k))).filterMap skip? =
        (os.filterMap skip?).map (Skip.down label k) := by
  induction os with
  | nil => exact ⟨rfl, rfl⟩
  | cons o os ih =>
    cases o with
    | ok r => exact ⟨congrArg (r :: ·) ih.1, ih.2⟩
    | error e => exact ⟨ih.1, congrArg (Skip.down label k e :: ·) ih.2⟩

/-! ## Texts -/

theorem scan_append (t u label : Text) :
    s.scan (t ++ '\n' :: u) label = (s.scan t label).above label (1 + t.count '\n') (s.scan u label) := by
  have hbelow := filterMap_down label (1 + t.count '\n') (s.readLines label 1 (pieces '\n' u))
  simp only [scan_eq, readLines_lines, pieces_append_cons, readLines_append, length_pieces, readLines_add,
    Nat.add_comm (t.count '\n') 1, List.filterMap_append, hbelow, Found.above]

theorem length_scan_le (t label : Text) (h : '\n' ∉ t) :
    (s.scan t label).scenarios.length + (s.scan t label).skipped.length ≤ 1 := by
  rw [length_scan, countMarkers]
  calc (lines t).countP (fun line => (s.podArguments? line).isSome) ≤ (lines t).length := List.countP_le_length
    _ ≤ 1 := by
      rw [lines, pieces_of_not_mem h, endLines]
      split <;> simp

theorem location_of_mem_skipped {t : Text} (h : skip ∈ (s.scan t label).skipped) :
    skip.location = label ++ ":" ++ decimal (skip.line label) := by
  obtain ⟨n, hn⟩ := s.exists_location_of_scan h
  rw [Skip.line_of_location hn, hn]

/-! ## Bytes -/

theorem scanBytes_append (before after : Bytes) (label : Text) :
    s.scanBytes (before ++ 0x0A :: after) label =
      (s.scanBytes before label).above label (1 + before.count 0x0A) (s.scanBytes after label) := by
  have hdecode : Utf8.decodeLossy (before ++ 0x0A :: after) =
      Utf8.decodeLossy before ++ '\n' :: Utf8.decodeLossy after := Utf8.decodeLossy_append_ascii (by decide) _ _
  rw [scanBytes, hdecode, scan_append, Utf8.count_decodeLossy]
  rfl

theorem length_scanBytes_le {line : Bytes} (h : 0x0A ∉ line) (label : Text) :
    (s.scanBytes line label).scenarios.length + (s.scanBytes line label).skipped.length ≤ 1 := by
  refine s.length_scan_le _ label fun hmem => h ?_
  rwa [← List.count_pos_iff, Utf8.count_decodeLossy, List.count_pos_iff] at hmem

theorem scanBytes_between (before line after : Bytes) (h : 0x0A ∉ line) (label : Text) :
    s.scanBytes (before ++ 0x0A :: (line ++ 0x0A :: after)) label =
      ⟨(s.scanBytes before label).scenarios ++ (s.scanBytes line label).scenarios ++
          (s.scanBytes after label).scenarios,
        (s.scanBytes before label).skipped ++
          (s.scanBytes line label).skipped.map (Skip.down label (1 + before.count 0x0A)) ++
          (s.scanBytes after label).skipped.map (Skip.down label (2 + before.count 0x0A))⟩ := by
  have hdown : Skip.down label (1 + before.count 0x0A) ∘ Skip.down label 1 =
      Skip.down label (2 + before.count 0x0A) := by
    funext skip
    rw [Function.comp_apply, Skip.down_down, ← Nat.add_assoc]
  rw [scanBytes_append, scanBytes_append, List.count_eq_zero.2 h]
  simp only [Found.above, List.map_append, List.map_map, hdown, List.append_assoc]

/-- A line feed cuts a file in two: what is found above and below it does not depend on the other
part, but for the number of the lines below. So every line stands for itself, with one record, one
skip or neither, whatever the bytes of the others. -/
theorem scanBytes_line_by_line (s : Scanner) (label : Text) :
    (∀ before after : Bytes, s.scanBytes (before ++ 0x0A :: after) label =
      ⟨(s.scanBytes before label).scenarios ++ (s.scanBytes after label).scenarios,
        (s.scanBytes before label).skipped ++
          (s.scanBytes after label).skipped.map (Skip.down label (1 + before.count 0x0A))⟩) ∧
    (∀ line : Bytes, 0x0A ∉ line →
      (s.scanBytes line label).scenarios.length + (s.scanBytes line label).skipped.length ≤ 1) ∧
    (∀ before line after : Bytes, 0x0A ∉ line →
      s.scanBytes (before ++ 0x0A :: (line ++ 0x0A :: after)) label =
        ⟨(s.scanBytes before label).scenarios ++ (s.scanBytes line label).scenarios ++
            (s.scanBytes after label).scenarios,
          (s.scanBytes before label).skipped ++
            (s.scanBytes line label).skipped.map (Skip.down label (1 + before.count 0x0A)) ++
            (s.scanBytes after label).skipped.map (Skip.down label (2 + before.count 0x0A))⟩) ∧
    ∀ bs : Bytes,
      (s.scanBytes bs label).scenarios.length + (s.scanBytes bs label).skipped.length =
        s.countMarkers (Utf8.decodeLossy bs) ∧
      (∀ skip ∈ (s.scanBytes bs label).skipped, skip.location = label ++ ":" ++ decimal (skip.line label)) ∧
      ((s.scanBytes bs label).skipped.map (Skip.line label)).Pairwise (· < ·) :=
  ⟨fun before after => s.scanBytes_append before after label,
    fun _ h => s.length_scanBytes_le h label,
    fun before line after h => s.scanBytes_between before line after h label,
    fun bs => ⟨s.length_scan (Utf8.decodeLossy bs) label, fun _ h => s.location_of_mem_skipped h,
      s.pairwise_skipped (Utf8.decodeLossy bs) label⟩⟩

/-- The sequence that is cut short before the line feed, and the marker that cannot be decoded, do
not reach the records around them. -/
theorem scanBytes_line_by_line_malformed :
    let above : Bytes := Utf8.encode "// +docgenerator:pod:scenario=a" ++ [0x0A, 0xE2, 0x82]
    let line : Bytes := Utf8.encode "// +docgenerator:pod:image=nginx\r"
    let below : Bytes := Utf8.encode "// +docgenerator:pod:scenario=b"
    0x0A ∉ line ∧
      let found := standard.scanBytes (above ++ 0x0A :: (line ++ 0x0A :: below)) "pod.go"
      found.scenarios = [.ofSuccess "a" [], .ofSuccess "b" []] ∧ found.skipped.map (·.location) = ["pod.go:3"] := by
  intro above line below
  have hline : 0x0A ∉ line := by decide +kernel
  have hfound := (scanBytes_line_by_line standard "pod.go").2.2.1 above line below hline
  refine ⟨hline, ?_⟩
  simp only [hfound]
  decide +kernel

end Scanner

end ScenarioDocs
