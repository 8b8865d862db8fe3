import ScenarioDocs.Proofs.Source.Independence
import ScenarioDocs.Source.Spelling

/-!
# Spacing does not count

A text may get blanks around its lines and after the slashes that open them,
and a carriage return before every line feed: each line keeps its marker, and
so the scan finds the same.
-/

namespace ScenarioDocs

open Text Marker

/-! ## Putting blanks in -/

namespace Text

/-- Puts a carriage return before every line feed, also where one is already. -/
def withReturns (t : Text) : Text := t.flatMap fun c => if c = '\n' then ['\r', '\n'] else [c]

structure IsLine (above line below : Text) : Prop where
  oneLine : '\n' ∉ line
  above : ∀ c ∈ above.getLast?, c = '\n'
  below : ∀ c ∈ below.head?, c = '\n'

instance (above line below : Text) : Decidable (IsLine above line below) :=
  have hends (o : Option Char) : o.all (· = '\n') = true ↔ ∀ c ∈ o, c = '\n' := by
    cases o <;> simp
  decidable_of_iff ('\n' ∉ line ∧ above.getLast?.all (· = '\n') = true ∧ below.head?.all (· = '\n') = true)
    ⟨fun h => ⟨h.1, (hends _).1 h.2.1, (hends _).1 h.2.2⟩,
      fun h => ⟨h.oneLine, (hends _).2 h.above, (hends _).2 h.below⟩⟩

/-- The places of a line, by what is before and after them, at which blanks do not count. -/
inductive Loose : Text → Text → Prop
  | start {a rest : Text} : AllBlank a → Loose a rest
  | slashes {a b rest : Text} : AllBlank a → AllBlank b → Loose (a ++ "//" ++ b) rest
  | finish {rest b : Text} : AllBlank b → Loose rest b

/-- What a text can become by other line ends and more blanks at such places. -/
inductive Respaced (t : Text) : Text → Prop
  | same : Respaced t t
  | returns {u : Text} : Respaced t u → Respaced t (withReturns u)
  | blanks {above before blanks after below : Text} :
      Respaced t (above ++ (before ++ after) ++ below) → IsLine above (before ++ after) below →
      Loose before after → LineBlank blanks → Respaced t (above ++ (before ++ blanks ++ after) ++ below)

end Text

variable {t u v line line' above below before blanks after : Text} {parts : List Text}

theorem Text.Respaced.insert (h : Respaced t u) (above before blanks after below : Text)
    (hu : u = above ++ (before ++ after) ++ below)
    (hline : IsLine above (before ++ after) below) (hloose : Loose before after) (hblank : LineBlank blanks)
    (hv : v = above ++ (before ++ blanks ++ after) ++ below) : Respaced t v := by
  rw [hu] at h
  rw [hv]
  exact h.blanks hline hloose hblank

/-! ## The marker of a line -/

theorem markerBody?_trimStart (line : Text) : markerBody? (trimStart line) = markerBody? line := by
  rw [markerBody?, trimStart_trimStart, markerBody?]

theorem markerBody?_blank_append (hb : AllBlank blanks) (line : Text) :
    markerBody? (blanks ++ line) = markerBody? line := by
  rw [← markerBody?_trimStart, trimStart_append hb, markerBody?_trimStart]

theorem markerBody?_slashes (hb : AllBlank blanks) (rest : Text) :
    markerBody? ("//" ++ (blanks ++ rest)) = markerBody? ("//" ++ rest) := by
  have hslash (r : Text) : trimStart ("//" ++ r) = "//".toList ++ r := trimStart_cons (by decide)
  simp only [markerBody?, hslash, isPrefixOf?_append, Option.bind_eq_bind, Option.bind_some, trimStart_append hb]

theorem Text.Loose.keeps_marker (h : Loose before after) (hb : AllBlank blanks) :
    markerBody? (before ++ blanks ++ after) = markerBody? (before ++ after) := by
  cases h with
  | start ha =>
    rw [List.append_assoc, markerBody?_blank_append ha, markerBody?_blank_append hb, markerBody?_blank_append ha]
  | @slashes a b rest ha hb' =>
    have hcut (r : Text) : markerBody? (a ++ "//" ++ b ++ r) = markerBody? ("//" ++ r) := by
      rw [List.append_assoc, List.append_assoc, markerBody?_blank_append ha, markerBody?_slashes hb']
    rw [List.append_assoc, hcut, hcut, markerBody?_slashes hb]
  | finish ha =>
    rw [List.append_assoc, markerBody?_append_blank (allBlank_append.2 ⟨hb, ha⟩), markerBody?_append_blank ha]

/-! ## The markers of a text -/

def markerBodies (t : Text) : List (Option Text) := (pieces '\n' t).map markerBody?

theorem markerBodies_append (t u : Text) : markerBodies (t ++ '\n' :: u) = markerBodies t ++ markerBodies u := by
  rw [markerBodies, pieces_append_cons, List.map_append, markerBodies, markerBodies]

theorem markerBodies_line (h : '\n' ∉ line) : markerBodies line = [markerBody? line] := by
  rw [markerBodies, pieces_of_not_mem h, List.map_singleton]

theorem markerBodies_below (h : '\n' ∉ line) (hbelow : ∀ c ∈ below.head?, c = '\n') :
    markerBodies (line ++ below) = markerBody? line :: (markerBodies below).tail := by
  cases below with
  | nil => rw [List.append_nil, markerBodies_line h]; rfl
  | cons c below =>
    obtain rfl : c = '\n' := hbelow c rfl
    have hcut := markerBodies_append [] below
    rw [List.nil_append] at hcut
    rw [markerBodies_append, markerBodies_line h, hcut]
    rfl

/-- Exchanging a line for another one exchanges their markers. -/
theorem markerBodies_congr (h : IsLine above line below) (h' : '\n' ∉ line')
    (hbody : markerBody? line' = markerBody? line) :
    markerBodies (above ++ line' ++ below) = markerBodies (above ++ line ++ below) := by
  have hrest : markerBodies (line' ++ below) = markerBodies (line ++ below) := by
    rw [markerBodies_below h' h.below, markerBodies_below h.oneLine h.below, hbody]
  rcases above.eq_nil_or_concat with rfl | ⟨w, c, rfl⟩
  · exact hrest
  · obtain rfl : c = '\n' := h.above c (by simp)
    simp only [List.concat_eq_append, List.append_assoc, List.cons_append, List.nil_append] at hrest ⊢
    rw [markerBodies_append, markerBodies_append, hrest]

theorem withReturns_eq_join (t : Text) : withReturns t = join ['\r', '\n'] (pieces '\n' t) := by
  induction t with
  | nil => rfl
  | cons c t ih =>
    rw [withReturns, List.flatMap_cons, ← withReturns, ih, pieces]
    obtain ⟨p, ps, hp⟩ := List.exists_cons_of_ne_nil (pieces_ne_nil '\n' t)
    rw [hp]
    split
    · rfl
    · cases ps <;> rfl

theorem markerBodies_join (hne : parts ≠ []) (h : ∀ p ∈ parts, '\n' ∉ p) :
    markerBodies (join ['\r', '\n'] parts) = parts.map markerBody? := by
  induction parts with
  | nil => exact absurd rfl hne
  | cons p ps ih =>
    have hp : '\n' ∉ p := h p (by simp)
    cases ps with
    | nil => exact markerBodies_line hp
    | cons q qs =>
      have hrest : ∀ x ∈ q :: qs, '\n' ∉ x := fun x hx => h x (by simp [hx])
      have hreturn : AllBlank ['\r'] := by decide
      rw [join, List.append_cons, List.append_assoc, List.singleton_append, markerBodies_append,
        markerBodies_line (by simpa using hp), markerBody?_append_blank hreturn, ih (by simp) hrest]
      rfl

theorem markerBodies_withReturns (t : Text) : markerBodies (withReturns t) = markerBodies t := by
  rw [withReturns_eq_join, markerBodies_join (pieces_ne_nil _ t) (not_mem_of_mem_pieces t), markerBodies]

theorem Text.Respaced.same_markers (h : Respaced t u) : markerBodies u = markerBodies t := by
  induction h with
  | same => rfl
  | returns _ ih => rw [markerBodies_withReturns, ih]
  | @blanks above before blanks after below _ hline hloose hblank ih =>
    have hone : '\n' ∉ before ++ blanks ++ after := by
      have h := hline.oneLine
      simp only [List.mem_append, not_or] at h ⊢
      exact ⟨⟨h.1, hblank.2⟩, h.2⟩
    rw [markerBodies_congr hline hone (hloose.keeps_marker hblank.1), ih]

/-! ## Scans -/

namespace Scanner

theorem readLine_congr (s : Scanner) (label : Text) (n : Nat) (h : markerBody? line' = markerBody? line) :
    s.readLine label n line' = s.readLine label n line := by
  rw [readLine, readLine, podArguments?, podArguments?, h]

theorem readLines_congr (s : Scanner) (label : Text) {start : Nat} {ls ls' : List Text}
    (h : ls'.map markerBody? = ls.map markerBody?) : s.readLines label start ls' = s.readLines label start ls := by
  induction ls generalizing ls' start with
  | nil => rw [List.map_eq_nil_iff.1 h]
  | cons line ls ih =>
    obtain ⟨line', ls', rfl, hbody, hrest⟩ := List.map_eq_cons_iff.1 h
    rw [readLines_cons, readLines_cons, s.readLine_congr label start hbody, ih hrest]

/-- Line ends and blanks around comments change nothing in what is found: no record, no line number
and no reason. -/
theorem scan_respaced (s : Scanner) (h : Respaced t u) (label : Text) : s.scan u label = s.scan t label := by
  have hlines : s.readLines label 1 (lines u) = s.readLines label 1 (lines t) := by
    rw [readLines_lines, readLines_lines]
    exact s.readLines_congr label h.same_markers
  rw [scan_eq, scan_eq, hlines]

/-- Blanks at the end of a quote that is not closed, in an empty line and around the slashes, and then
returns at all line ends. -/
theorem scan_respaced_unclosed :
    let t : Text := "//+docgenerator:pod:scenario=\"a\n\r\n//+docgenerator:pod:scenario=b"
    let u : Text := withReturns "//+docgenerator:pod:scenario=\"a \t\n\u2003\r\n//\u3000+docgenerator:pod:scenario=b"
    Respaced t u ∧ standard.scan u "f" = standard.scan t "f" ∧
      standard.scan t "f" = ⟨[.ofSuccess "b" []], [⟨"f:1", "unterminated string starting at offset 9"⟩]⟩ := by
  intro t u
  have hquote : Respaced t "//+docgenerator:pod:scenario=\"a \t\n\r\n//+docgenerator:pod:scenario=b" :=
    Respaced.same.insert [] "//+docgenerator:pod:scenario=\"a" " \t" [] "\n\r\n//+docgenerator:pod:scenario=b"
      (by decide) (by decide) (.finish (by decide)) (by decide) (by decide)
  have hempty : Respaced t "//+docgenerator:pod:scenario=\"a \t\n\u2003\r\n//+docgenerator:pod:scenario=b" :=
    hquote.insert "//+docgenerator:pod:scenario=\"a \t\n" [] "\u2003" "\r" "\n//+docgenerator:pod:scenario=b"
      (by decide) (by decide) (.start (by decide)) (by decide) (by decide)
  have hslashes : Respaced t "//+docgenerator:pod:scenario=\"a \t\n\u2003\r\n//\u3000+docgenerator:pod:scenario=b" :=
    hempty.insert "//+docgenerator:pod:scenario=\"a \t\n\u2003\r\n" "//" "\u3000" "+docgenerator:pod:scenario=b" []
      (by decide) (by decide) (.slashes (a := []) (b := []) (by decide) (by decide)) (by decide) (by decide)
  have hreturns : Respaced t u := hslashes.returns
  exact ⟨hreturns, scan_respaced standard hreturns "f", by decide +kernel⟩

end Scanner

end ScenarioDocs
