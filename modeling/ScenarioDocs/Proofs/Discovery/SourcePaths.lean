import Mathlib
import ScenarioDocs.Proofs.Discovery.Batches
import ScenarioDocs.Proofs.Text.Lines
import ScenarioDocs.Proofs.Text.Trimming

/-!
# Source paths as they are written

With `/...` after it a directory is walked recursively, whatever slashes are at
its end, unless there is nothing but slashes or a backslash comes before them.
What does not end in `...` is taken as it is written.
-/

namespace ScenarioDocs

open Text FileSystem

variable {fs : FileSystem} {p : SourcePath} {top : Location} {spec t d : Text}

/-! ## Slashes at the end -/

namespace FileSystem

theorem steps_append_slashes {slashes : Text} (h : ∀ c ∈ slashes, c = '/') (t : Text) :
    steps (t ++ slashes) = steps t := by
  induction slashes generalizing t with
  | nil => rw [List.append_nil]
  | cons c slashes ih =>
    obtain ⟨rfl, hslashes⟩ := List.forall_mem_cons.1 h
    rw [← List.singleton_append, ← List.append_assoc, ih hslashes, steps_slash_append, steps_nil, List.append_nil]

/-- A directory is found without the slashes after it as well. -/
theorem find_dropSlashes (h : fs.find d = .ok (top, .directory)) (hne : dropEndWhile (· = '/') d ≠ []) :
    fs.find (dropEndWhile (· = '/') d) = .ok (top, .directory) := by
  obtain ⟨slashes, hslashes, hd⟩ := exists_dropEndWhile_append (· = '/') d
  generalize dropEndWhile (· = '/') d = base at hne hd ⊢
  subst hd
  obtain ⟨q, hresolve, -⟩ := find_directory_iff.1 h
  obtain ⟨hnul, -, hlong, -⟩ := resolve_eq_walk hresolve
  have hsteps : steps (base ++ slashes) = steps base ++ [] := by
    rw [List.append_nil, steps_append_slashes (by simpa using hslashes)]
  have habsolute : Path.isAbsolute base = Path.isAbsolute (base ++ slashes) := by
    rw [Path.isAbsolute, Path.isAbsolute, List.head?_append_of_ne_nil _ hne]
  have hdir := directory?_of_dots (by simp) hsteps habsolute (fun hmem => hnul (List.mem_append_left _ hmem))
    (isTooLong_of_append hlong) (directory?_of_find h)
  rwa [directory?_eq_some_iff, if_neg hne] at hdir

end FileSystem

namespace SourcePath

/-! ## What is written -/

/-- The text without the blanks around it, and then without the double quotes. -/
def written (spec : Text) : Text := dropAround (· = '"') (trim spec)

structure IsBare (t : Text) : Prop where
  first : ∀ ch ∈ t.head?, isBlank ch = false ∧ ch ≠ '"'
  last : ∀ ch ∈ t.getLast?, isBlank ch = false ∧ ch ≠ '"'

theorem IsBare.written (h : IsBare t) : written t = t := by
  have htrim : trim t = t := trim_eq_self_iff.2 ⟨fun ch hch => (h.first ch hch).1, fun ch hch => (h.last ch hch).1⟩
  have hstart : t.dropWhile (· = '"') = t := by
    cases t with
    | nil => rfl
    | cons ch t => exact List.dropWhile_cons_of_neg (by simpa using (h.first ch rfl).2)
  rw [SourcePath.written, htrim, dropAround, hstart]
  exact dropEndWhile_eq_self fun ch hch => by simpa using (h.last ch hch).2

theorem written_append_dots (hne : d ≠ []) (h : ∀ ch ∈ d.head?, isBlank ch = false ∧ ch ≠ '"') :
    written (d ++ "/...") = d ++ "/..." := by
  refine IsBare.written ⟨fun ch hch => h ch ?_, ?_⟩
  · rwa [List.head?_append_of_ne_nil _ hne] at hch
  · rw [List.getLast?_append_of_ne_nil _ (by decide)]
    rintro _ ⟨⟩
    decide

/-! ## What is read -/

def EndsInName (d : Text) : Prop := ∃ ch ∈ (dropEndWhile (· = '/') d).getLast?, ch ≠ '\\'

theorem EndsInName.ne_nil (h : EndsInName d) : dropEndWhile (· = '/') d ≠ [] := by
  obtain ⟨ch, hch, -⟩ := h
  intro hnil
  rw [hnil] at hch
  cases hch

theorem ofSpec_of_dots (h : written spec = t ++ "...") : ofSpec spec =
    let base := dropEndWhile (fun c => c = '/' || c = '\\') t
    ⟨if base = [] then "." else base, true⟩ := by
  have hbefore : before? "..." (dropAround (· = '"') (trim spec)) = some t := before?_eq_some_iff.2 h
  simp only [ofSpec, hbefore]

theorem ofSpec_of_not_dots (h : ¬("..." : Text) <:+ written spec) : ofSpec spec = ⟨written spec, false⟩ := by
  have hbefore : before? "..." (dropAround (· = '"') (trim spec)) = none := by
    rw [Option.eq_none_iff_forall_ne_some]
    exact fun t ht => h ⟨t, (before?_eq_some_iff.1 ht).symm⟩
  simp only [ofSpec, hbefore]
  rfl

theorem recursive_ofSpec_iff : (ofSpec spec).recursive = true ↔ ("..." : Text) <:+ written spec := by
  by_cases h : ("..." : Text) <:+ written spec
  · obtain ⟨t, ht⟩ := h
    rw [ofSpec_of_dots ht.symm]
    simp [← ht]
  · rw [ofSpec_of_not_dots h]
    simpa using h

/-- The slashes at the end go, and nothing else. -/
theorem ofSpec_of_slash_dots (h : written spec = d ++ "/...") (hname : EndsInName d) :
    ofSpec spec = ⟨dropEndWhile (· = '/') d, true⟩ := by
  have hdots : written spec = (d ++ ['/']) ++ "..." := by rw [h, List.append_assoc]; rfl
  obtain ⟨slashes, hslashes, hd⟩ := exists_dropEndWhile_append (· = '/') d
  have hboth : ∀ c ∈ slashes ++ ['/'], (c = '/' || c = '\\') = true := by
    refine List.forall_mem_append.2 ⟨fun c hc => ?_, by simp⟩
    rw [hslashes c hc, Bool.true_or]
  have hbase : dropEndWhile (fun c => c = '/' || c = '\\') (d ++ ['/']) = dropEndWhile (· = '/') d := by
    conv_lhs => rw [hd, List.append_assoc, dropEndWhile_append hboth]
    obtain ⟨last, hlast, hback⟩ := hname
    refine dropEndWhile_eq_self fun c hc => ?_
    cases hlast.symm.trans hc
    simpa [hback] using not_of_mem_getLast?_dropEndWhile hlast
  rw [ofSpec_of_dots hdots]
  simp only [hbase, hname.ne_nil, if_false]

/-! ## What is walked -/

structure WalksFrom (fs : FileSystem) (p : SourcePath) (top : Location) : Prop where
  recursive : p.recursive = true
  visits : p.visits fs = fs.visits fs.depth ⟨p.root, top⟩
  covers : ∀ dir, p.CoversDirectory fs dir ↔ fs.Enters top dir

theorem walksFrom_of_find {root : Text} (hspec : ofSpec spec = ⟨root, true⟩)
    (hfind : fs.find root = .ok (top, .directory)) : (ofSpec spec).WalksFrom fs top := by
  rw [hspec]
  refine ⟨rfl, ?_, fun dir => ⟨fun h => ?_, fun h => .entered rfl hfind h⟩⟩
  · rw [SourcePath.visits, hfind]
    rfl
  · cases h with
    | root hdir =>
      cases hfind.symm.trans hdir
      exact .root
    | entered _ hdir henters =>
      cases hfind.symm.trans hdir
      exact henters

/-- Only what ends in `...` is recursive. `/...` after a directory walks it and what is below, and `...` the
current directory; anything else is the path that is written. -/
structure Reads (spec : Text) : Prop where
  recursive_iff : (ofSpec spec).recursive = true ↔ ("..." : Text) <:+ written spec
  walks : ∀ d, written spec = d ++ "/..." → EndsInName d → ∀ fs top, fs.find d = .ok (top, .directory) →
    (ofSpec spec).WalksFrom fs top
  current : written spec = "..." → ∀ fs, (ofSpec spec).WalksFrom fs fs.current
  plain : ¬("..." : Text) <:+ written spec → ofSpec spec = ⟨written spec, false⟩
  /-- A bare directory can be written as it is. -/
  written_bare : ∀ d, d ≠ [] → IsBare d → written (d ++ "/...") = d ++ "/..."

theorem ofSpec_reads (spec : Text) : Reads spec where
  recursive_iff := recursive_ofSpec_iff
  walks _ h hname _ _ hfind := walksFrom_of_find (ofSpec_of_slash_dots h hname) (find_dropSlashes hfind hname.ne_nil)
  current h fs := by
    have hspec : ofSpec spec = ⟨".", true⟩ := ofSpec_of_dots (t := []) h
    have hcurrent := directory?_nil fs
    rw [directory?_eq_some_iff, if_pos rfl] at hcurrent
    exact walksFrom_of_find hspec hcurrent
  plain := ofSpec_of_not_dots
  written_bare _ hne hbare := written_append_dots hne hbare.first

def lookalikes : FileSystem :=
  let work := Location.root.child "work"
  ⟨[(work, .directory), (work.child "a", .directory), ((work.child "a").child "m.go", .file 0),
      (work.child "a...", .directory), (work.child "a\\", .directory)],
    [(0, Utf8.encode "// +docgenerator:pod")], 1, [], work⟩

theorem ofSpec_reads_quoted :
    written "\t\"../work/a//...\" " = "../work/a/" ++ "/..." ∧ EndsInName "../work/a/" ∧
      lookalikes.find "../work/a/" = .ok ((Location.root.child "work").child "a", .directory) ∧
      (ofSpec "\t\"../work/a//...\" ").WalksFrom lookalikes ((Location.root.child "work").child "a") := by
  have hwritten : written "\t\"../work/a//...\" " = "../work/a/" ++ "/..." := by decide
  have hname : EndsInName "../work/a/" := ⟨'a', by decide, by decide⟩
  have hfind : lookalikes.find "../work/a/" = .ok ((Location.root.child "work").child "a", .directory) := by cbv
  exact ⟨hwritten, hname, hfind, (ofSpec_reads _).walks _ hwritten hname _ _ hfind⟩

/-- Three dots are enough, whatever is before them, and a backslash goes with the slashes: another directory is
walked than the one that is written. -/
theorem ofSpec_lookalikes :
    let work := Location.root.child "work"
    lookalikes.find "a..." = .ok (work.child "a...", .directory) ∧
      (ofSpec "a...").WalksFrom lookalikes (work.child "a") ∧
      (⟨.standard, ["go"]⟩ : Collector).collect lookalikes ["a..."] = .ok ⟨[⟨"a", [.blank]⟩], []⟩ ∧
      lookalikes.find "a\\" = .ok (work.child "a\\", .directory) ∧
      (ofSpec "a\\/...").WalksFrom lookalikes (work.child "a") ∧
      lookalikes.find "/" = .ok (.root, .directory) ∧ (ofSpec "//...").WalksFrom lookalikes work := by
  intro work
  have hroot : ofSpec "//..." = ⟨".", true⟩ := by decide
  have hcurrent : lookalikes.find "." = .ok (work, .directory) := by cbv
  have ha : lookalikes.find "a" = .ok (work.child "a", .directory) := by cbv
  exact ⟨by cbv, walksFrom_of_find (by decide) ha, by cbv, by cbv, walksFrom_of_find (by decide) ha, by cbv,
    walksFrom_of_find hroot hcurrent⟩

end SourcePath

end ScenarioDocs
