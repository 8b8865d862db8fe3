import Mathlib
import ScenarioDocs.Proofs.Discovery.Opening
import ScenarioDocs.Proofs.Source.Locations

/-!
# What a search finds

A search loses no marker of the files that it opens and counts none twice. A
file that the source paths stand for is passed over only if the system does not
show it by the path by which it is reached from them: that path is too long, or
goes through too many links, or the system refuses to look.
-/

namespace ScenarioDocs

open FileSystem

namespace Collector

/-- What was found, when `files` are the files that were read. -/
structure Finds (c : Collector) (fs : FileSystem) (f : Findings) (files : List (Location × FileId)) : Prop where
  /-- Every file was read once, wherever it was met. -/
  distinct : (files.map (·.1)).Nodup
  scenarios : (f.scopes.flatMap (·.scenarios)).Perm
    (files.flatMap fun file => (c.scanner.scan (Utf8.decodeLossy (fs.bytes file.2)) []).scenarios)
  reasons : (f.skipped.map (·.reason)).Perm
    (files.flatMap fun file => c.scanner.reasons (Utf8.decodeLossy (fs.bytes file.2)))
  markers : f.count + f.skipped.length =
    (files.map fun file => c.scanner.countMarkers (Utf8.decodeLossy (fs.bytes file.2))).sum
  locations : (f.skipped.map (·.location)).Nodup
  proper : f.Proper

variable {c : Collector} {refused : Refusals} {fs : FileSystem} {f : Findings} {files : List SourceFile}
  {specs : List Text}

theorem found_scenarios (c : Collector) (fs : FileSystem) (g : SourceFile) :
    (c.found fs g).scenarios = (c.scanner.scan (Utf8.decodeLossy (fs.bytes g.2.2)) []).scenarios :=
  c.scanner.scan_scenarios _ _ _

theorem found_reasons (c : Collector) (fs : FileSystem) (g : SourceFile) :
    (c.found fs g).skipped.map (·.reason) = c.scanner.reasons (Utf8.decodeLossy (fs.bytes g.2.2)) :=
  c.scanner.scan_reasons _ _

/-- Different files have different paths, and so no two skips have one location. -/
theorem nodup_locations (hdistinct : (files.map (·.2.1)).Nodup)
    (hfind : ∀ g ∈ files, fs.find g.1 = .ok (g.2.1, .file g.2.2)) :
    ((files.flatMap fun g => (c.found fs g).skipped).map (·.location)).Nodup := by
  rw [List.map_flatMap, List.nodup_flatMap]
  refine ⟨fun g _ => c.scanner.nodup_locations _ _, ?_⟩
  apply (List.pairwise_map.1 hdistinct).imp_of_mem
  intro g g' hg hg' hne location hloc hloc'
  obtain ⟨skip, hskip, rfl⟩ := List.mem_map.1 hloc
  obtain ⟨skip', hskip', hsame⟩ := List.mem_map.1 hloc'
  obtain ⟨n, hn⟩ := c.scanner.exists_location_of_scan hskip
  obtain ⟨n', hn'⟩ := c.scanner.exists_location_of_scan hskip'
  have hpath : g.1 = g'.1 := (location_inj (hn.symm.trans (hsame.symm.trans hn'))).1
  have hfile := hfind g hg
  rw [hpath, hfind g' hg'] at hfile
  exact hne (congrArg Prod.fst (Except.ok.inj hfile)).symm

theorem gather_markers (c : Collector) (fs : FileSystem) (bs : List Batch) :
    (c.gather fs .empty [] bs).count + (c.gather fs .empty [] bs).skipped.length =
      ((SourceFile.fresh [] (bs.flatMap (·.files))).map fun g =>
        c.scanner.countMarkers (Utf8.decodeLossy (fs.bytes g.2.2))).sum := by
  rw [Findings.count, (gather_scenarios .empty [] bs).length_eq, gather_skipped]
  change (List.flatMap _ _).length + (List.flatMap _ _).length = _
  generalize SourceFile.fresh [] (bs.flatMap (·.files)) = files
  induction files with
  | nil => rfl
  | cons g files ih =>
    have hscan := c.scanner.length_scan (Utf8.decodeLossy (fs.bytes g.2.2)) g.1
    rw [List.flatMap_cons, List.length_append, List.flatMap_cons, List.length_append, List.map_cons, List.sum_cons,
      ← ih, ← hscan]
    change _ = (c.found fs g).scenarios.length + (c.found fs g).skipped.length + _
    omega

theorem gather_finds (bs : List Batch)
    (hfind : ∀ g ∈ SourceFile.fresh [] (bs.flatMap (·.files)), fs.find g.1 = .ok (g.2.1, .file g.2.2)) :
    c.Finds fs (c.gather fs .empty [] bs) ((SourceFile.fresh [] (bs.flatMap (·.files))).map (·.2)) where
  distinct := by
    rw [List.map_map]
    exact nodup_fresh _ _
  scenarios := by
    refine (gather_scenarios .empty [] bs).trans (List.Perm.of_eq ?_)
    rw [List.flatMap_map]
    exact List.flatMap_congr fun g _ => c.found_scenarios fs g
  reasons := by
    apply List.Perm.of_eq
    rw [gather_skipped, List.flatMap_map]
    exact List.map_flatMap.trans (List.flatMap_congr fun g _ => c.found_reasons fs g)
  markers := by
    rw [gather_markers, List.map_map]
    rfl
  locations := by
    rw [gather_skipped]
    exact nodup_locations (nodup_fresh _ _) hfind
  proper := proper_gather Findings.proper_empty _ _

/-- A search reads exactly the files that its paths open, each once. These are all the files that the paths
stand for, except those that the system hides. -/
theorem collect_finds (ht : fs.IsTree) (h : c.collectUnder refused fs specs = .ok f) :
    ∃ files, c.Finds fs f files ∧
      (∀ loc id, (loc, id) ∈ files ↔ SourcePath.Opens refused fs c.extensions (specs.map .ofSpec) loc id) ∧
      (∀ loc id, SourcePath.Opens refused fs c.extensions (specs.map .ofSpec) loc id →
        ∃ p ∈ specs.map SourcePath.ofSpec, p.Covers fs c.extensions loc id) ∧
      ∀ p ∈ specs.map SourcePath.ofSpec, ∀ loc id, p.Covers fs c.extensions loc id →
        SourcePath.Opens refused fs c.extensions (specs.map .ofSpec) loc id ∨
          ∃ v name, SourcePath.FirstReaches fs (specs.map .ofSpec) v ∧ fs.fileIn? v.loc name = some (loc, id) ∧
            refused.Hides fs (Path.join v.path name) := by
  obtain ⟨rfl, hshort⟩ := collect_ok h
  refine ⟨_, gather_finds _ fun g hg => ?_, fun loc id => ⟨fun hmem => ?_, fun hopens => ?_⟩,
    fun loc id => exists_covers_of_opens ht hshort, fun p hp loc id => opens_of_covers ht hshort refused hp⟩
  · exact (opens_of_mem ht hshort (mem_of_mem_fresh hg).1).1
  · obtain ⟨⟨path, file⟩, hg, rfl⟩ := List.mem_map.1 hmem
    exact (opens_of_mem ht hshort (mem_of_mem_fresh hg).1).2
  · obtain ⟨path, hmem⟩ := exists_mem_of_opens ht hshort hopens
    obtain hseen | ⟨g, hg, hloc⟩ := exists_mem_fresh [] hmem
    · cases hseen
    · -- what is at a location is one file, by whichever path it was read
      have hfile := entry?_of_find (opens_of_mem ht hshort (mem_of_mem_fresh hg).1).1
      have hfile' := entry?_of_find (opens_of_mem ht hshort hmem).1
      rw [hloc, hfile'] at hfile
      cases hfile
      exact List.mem_map.2 ⟨g, hg, Prod.ext hloc rfl⟩

/-- A file with one marker, a link to it that has an extension, and a link to the directory itself. -/
def looped : FileSystem :=
  let work := Location.root.child "work"
  ⟨[(work, .directory), (work.child "b", .file 0), (work.child "a.go", .link "b"), (work.child "l", .link ".")],
    [(0, Utf8.encode "// +docgenerator:pod")], 1, [], work⟩

def unseen : Refusals
  | .look, ['.', '/', 'a', '.', 'g', 'o'] => some (.described "Permission denied (os error 13)")
  | _, _ => none

/-- The file is met as itself and through the link in two ways to the directory, and read once. -/
theorem collect_finds_looped :
    (∃ f files, (⟨.standard, ["go"]⟩ : Collector).collect looped ["./...", "l", "b"] = .ok f ∧
      (⟨.standard, ["go"]⟩ : Collector).Finds looped f files ∧ f.count = 1) ∧
    ∃ f files, (⟨.standard, ["go"]⟩ : Collector).collectUnder unseen looped ["./...", "l", "b"] = .ok f ∧
      (⟨.standard, ["go"]⟩ : Collector).Finds looped f files ∧ f.scopes = [⟨[], [.blank]⟩] := by
  constructor
  · have h : (⟨.standard, ["go"]⟩ : Collector).collect looped ["./...", "l", "b"] = .ok ⟨[⟨".", [.blank]⟩], []⟩ := by
      cbv
    obtain ⟨files, hfinds, -⟩ := collect_finds (by decide) h
    exact ⟨_, files, h, hfinds, rfl⟩
  · have h : (⟨.standard, ["go"]⟩ : Collector).collectUnder unseen looped ["./...", "l", "b"] =
        .ok ⟨[⟨[], [.blank]⟩], []⟩ := by
      cbv
    obtain ⟨files, hfinds, -⟩ := collect_finds (by decide) h
    exact ⟨_, files, h, hfinds, rfl⟩

set_option maxRecDepth 4000 in
/-- A way through forty links leads to the directory, but not to what the link in it leads to; and the system may
refuse to say what that is. -/
theorem collect_passes_over :
    (∃ f loc id, looped.IsTree ∧
      (⟨.standard, ["go"]⟩ : Collector).collect looped [Text.join ['/'] (List.replicate 40 "l")] = .ok f ∧
        (∃ p ∈ [Text.join ['/'] (List.replicate 40 "l")].map SourcePath.ofSpec, p.Covers looped ["go"] loc id) ∧
        Scanner.standard.countMarkers (Utf8.decodeLossy (looped.bytes id)) = 1 ∧ f.count + f.skipped.length = 0) ∧
    ∃ f loc id, (⟨.standard, ["go"]⟩ : Collector).collectUnder unseen looped ["."] = .ok f ∧
      (∃ p ∈ [("." : Text)].map SourcePath.ofSpec, p.Covers looped ["go"] loc id) ∧
      Scanner.standard.countMarkers (Utf8.decodeLossy (looped.bytes id)) = 1 ∧ f.count + f.skipped.length = 0 := by
  let work := Location.root.child "work"
  have hentry : (looped.entry? (work.child "a.go")).isSome := by decide
  have hfile : looped.fileIn? work "a.go" = some (work.child "b", 0) := by cbv
  have hcovers {spec : Text} (hroot : looped.find (SourcePath.ofSpec spec).root = .ok (work, .directory)) :
      ∃ p ∈ [spec].map SourcePath.ofSpec, p.Covers looped ["go"] (work.child "b") 0 :=
    ⟨_, List.mem_singleton_self _, .inside (.root hroot) hentry hfile (by decide : _ = some ("go" : Text)) (by decide)⟩
  constructor
  · exact ⟨⟨[], []⟩, work.child "b", 0, by decide, by cbv, hcovers (by cbv), by cbv, rfl⟩
  · exact ⟨⟨[], []⟩, work.child "b", 0, by cbv, hcovers (by cbv), by cbv, rfl⟩

end Collector

end ScenarioDocs
