import Mathlib
import ScenarioDocs.Proofs.Discovery.Opening

/-!
# Which directories scopes name

A directory that is visited gives one scope. A file gives a scope that is
named as its path spells the directory, and that spelling may differ from the
one by which the directory is visited.
-/

namespace ScenarioDocs

open FileSystem

namespace Collector

variable {c : Collector} {refused : Refusals} {fs : FileSystem} {f : Findings} {specs : List Text} {scope : Scope}

/-- A scope is named after a file's directory, or after a directory that was visited. -/
theorem scope_cases (ht : fs.IsTree) (h : c.collectUnder refused fs specs = .ok f) (hscope : scope ∈ f.scopes) :
    (∃ p ∈ specs.map SourcePath.ofSpec, (∃ loc id, fs.find p.root = .ok (loc, .file id)) ∧
      (Path.parent? p.root).getD [] = scope.name) ∨
    ∃ v, SourcePath.FirstReaches fs (specs.map .ofSpec) v ∧ v.path = scope.name ∧
      fs.directory? v.path = some v.loc := by
  obtain ⟨rfl, hshort⟩ := collect_ok h
  obtain ⟨_, hbefore, -⟩ | ⟨b, hb, hname⟩ := exists_batch_of_scope hscope
  · cases hbefore
  · rcases (mem_opened_paths_iff ht).1 hb with ⟨p, hp, loc, id, hfind, rfl⟩ | ⟨v, hv, rfl⟩
    · exact .inl ⟨p, hp, ⟨loc, id, hfind⟩, hname⟩
    · exact .inr ⟨v, hv, hname, directory?_of_firstReaches ht hshort hv⟩

/-- Every scope names a directory, if all names are UTF-8. Two scopes of one directory come about only by a
source path that leads to a file. -/
theorem collect_scopes (ht : fs.IsTree) (h : c.collectUnder refused fs specs = .ok f) :
    (f.scopes.map (·.name)).Nodup ∧ (∀ scope ∈ f.scopes, ∃ dir, fs.directory? scope.name = some dir) ∧
      ∀ a ∈ f.scopes, ∀ b ∈ f.scopes, a.name ≠ b.name → fs.directory? a.name = fs.directory? b.name →
        ∃ p ∈ specs.map SourcePath.ofSpec, (∃ loc id, fs.find p.root = .ok (loc, .file id)) ∧
          ((Path.parent? p.root).getD [] = a.name ∨ (Path.parent? p.root).getD [] = b.name) := by
  refine ⟨?_, fun scope hscope => ?_, fun a ha b hb hne hsame => ?_⟩
  · rw [(collect_ok h).1]
    exact (proper_gather Findings.proper_empty _ _).names
  · rcases scope_cases ht h hscope with ⟨p, -, ⟨loc, id, hfind⟩, hname⟩ | ⟨v, -, hname, hdir⟩
    · rw [← hname]
      exact directory?_parent_of_find hfind
    · rw [← hname]
      exact ⟨v.loc, hdir⟩
  · rcases scope_cases ht h ha with ⟨p, hp, hfile, hname⟩ | ⟨v, hv, hname, hdir⟩
    · exact ⟨p, hp, hfile, .inl hname⟩
    · rcases scope_cases ht h hb with ⟨p, hp, hfile, hname'⟩ | ⟨w, hw, hname', hdir'⟩
      · exact ⟨p, hp, hfile, .inr hname'⟩
      · rw [← hname, ← hname', hdir, hdir', Option.some.injEq] at hsame
        rw [← hname, ← hname', firstReaches_unique c ht hv hw hsame] at hne
        exact absurd rfl hne

def twoFiles : FileSystem :=
  let work := Location.root.child "work"
  let dir := work.child "s"
  let marker := Utf8.encode "// +docgenerator:pod"
  ⟨[(work, .directory), (dir, .directory), (dir.child "a.go", .file 0), (dir.child "b.go", .file 1)],
    [(0, marker), (1, marker)], 2, [], work⟩

theorem collect_twoFiles : (⟨.standard, ["go"]⟩ : Collector).collect twoFiles ["s/a.go", "./s"] =
    .ok ⟨[⟨"s", [.blank]⟩, ⟨"./s", [.blank]⟩], []⟩ := by
  cbv

theorem collect_scopes_twoFiles : ∃ f,
    (⟨.standard, ["go"]⟩ : Collector).collect twoFiles ["s/a.go", "./s"] = .ok f ∧
      ∃ p ∈ [("s/a.go" : Text), "./s"].map SourcePath.ofSpec, (∃ loc id, twoFiles.find p.root = .ok (loc, .file id)) ∧
        ((Path.parent? p.root).getD [] = "s" ∨ (Path.parent? p.root).getD [] = "./s") := by
  refine ⟨_, collect_twoFiles, ?_⟩
  exact (collect_scopes (by decide) collect_twoFiles).2.2 ⟨"s", [.blank]⟩ (by decide) ⟨"./s", [.blank]⟩ (by decide)
    (by decide) (by cbv)

theorem collect_two_scopes : ∃ f, twoFiles.IsTree ∧
    (⟨.standard, ["go"]⟩ : Collector).collect twoFiles ["s/a.go", "./s"] = .ok f ∧
      ∃ a ∈ f.scopes, ∃ b ∈ f.scopes, a.name ≠ b.name ∧ twoFiles.directory? a.name = twoFiles.directory? b.name :=
  ⟨_, by decide, collect_twoFiles, ⟨"s", [.blank]⟩, by decide, ⟨"./s", [.blank]⟩, by decide, by decide, by cbv⟩

end Collector

end ScenarioDocs
