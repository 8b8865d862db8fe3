import Mathlib
import ScenarioDocs.Proofs.Document.Decodable
import ScenarioDocs.Proofs.Document.Status
import ScenarioDocs.Proofs.Source.OneLine

/-!
# Current documents

Scanned records have texts of one line, so a document that was written from
some is current exactly as long as what it shows is unchanged.
-/

namespace ScenarioDocs

/-- Scanned records have texts of one line; over such records, equal documents and records that
show the same are one; and so the status of a document written from some of them tells whether
others show the same. -/
theorem Document.status_eq_current_iff_shown :
    (∀ (s : Scanner) (text label : Text), ∀ r ∈ (s.scan text label).scenarios, r.OneLine) ∧
      ∀ old new : List Scope, (∀ r ∈ scenarios old, r.OneLine) → (∀ r ∈ scenarios new, r.OneLine) →
        (text old = text new ↔ (scenarios old).map Scenario.shown = (scenarios new).map Scenario.shown) ∧
        ∀ (fs : FileSystem) (path : Text), fs.read path = .ok (Utf8.encode (text old)) →
          (status fs path new = .ok .current ↔
            (scenarios old).map Scenario.shown = (scenarios new).map Scenario.shown) := by
  refine ⟨fun s text label r hr => s.oneLine_of_mem_scan hr, fun old new hold hnew => ?_⟩
  have htext := text_eq_text_iff hold hnew
  refine ⟨htext, fun fs path hread => ?_⟩
  rw [status_of_read hread]
  split
  · rename_i h
    exact iff_of_true rfl (htext.1 h)
  · rename_i h
    refine iff_of_false ?_ fun hs => h (htext.2 hs)
    simp

def Scenario.running : Scenario := .ofSuccess "pod" ["Running"]

/-- A flag that is given as off, and another division into scopes, change nothing; a flag that is
on does. -/
theorem Document.status_running :
    (∀ r ∈ (Scanner.standard.scan "// +docgenerator:pod" "a.go").scenarios, r.OneLine) ∧
      ∃ fs : FileSystem, fs.read "d" = .ok (Utf8.encode (text [⟨"a", [.running]⟩])) ∧
        status fs "d" [⟨"b", []⟩, ⟨"c", [Scenario.running.withVolume false]⟩] = .ok .current ∧
        status fs "d" [⟨"a", [Scenario.running.withVolume true]⟩] ≠ .ok .current := by
  have hread (bs : Bytes) :
      ((FileSystem.fresh.newFile ((Location.root.child "work").child "d")).2.setBytes 0 bs).read "d" = .ok bs := by
    cbv
  have hold : ∀ r ∈ scenarios [⟨"a", [.running]⟩], r.OneLine := by decide
  have hoff := status_eq_current_iff_shown.2 [⟨"a", [.running]⟩]
    [⟨"b", []⟩, ⟨"c", [Scenario.running.withVolume false]⟩] hold (by decide)
  have hon := status_eq_current_iff_shown.2 [⟨"a", [.running]⟩] [⟨"a", [Scenario.running.withVolume true]⟩] hold
    (by decide)
  refine ⟨status_eq_current_iff_shown.1 _ _ _, _, hread _, ?_, ?_⟩
  · exact (hoff.2 _ _ (hread _)).2 (by decide)
  · exact mt (hon.2 _ _ (hread _)).1 (by decide)

end ScenarioDocs
