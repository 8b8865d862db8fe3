import Mathlib
import ScenarioDocs.Command.Run
import ScenarioDocs.Proofs.Document.Confined
import ScenarioDocs.Proofs.Path.Within
import ScenarioDocs.Proofs.Text.Trimming

/-!
# The document of a valid configuration

A name that is not refused has no slash, so the document and the files beside
it lie directly in the configured directory. Only `.` and `..` pass as well
without being the name of a file.
-/

namespace ScenarioDocs

open Text FileSystem

variable {fs : FileSystem} {c : Config} {dir name parent path ending : Text} {d : Location}

/-! ## The directory of a path -/

namespace FileSystem

/-- Taking the name off again leaves the steps of the directory, but for dots. -/
theorem steps_parent_join (hname : Path.IsFileName name) (hparent : Path.parent? (Path.join dir name) = some parent) :
    ∃ dots : List Text, (∀ x ∈ dots, x = ['.']) ∧ steps dir = steps parent ++ dots := by
  have hspells := Path.spells_of_fileName? (Path.fileName?_join hname dir)
  rw [hparent, Option.getD_some] at hspells
  obtain ⟨before, after, hbefore, hafter, hsteps⟩ := hspells.steps
  rw [steps_join hname.nonempty hname.noSlash] at hsteps
  refine ⟨before, hbefore, ?_⟩
  -- The name is no dot, so it is the last step on both sides.
  rcases after.eq_nil_or_concat with rfl | ⟨init, x, rfl⟩
  · exact (List.append_inj' hsteps rfl).1
  · rw [List.concat_eq_append, ← List.cons_append, ← List.append_assoc] at hsteps
    have hlast := (List.append_inj' hsteps rfl).2
    exact absurd ((List.cons.inj hlast).1.trans (hafter x (by simp))) hname.notCurrent

theorem directory?_parent_join (hname : Path.IsFileName name)
    (hparent : Path.parent? (Path.join dir name) = some parent) (hdir : fs.directory? dir = some d)
    (hnul : '\x00' ∉ name) (hlong : isTooLong parent = false) : fs.directory? parent = some d := by
  have hspells := Path.spells_of_fileName? (Path.fileName?_join hname dir)
  rw [hparent, Option.getD_some] at hspells
  obtain ⟨dots, hdots, hsteps⟩ := steps_parent_join hname hparent
  obtain ⟨k, hleads⟩ := exists_leads hdir
  have hnul' : '\x00' ∉ parent := by
    obtain ⟨rest, hpath⟩ := hspells.isPrefix
    intro hmem
    have hjoin : '\x00' ∈ Path.join dir name := by simp [hpath, hmem]
    rcases (mem_join_iff (by decide) hname.noSlash).1 hjoin with hmem | hmem
    · exact hleads.noNul hmem
    · exact hnul hmem
  have habsolute := hspells.isAbsolute.trans (Path.isAbsolute_join hname.noSlash)
  exact directory?_of_dots hdots hsteps habsolute hnul' hlong hdir

theorem leadsTo_join (hdir : fs.directory? dir = some d) (hname : IsName name)
    (hlong : isTooLong (Path.join dir name) = false) : fs.LeadsTo (Path.join dir name) (d.child name) := by
  obtain ⟨k, hleads⟩ := exists_leads hdir
  rw [LeadsTo, hleads.resolve_join .entry hname.nonempty hname.noSlash hname.noNul, hlong]
  exact walk_last (IsStep.of_isName hname)

end FileSystem

/-! ## Files in a directory -/

/-- The path is that of a name in the directory, for the system as well. -/
structure NamedIn (path dir name : Text) : Prop extends Path.Within path dir name where
  leads : ∀ (fs : FileSystem) (d : Location), fs.directory? dir = some d → IsName name → isTooLong path = false →
    fs.LeadsTo path (d.child name)

theorem namedIn_join (hname : Path.IsFileName name) (dir : Text) : NamedIn (Path.join dir name) dir name :=
  ⟨Path.within_join hname dir, fun _ _ hdir hn hlong => leadsTo_join hdir hn hlong⟩

theorem namedIn_sibling (hname : Path.IsFileName name) (dir : Text) (hending : '/' ∉ ending) :
    NamedIn (Path.sibling (Path.join dir name) ending) dir (name ++ ending) := by
  refine ⟨(Path.within_join hname dir).sibling hending, fun fs d hdir hn hlong => ?_⟩
  obtain ⟨parent, hparent, -⟩ := Path.parent?_join hname dir
  have hsibling : Path.sibling (Path.join dir name) ending = Path.join parent (name ++ ending) := by
    rw [Path.sibling, Path.fileName?_join hname, hparent]
    rfl
  rw [hsibling] at hlong ⊢
  have hnul : '\x00' ∉ name := fun hmem => hn.noNul (List.mem_append_left _ hmem)
  obtain ⟨sep, -, hjoin⟩ := Path.exists_join_eq hn.noSlash parent
  have hshort : isTooLong parent = false := by
    rw [hjoin, List.append_assoc] at hlong
    exact isTooLong_of_append hlong
  exact leadsTo_join (directory?_parent_join hname hparent hdir hnul hshort) hn hlong

namespace Config

/-! ## Valid names -/

theorem name_of_validate (h : c.validate = .ok ()) : trim c.output.docName ≠ [] ∧ '/' ∉ trim c.output.docName := by
  simp only [validate] at h
  by_cases hempty : trim c.output.docName = []
  · rw [if_pos hempty] at h
    cases h
  · rw [if_neg hempty] at h
    refine ⟨hempty, fun hslash => ?_⟩
    rw [if_pos (List.any_eq_true.2 ⟨'/', hslash, rfl⟩)] at h
    cases h

theorem isFileName_iff (h : c.validate = .ok ()) :
    Path.IsFileName c.output.docName ↔ c.output.docName ≠ ['.'] ∧ c.output.docName ≠ ['.', '.'] := by
  obtain ⟨hne, hslash⟩ := name_of_validate h
  refine ⟨fun hname => ⟨hname.notCurrent, hname.notParent⟩, fun ⟨hcurrent, hparent⟩ => ⟨?_, ?_, hcurrent, hparent⟩⟩
  · intro hnil
    rw [hnil] at hne
    exact hne rfl
  · exact mt (mem_trim_iff (by decide)).2 hslash

/-- The document of a valid configuration is a file name in the configured directory, and so are the
temporary file and the lock beside it, unless the name is `.` or `..`. -/
theorem docPath_namedIn (h : c.validate = .ok ()) :
    (Path.fileName? c.docPath = some c.output.docName ↔ c.output.docName ≠ ['.'] ∧ c.output.docName ≠ ['.', '.']) ∧
      (c.output.docName ≠ ['.'] → c.output.docName ≠ ['.', '.'] →
        NamedIn c.docPath c.output.directory c.output.docName ∧
          NamedIn (FileSink.tempPath c.docPath) c.output.directory (c.output.docName ++ ".tmp") ∧
          NamedIn (FileSink.lockPath c.docPath) c.output.directory (c.output.docName ++ ".lock")) := by
  refine ⟨?_, fun hcurrent hparent => ?_⟩
  · rw [← isFileName_iff h]
    exact ⟨Path.isFileName_of_fileName?, fun hname => Path.fileName?_join hname _⟩
  · have hname := (isFileName_iff h).2 ⟨hcurrent, hparent⟩
    exact ⟨namedIn_join hname _, namedIn_sibling hname _ (by decide), namedIn_sibling hname _ (by decide)⟩

def dotted : Config := ⟨⟨" .. ", "out//./"⟩, .standard⟩

theorem docPath_namedIn_dotted :
    dotted.validate = .ok () ∧ dotted.docPath = "out//./ .. " ∧ Path.parent? dotted.docPath = some "out" ∧
      NamedIn dotted.docPath "out//./" " .. " ∧ NamedIn (FileSink.tempPath dotted.docPath) "out//./" " .. .tmp" ∧
      NamedIn (FileSink.lockPath dotted.docPath) "out//./" " .. .lock" := by
  have hvalid : dotted.validate = .ok () := by decide +kernel
  exact ⟨hvalid, by decide, by decide, (docPath_namedIn hvalid).2 (by decide) (by decide)⟩

/-- The names of the directory itself and of the one above it are not refused. -/
theorem validate_dots :
    let here : Config := ⟨⟨".", "docs"⟩, .standard⟩
    let above : Config := ⟨⟨"..", "docs"⟩, .standard⟩
    here.validate = .ok () ∧ Path.fileName? here.docPath = some "docs" ∧ FileSink.lockPath here.docPath = "docs.lock" ∧
      above.validate = .ok () ∧ Path.fileName? above.docPath = none ∧
      FileSink.lockPath above.docPath = "docs/../.lock" ∧
      (Command.store above.docPath [] .fresh).1 =
        .error (.failed ["Failed to write docs/.."] (.write "docs/.." .busy)) := by
  intro here above
  exact ⟨by decide +kernel, by decide, by decide, by decide +kernel, by decide, by decide, by cbv⟩

end Config

end ScenarioDocs
