import Mathlib
import ScenarioDocs.Config
import ScenarioDocs.Proofs.FileSystem.Later
import ScenarioDocs.Proofs.Toml.Lines

/-!
# Configurations survive their file

A configuration is read back from the text it is printed as, so what is saved
in a directory is what is loaded from there, unless it is not valid.
-/

namespace ScenarioDocs.Config

open Toml FileSystem

variable {c : Config} {fs fs' : FileSystem} {root path : Text} {d : Location}

/-! ## The text -/

def toToml (c : Config) : Toml := .table [
  ("output", .table [("doc_name", .string c.output.docName), ("directory", .string c.output.directory)]),
  ("scan", .table [
    ("paths", .array (c.scan.paths.map .string)),
    ("extensions", .array (c.scan.extensions.map .string))])]

theorem texts?_array (ts : List Text) : texts? (.array (ts.map .string)) = some ts := by
  apply mapM_map_eq_some
  intro t
  rfl

theorem ofToml?_toToml (c : Config) : ofToml? c.toToml = some c := by
  simp [ofToml?, toToml, optional, outputOf?, sourcesOf?, twoFields?, string?, texts?_array, List.lookup]

theorem print_eq (c : Config) :
    c.print = '[' :: (("output" : Text) ++ ']' :: '\n' :: (
      printPair "doc_name" (printString c.output.docName) ++ (
      printPair "directory" (printString c.output.directory) ++ '\n' :: '[' :: (("scan" : Text) ++ ']' :: '\n' :: (
      printPair "paths" (printTexts c.scan.paths) ++ (
      printPair "extensions" (printTexts c.scan.extensions) ++ [])))))) := by
  have houtput : ("[output]\n" : Text) = '[' :: (("output" : Text) ++ [']', '\n']) := rfl
  have hscan : ("\n[scan]\n" : Text) = '\n' :: '[' :: (("scan" : Text) ++ [']', '\n']) := rfl
  unfold print
  rw [houtput, hscan]
  simp only [List.append_assoc, List.cons_append, List.nil_append, List.append_nil]

theorem bare_of_all {key : Text} (h : key ≠ [] ∧ key.all isBareKeyChar = true) : Bare key := ⟨h.1, by simpa using h.2⟩

theorem readLines_print (c : Config) :
    (readLines ⟨[], []⟩ c.print).map (fun es => .table (fieldsOf es)) = some c.toToml := by
  have houtput : Bare "output" := bare_of_all (by decide)
  have hdocName : Bare "doc_name" := bare_of_all (by decide)
  have hdirectory : Bare "directory" := bare_of_all (by decide)
  have hscan : Bare "scan" := bare_of_all (by decide)
  have hpaths : Bare "paths" := bare_of_all (by decide)
  have hextensions : Bare "extensions" := bare_of_all (by decide)
  have hend (d : Draft) : readLines d [] = some d.entries := by
    rw [readLines]
    rfl
  simp only [print_eq, houtput.readLines_header, hdocName.readLines_pair (spells_printString _),
    hdirectory.readLines_pair (spells_printString _), readLines_blank, hscan.readLines_header,
    hpaths.readLines_pair (spells_printTexts _), hextensions.readLines_pair (spells_printTexts _), hend]
  rfl

theorem parse?_print (c : Config) : parse? c.print = some c := by
  have htoml : Toml.parse? c.print = some c.toToml := readLines_print c
  rw [parse?, htoml]
  exact ofToml?_toToml c

/-! ## The file -/

theorem load_of_read (h : fs.read (Path.join root fileName) = .ok (Utf8.encode c.print)) :
    load fs root = c.validate.map fun _ => c := by
  have hfind : fs.pathExists (Path.join root fileName) = true := by
    obtain ⟨loc, id, hr⟩ := exists_file_of_read h
    rw [pathExists, find_file_iff.2 hr]
    rfl
  rw [load, if_pos hfind, loadFrom, readText_of_read h]
  simp [parse?_print]

theorem load_save {path : Text} (h : c.save fs root = .ok (path, fs')) :
    path = Path.join root fileName ∧ load fs' root = c.validate.map fun _ => c := by
  cases hwrite : fs.write (Path.join root fileName) (Utf8.encode c.print) with
  | error e =>
    rw [save, hwrite] at h
    cases h
  | ok fs1 =>
    rw [save, hwrite] at h
    cases h
    exact ⟨rfl, load_of_read (read_of_write hwrite)⟩

theorem exists_save (c : Config) (hd : fs.directory? root = some d)
    (hlong : isTooLong (Path.join root fileName) = false)
    (hname : fs.entry? (d.child fileName) = none ∨ ∃ id, fs.entry? (d.child fileName) = some (.file id)) :
    ∃ fs', c.save fs root = .ok (Path.join root fileName, fs') := by
  have hstep : IsStep fileName := ⟨by decide, by decide, by decide⟩
  obtain ⟨k, hleads⟩ := exists_leads hd
  have hresolve : fs.resolve .create (Path.join root fileName) = fs.walk .create k d [fileName] false := by
    rw [hleads.resolve_join .create (by decide) (by decide) (by decide), hlong]
    rfl
  obtain ⟨⟨id, fs1⟩, hopen⟩ : ∃ r, fs.openForWriting (Path.join root fileName) = .ok r := by
    rw [openForWriting, hresolve]
    obtain hnone | ⟨id, hfile⟩ := hname
    · rw [walk_missing hstep (by simp) hnone]
      exact ⟨_, rfl⟩
    · rw [walk_file hstep (by simp) hfile]
      exact ⟨_, rfl⟩
  obtain ⟨fs', hwrite⟩ := exists_write (Utf8.encode c.print) hopen
  exact ⟨fs', by rw [save, hwrite]⟩

/-- A configuration comes back from its text, and from the directory in which it is saved unless it is not
valid. -/
structure RoundTrips (c : Config) (fs : FileSystem) (root : Text) : Prop where
  text : parse? c.print = some c
  saved : ∀ path fs', c.save fs root = .ok (path, fs') →
    path = Path.join root fileName ∧ load fs' root = c.validate.map fun _ => c
  /-- Only what stands at the file's name can be in the way. -/
  saves : ∀ d, fs.directory? root = some d → isTooLong (Path.join root fileName) = false →
    (fs.entry? (d.child fileName) = none ∨ ∃ id, fs.entry? (d.child fileName) = some (.file id)) →
    ∃ fs', c.save fs root = .ok (Path.join root fileName, fs') ∧ load fs' root = c.validate.map fun _ => c

theorem save_load_round_trip (c : Config) (fs : FileSystem) (root : Text) : c.RoundTrips fs root where
  text := parse?_print c
  saved _ _ h := load_save h
  saves d hd hlong hname := by
    obtain ⟨fs', hsave⟩ := exists_save c hd hlong hname
    exact ⟨fs', hsave, (load_save hsave).2⟩

/-- Quotes of both kinds, three and more of them in a row, backslashes, control characters and
line feeds at both ends. -/
def knotty : Config where
  output := ⟨"\n\"\"\"\"'''\x01\t.md\n", "'\\\r"⟩
  scan := ⟨["a\"\"\"\n''", "b'c\"d", "\x7f"], []⟩

def misnamed : Config := { knotty with output := ⟨"a/b", "'"⟩ }

theorem save_load_knotty :
    (∃ fs', knotty.save .fresh "." = .ok (("./docgen.toml" : Text), fs') ∧ load fs' "." = .ok knotty) ∧
      ∃ fs', misnamed.save .fresh "." = .ok (("./docgen.toml" : Text), fs') ∧
        load fs' "." = .error (.notFileName "a/b") := by
  have hwork : FileSystem.directory? .fresh "." = some (Location.root.child "work") := by cbv
  constructor
  · exact (save_load_round_trip knotty .fresh ".").saves _ hwork (by decide) (.inl (by decide))
  · exact (save_load_round_trip misnamed .fresh ".").saves _ hwork (by decide) (.inl (by decide))

end ScenarioDocs.Config
