import ScenarioDocs.Document.File
import ScenarioDocs.Proofs.FileSystem.Operations

/-!
# The status of a document

What reading the document says about its status, and the other way round.
-/

namespace ScenarioDocs

variable {fs : FileSystem} {path t : Text} {scopes : List Scope}

theorem Document.status_of_read (h : fs.read path = .ok (Utf8.encode t)) :
    status fs path scopes = .ok (if t = text scopes then .current else .stale) := by
  rw [status, FileSystem.readText_of_read h]

theorem FileSystem.readText_eq_ok_iff : fs.readText path = .ok t ↔ fs.read path = .ok (Utf8.encode t) := by
  refine ⟨fun h => ?_, readText_of_read⟩
  obtain ⟨bs, hread, hdecode⟩ := bind_eq_ok_iff.1 h
  cases hd : Utf8.decode? bs with
  | none =>
    rw [hd] at hdecode
    cases hdecode
  | some u =>
    rw [hd] at hdecode
    cases hdecode
    rw [hread, Utf8.encode_of_decode? hd]

theorem Document.status_eq_current_iff :
    status fs path scopes = .ok .current ↔ fs.read path = .ok (Utf8.encode (text scopes)) := by
  rw [← FileSystem.readText_eq_ok_iff, status]
  split <;> simp_all

theorem Document.status_eq_missing_iff :
    status fs path scopes = .ok .missing ↔ fs.read path = .error .notFound := by
  unfold status FileSystem.readText
  cases fs.read path with
  | error e => cases e <;> simp [bind, Except.bind]
  | ok bs =>
    cases h : Utf8.decode? bs with
    | none => simp [h, bind, Except.bind, throw, throwThe, MonadExceptOf.throw]
    | some t =>
      by_cases ht : t = text scopes <;> simp [h, ht, bind, Except.bind, pure, Except.pure]

theorem Document.exists_read_of_status {st : Status} (h : status fs path scopes = .ok st) (hst : st ≠ .missing) :
    ∃ bs, fs.read path = .ok bs := by
  cases hr : fs.read path with
  | ok bs => exact ⟨bs, rfl⟩
  | error e =>
    unfold status FileSystem.readText at h
    rw [hr] at h
    cases e <;> simp_all [bind, Except.bind]

end ScenarioDocs
