import Mathlib
import ScenarioDocs.Proofs.Document.Decodable
import ScenarioDocs.Proofs.Document.Replacing

/-!
# Interrupted runs

A run that is interrupted leaves the snapshots before the call that failed, so
the last of them is what the document holds: less than the whole document, or
the document as it was.
-/

namespace ScenarioDocs

def Sink.injectedAt (call : Nat) : Nat → Option Error := fun n => if n = call then some injected else none

variable {errors : Nat → Option Error} {n k : Nat} {e : Error} {t : Text} {ts done rest : List Text}

section
variable {σ : Type} {sink : Sink σ} {state state' : σ}

theorem Sink.storeAll_failing (hnone : ∀ j, n < j → j ≤ n + ts.length → errors j = none)
    (h : sink.storeAll ts state = (.ok (), state')) :
    (sink.failing errors).storeAll ts (n, state) = (.ok (), (n + ts.length, state')) := by
  induction ts generalizing n state with
  | nil =>
    cases h
    rfl
  | cons t ts ih =>
    rw [storeAll] at h
    rw [storeAll, failing, hnone (n + 1) (by omega) (by simp)]
    rcases hs : sink t state with ⟨_ | _, state1⟩
    · rw [hs] at h
      cases h
    · rw [hs] at h
      rw [List.length_cons, Nat.add_comm ts.length, ← Nat.add_assoc]
      exact ih (fun j hj hj' => hnone j (by omega) (by simp; omega)) h

theorem Sink.storeAll_failing_error {i : Nat} (hi : i < ts.length)
    (hnone : ∀ j, n < j → j ≤ n + i → errors j = none) (herror : errors (n + i + 1) = some e)
    (h : sink.storeAll (ts.take i) state = (.ok (), state')) :
    (sink.failing errors).storeAll ts (n, state) = (.error e, (n + i + 1, state')) := by
  have hlength : (ts.take i).length = i := List.length_take_of_le (Nat.le_of_lt hi)
  have hstored := storeAll_failing (by rwa [hlength]) h
  rw [hlength] at hstored
  rw [← List.take_append_drop i ts, List.drop_eq_getElem_cons hi, storeAll_append, hstored]
  simp only [storeAll, failing, herror]

end

/-! ## Documents in files -/

namespace FileSink

variable {s : FileSink} {fs fs' : FileSystem}

/-- A run that is interrupted has stored some texts. If these are none, the document keeps its
status; otherwise it reads as the last of them. -/
theorem storeAll_error (hp : s.Plain fs)
    (h : (s.sink.failing errors).storeAll ts (n, fs) = (.error e, (k, fs'))) :
    ∃ done rest, ts = done ++ rest ∧ rest ≠ [] ∧ k = n + done.length + 1 ∧
      (done = [] → ∀ scopes status,
        Document.status fs s.path scopes = .ok status → Document.status fs' s.path scopes = .ok status) ∧
      ∀ t, done.getLast? = some t → ∀ scopes,
        Document.status fs' s.path scopes = .ok (if t = Document.text scopes then .current else .stale) := by
  induction ts generalizing n fs with
  | nil => cases h
  | cons t ts ih =>
    rw [Sink.storeAll, Sink.failing] at h
    cases herror : errors (n + 1) with
    | some e' =>
      simp only [herror] at h
      cases h
      exact ⟨[], t :: ts, rfl, by simp, rfl, fun _ _ _ => id, by simp⟩
    | none =>
      simp only [herror] at h
      rcases hsink : s.sink t fs with ⟨_ | _, fs1⟩
      · simp only [hsink] at h
        cases h
        exact ⟨[], t :: ts, rfl, by simp, rfl, fun _ _ _ => sink_error hp hsink, by simp⟩
      · simp only [hsink] at h
        obtain ⟨hread, hp1⟩ := sink_ok hp hsink
        obtain ⟨done, rest, rfl, hrest, hk, hnil, hlast⟩ := ih hp1 h
        refine ⟨t :: done, rest, rfl, hrest, by simp only [hk, List.length_cons]; omega, by simp, ?_⟩
        intro t' ht' scopes
        cases done with
        | nil =>
          cases ht'
          exact hnil rfl scopes _ (Document.status_of_read hread)
        | cons u us => exact hlast t' (by rwa [List.getLast?_cons_cons] at ht') scopes

end FileSink

/-! ## Runs -/

namespace Document

variable {scopes : List Scope}

theorem block_ne_nil (r : Scenario) : block r ≠ [] := by
  rw [Scenario.block_eq]
  exact Shown.block_ne_nil r.shown

theorem ofScenarios_take_ne {rs : List Scenario} {i : Nat} (h : i < rs.length) :
    ofScenarios (rs.take i) ≠ ofScenarios rs := by
  intro heq
  obtain ⟨r, tail, hdrop⟩ := List.exists_cons_of_ne_nil (List.drop_eq_nil_iff.not.2 (Nat.not_le.2 h))
  rw [ofScenarios, ofScenarios] at heq
  have hblocks := List.append_cancel_left heq
  rw [← List.take_append_drop i rs, List.flatMap_append, List.take_append_drop, hdrop] at hblocks
  have hnil := List.self_eq_append_right.1 hblocks
  exact block_ne_nil r (List.append_eq_nil_iff.1 hnil).1

theorem render_failing_ok {m : Memory} (h : ∀ j, 1 ≤ j → j ≤ max (scenarios scopes).length 1 → errors j = none) :
    render (Memory.sink.failing errors) scopes (0, m) =
      (.ok (report scopes),
        (max (scenarios scopes).length 1, ⟨text scopes, m.writes + max (scenarios scopes).length 1⟩)) := by
  have hnone : ∀ j, 0 < j → j ≤ 0 + (snapshots scopes).length → errors j = none := by
    intro j hj hj'
    rw [length_snapshots] at hj'
    exact h j hj (by omega)
  rw [render_eq, Sink.storeAll_failing hnone (Memory.storeAll_sink _ m)]
  simp only [getLast?_snapshots, Option.getD_some, length_snapshots, text_eq, Nat.zero_add]

theorem render_failing_error {m : Memory} (hk : 1 ≤ k) (hle : k ≤ max (scenarios scopes).length 1)
    (herror : errors k = some e) (h : ∀ j, 1 ≤ j → j < k → errors j = none) :
    render (Memory.sink.failing errors) scopes (0, m) =
      (.error e, (k, if k = 1 then m
        else ⟨heading ++ ((scenarios scopes).take (k - 1)).flatMap block, m.writes + (k - 1)⟩)) := by
  have hlt : k - 1 < (snapshots scopes).length := by
    rw [length_snapshots]
    omega
  have hcall : 0 + (k - 1) + 1 = k := by omega
  have hrun := Sink.storeAll_failing_error hlt (fun j hj hj' => h j hj (by omega)) (hcall.symm ▸ herror)
    (Memory.storeAll_sink _ m)
  rw [hcall, List.length_take_of_le (Nat.le_of_lt hlt)] at hrun
  rw [render_eq, hrun]
  by_cases hone : k = 1
  · subst hone
    rfl
  · rw [if_neg hone, getLast?_take_snapshots scopes (by omega) (by omega), Option.getD_some, ofScenarios]

theorem render_failing_first {σ : Type} (sink : Sink σ) (state : σ) (herror : errors 1 = some e) :
    render (sink.failing errors) scopes (0, state) = (.error e, (1, state)) := by
  have hpos : 0 < (snapshots scopes).length := by
    rw [length_snapshots]
    omega
  rw [render_eq, Sink.storeAll_failing_error hpos (fun j _ hj => absurd hj (by omega)) herror rfl]

/-- An interrupted run over a file leaves a stale document, or keeps its status. -/
theorem status_render_failing {s : FileSink} {fs fs' : FileSystem} (hp : s.Plain fs)
    (h : render (s.sink.failing errors) scopes (0, fs) = (.error e, (k, fs'))) :
    (1 < k → status fs' s.path scopes = .ok .stale) ∧
      (k = 1 → ∀ st, status fs s.path scopes = .ok st → status fs' s.path scopes = .ok st) := by
  rw [render_eq] at h
  split at h
  · cases h
  · rename_i e' state hstore
    cases h
    obtain ⟨done, rest, hts, hrest, hk, hnil, hlast⟩ := FileSink.storeAll_error hp hstore
    refine ⟨fun hlt => ?_, fun hone => ?_⟩
    · have hdone : (snapshots scopes).take done.length = done := by rw [hts, List.take_left]
      have hlength := congrArg List.length hts
      have hpos := List.length_pos_iff.2 hrest
      rw [length_snapshots, List.length_append] at hlength
      have hle : done.length < (scenarios scopes).length := by omega
      have hstored := getLast?_take_snapshots scopes (show 0 < done.length by omega) (by omega)
      rw [hdone] at hstored
      rw [hlast _ hstored, if_neg]
      rw [text_eq]
      exact ofScenarios_take_ne hle
    · have hempty : done = [] := List.length_eq_zero_iff.1 (by omega)
      exact hnil hempty scopes

/-! ## Two records -/

def two : List Scope := [⟨"s", [.blank, .blank]⟩]

theorem render_two_failing {σ : Type} {sink : Sink σ} {state : σ} (h : ∀ t, (sink t state).1 = .ok ()) :
    ∃ t, render (sink.failing (Sink.injectedAt 2)) two (0, state) =
      (.error Sink.injected, (2, (sink t state).2)) := by
  obtain ⟨t, u, hs⟩ : ∃ t u, snapshots two = [t, u] := List.length_eq_two.1 (length_snapshots two)
  have hlt : 1 < (snapshots two).length := by
    rw [hs]
    exact Nat.lt_succ_self 1
  have hstored : sink.storeAll ((snapshots two).take 1) state = (.ok (), (sink t state).2) := by
    have ht : sink t state = (.ok (), (sink t state).2) := Prod.ext (h t) rfl
    rw [hs, List.take_succ_cons, List.take_zero, Sink.storeAll, ht]
    rfl
  have hnone : ∀ j, 0 < j → j ≤ 0 + 1 → Sink.injectedAt 2 j = none := fun j _ hj => if_neg (by omega)
  refine ⟨t, ?_⟩
  rw [render_eq, Sink.storeAll_failing_error hlt hnone rfl hstored]

/-! ## Any run -/

/-- What a run does and leaves, whichever of its calls fail. -/
structure Interrupts (scopes : List Scope) (errors : Nat → Option Error) : Prop where
  whole : text scopes = heading ++ (scenarios scopes).flatMap block
  ok : ∀ m : Memory, (∀ j, 1 ≤ j → j ≤ max (scenarios scopes).length 1 → errors j = none) →
    render (Memory.sink.failing errors) scopes (0, m) =
      (.ok ⟨scopes.length, (scenarios scopes).length, (scenarios scopes).countP (·.failedStates ≠ [])⟩,
        (max (scenarios scopes).length 1, ⟨text scopes, m.writes + max (scenarios scopes).length 1⟩))
  error : ∀ (m : Memory) (k : Nat) (e : Error), 1 ≤ k → k ≤ max (scenarios scopes).length 1 → errors k = some e →
    (∀ j, 1 ≤ j → j < k → errors j = none) →
    render (Memory.sink.failing errors) scopes (0, m) =
      (.error e, (k, if k = 1 then m
        else ⟨heading ++ ((scenarios scopes).take (k - 1)).flatMap block, m.writes + (k - 1)⟩))
  file_first : ∀ (s : FileSink) (fs : FileSystem) (e : Error), errors 1 = some e →
    render (s.sink.failing errors) scopes (0, fs) = (.error e, (1, fs))
  file_stale : ∀ (s : FileSink) (fs : FileSystem), s.Plain fs → ∀ (k : Nat) (e : Error) (fs' : FileSystem),
    render (s.sink.failing errors) scopes (0, fs) = (.error e, (k, fs')) → 1 < k →
      status fs' s.path scopes = .ok .stale
  file_kept : ∀ (s : FileSink) (fs : FileSystem), s.Plain fs → ∀ (e : Error) (fs' : FileSystem),
    render (s.sink.failing errors) scopes (0, fs) = (.error e, (1, fs')) →
      ∀ st, status fs s.path scopes = .ok st → status fs' s.path scopes = .ok st

theorem render_interrupted (scopes : List Scope) (errors : Nat → Option Error) : Interrupts scopes errors where
  whole := text_eq scopes
  ok _ h := render_failing_ok h
  error _ _ _ hk hle herror h := render_failing_error hk hle herror h
  file_first s fs _ herror := render_failing_first s.sink fs herror
  file_stale _ _ hp _ _ _ h := (status_render_failing hp h).1
  file_kept _ _ hp _ _ h := (status_render_failing hp h).2 rfl

def opened : FileSystem := (FileSink.create "d" FileSystem.fresh).2

theorem render_interrupted_two :
    render (Memory.sink.failing fun _ => none) two (0, .empty) = (.ok ⟨1, 2, 0⟩, (2, ⟨text two, 2⟩)) ∧
    render (Memory.sink.failing (Sink.injectedAt 2)) two (0, .empty) =
      (.error Sink.injected, (2, ⟨heading ++ [.blank].flatMap block, 1⟩)) ∧
    (∃ fs, render ((FileSink.sink ⟨"d", 0⟩).failing (Sink.injectedAt 2)) two (0, opened) =
        (.error Sink.injected, (2, fs)) ∧
      status fs "d" two = .ok .stale) ∧
    ∃ fs, render ((FileSink.sink ⟨"d", 0⟩).failing (Sink.injectedAt 1)) two (0, opened) =
        (.error Sink.injected, (1, fs)) ∧
      status fs "d" two = .ok .missing := by
  have hplain : FileSink.Plain ⟨"d", 0⟩ opened := by
    have htemp : opened.resolve .entry (FileSink.tempPath "d") =
        .ok (.free ((Location.root.child "work").child "d.tmp")) := by cbv
    have hdocument : opened.resolve .entry "d" = .ok (.free ((Location.root.child "work").child "d")) := by cbv
    constructor
    · intro loc target h
      cases htemp.symm.trans h
    · intro loc target h
      cases hdocument.symm.trans h
  refine ⟨(render_interrupted two fun _ => none).ok .empty fun _ _ _ => rfl, ?_, ?_, ?_⟩
  · exact (render_interrupted two (Sink.injectedAt 2)).error .empty 2 _ (by decide) (by decide) rfl
      fun j _ hj => if_neg (by omega)
  · obtain ⟨t, hrun⟩ := @render_two_failing _ (FileSink.sink ⟨"d", 0⟩) opened fun t => by cbv
    exact ⟨_, hrun, (render_interrupted two (Sink.injectedAt 2)).file_stale _ _ hplain _ _ _ hrun (by decide)⟩
  · have hmissing : status opened "d" two = .ok .missing := by
      have hread : opened.readText "d" = .error .notFound := by cbv
      rw [status, hread]
    have hinterrupts := render_interrupted two (Sink.injectedAt 1)
    have hrun := hinterrupts.file_first ⟨"d", 0⟩ opened _ rfl
    exact ⟨opened, hrun, hinterrupts.file_kept _ _ hplain _ _ hrun _ hmissing⟩

def tempLinked : FileSystem :=
  (FileSink.create "d" (FileSystem.fresh.put ((Location.root.child "work").child "d.tmp") (.link "d"))).2

def documentLinked : FileSystem :=
  (FileSink.create "y/../y" ((FileSystem.fresh.put ((Location.root.child "work").child "sub") .directory).put
    ((Location.root.child "work").child "y") (.link "sub"))).2

/-- A link at the temporary file ends up as the document and leads back to it; a link at the
document that is on its own way is replaced by a file, which leads nowhere. -/
theorem interrupted_through_links :
    (∃ fs, render ((FileSink.sink ⟨"d", 0⟩).failing (Sink.injectedAt 2)) two (0, tempLinked) =
        (.error Sink.injected, (2, fs)) ∧
      status fs "d" two = .error (.system .tooManyLinks)) ∧
    ∃ fs, render ((FileSink.sink ⟨"y/../y", 0⟩).failing (Sink.injectedAt 2)) two (0, documentLinked) =
        (.error Sink.injected, (2, fs)) ∧
      status fs "y/../y" two = .error (.system .notDirectory) := by
  constructor
  · obtain ⟨t, hrun⟩ := @render_two_failing _ (FileSink.sink ⟨"d", 0⟩) tempLinked fun t => by cbv
    have hread : (FileSink.sink ⟨"d", 0⟩ t tempLinked).2.readText "d" = .error .tooManyLinks := by cbv
    exact ⟨_, hrun, by rw [status, hread]⟩
  · obtain ⟨t, hrun⟩ := @render_two_failing _ (FileSink.sink ⟨"y/../y", 0⟩) documentLinked fun t => by cbv
    have hread : (FileSink.sink ⟨"y/../y", 0⟩ t documentLinked).2.readText "y/../y" = .error .notDirectory := by
      cbv
    exact ⟨_, hrun, by rw [status, hread]⟩

end Document

end ScenarioDocs
