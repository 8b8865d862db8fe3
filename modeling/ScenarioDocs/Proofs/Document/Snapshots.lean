import ScenarioDocs.Document.Renderer

/-!
# What a run stores

A run hands its sink one snapshot after the other, each with one record more
than the last, and stops at the first that is not stored. So the way in which
records are divided into scopes changes nothing but the number of scopes.
-/

namespace ScenarioDocs

def Sink.storeAll {σ : Type} (sink : Sink σ) : List Text → σ → Except Error Unit × σ
  | [], state => (.ok (), state)
  | t :: ts, state =>
    match sink t state with
    | (.ok (), state) => sink.storeAll ts state
    | (.error e, state) => (.error e, state)

namespace Document

def snapshotsFrom (buffer : Text) : List Scenario → List Text
  | [] => []
  | s :: rest => (buffer ++ block s) :: snapshotsFrom (buffer ++ block s) rest

def snapshots (scopes : List Scope) : List Text :=
  if scenarios scopes = [] then [heading] else snapshotsFrom heading (scenarios scopes)

def report (scopes : List Scope) : Report where
  scopes := scopes.length
  records := (scenarios scopes).length
  failureRecords := (scenarios scopes).countP (·.failedStates ≠ [])

variable {buffer : Text} {ss ss' : List Scenario} {scope : Scope} {scopes : List Scope}

@[simp] theorem scenarios_nil : scenarios [] = [] := rfl

@[simp] theorem scenarios_cons : scenarios (scope :: scopes) = scope.scenarios ++ scenarios scopes :=
  List.flatMap_cons

theorem snapshotsFrom_append :
    snapshotsFrom buffer (ss ++ ss') = snapshotsFrom buffer ss ++ snapshotsFrom (buffer ++ ss.flatMap block) ss' := by
  induction ss generalizing buffer with
  | nil => simp [snapshotsFrom]
  | cons s ss ih => simp [snapshotsFrom, ih]

@[simp] theorem length_snapshotsFrom : (snapshotsFrom buffer ss).length = ss.length := by
  induction ss generalizing buffer with
  | nil => rfl
  | cons s ss ih => simp [snapshotsFrom, ih]

theorem length_snapshots (scopes : List Scope) : (snapshots scopes).length = max (scenarios scopes).length 1 := by
  unfold snapshots
  split
  · rename_i h
    simp [h]
  · rename_i h
    have := List.length_pos_iff.2 h
    rw [length_snapshotsFrom]
    omega

theorem getElem?_snapshotsFrom {i : Nat} (h : i < ss.length) :
    (snapshotsFrom buffer ss)[i]? = some (buffer ++ (ss.take (i + 1)).flatMap block) := by
  induction ss generalizing buffer i with
  | nil => cases h
  | cons s ss ih =>
    cases i with
    | zero => simp [snapshotsFrom]
    | succ i =>
      rw [snapshotsFrom, List.getElem?_cons_succ, ih (Nat.lt_of_succ_lt_succ h), List.take_succ_cons,
        List.flatMap_cons, List.append_assoc]

theorem getElem?_snapshots {i : Nat} (h : i < (scenarios scopes).length) :
    (snapshots scopes)[i]? = some (ofScenarios ((scenarios scopes).take (i + 1))) := by
  have hne : scenarios scopes ≠ [] := List.length_pos_iff.1 (Nat.zero_lt_of_lt h)
  rw [snapshots, if_neg hne, getElem?_snapshotsFrom h, ofScenarios]

theorem getLast?_snapshots (scopes : List Scope) :
    (snapshots scopes).getLast? = some (ofScenarios (scenarios scopes)) := by
  by_cases h : scenarios scopes = []
  · simp [snapshots, h, ofScenarios]
  · have hpos := List.length_pos_iff.2 h
    rw [List.getLast?_eq_getElem?, length_snapshots, getElem?_snapshots (by omega), List.take_of_length_le (by omega)]

theorem getLast?_take_snapshots (scopes : List Scope) {i : Nat} (hi : 0 < i) (hle : i ≤ (scenarios scopes).length) :
    ((snapshots scopes).take i).getLast? = some (ofScenarios ((scenarios scopes).take i)) := by
  obtain ⟨j, rfl⟩ := Nat.exists_eq_add_of_lt hi
  rw [Nat.zero_add] at hle ⊢
  rw [List.getLast?_take, if_neg (Nat.succ_ne_zero j), Nat.add_sub_cancel, getElem?_snapshots hle, Option.some_or]

end Document

/-! ## The renderer -/

section
variable {σ : Type} (sink : Sink σ)

theorem Sink.storeAll_append (ts us : List Text) (state : σ) :
    sink.storeAll (ts ++ us) state =
      match sink.storeAll ts state with
      | (.ok (), state) => sink.storeAll us state
      | (.error e, state) => (.error e, state) := by
  induction ts generalizing state with
  | nil => rfl
  | cons t ts ih =>
    rw [List.cons_append, storeAll, storeAll]
    split
    · rw [ih]
    · rfl

namespace Renderer

def pushAll (r : Renderer) (ss : List Scenario) : Renderer := ss.foldl push r

theorem buffer_pushAll (r : Renderer) (ss : List Scenario) :
    (r.pushAll ss).buffer = r.buffer ++ ss.flatMap Document.block := by
  induction ss generalizing r with
  | nil => simp [pushAll]
  | cons s ss ih =>
    rw [pushAll, List.foldl_cons, ← pushAll, ih]
    simp [push]

theorem report_push (r : Renderer) (s : Scenario) :
    (r.push s).report =
      ⟨r.report.scopes, r.report.records + 1, r.report.failureRecords + if s.failedStates ≠ [] then 1 else 0⟩ := by
  have hmode : s.mode = .successAndFailure ↔ s.failedStates ≠ [] := by
    cases h : s.failedStates <;> simp [Scenario.mode, h]
  simp only [push, hmode]

theorem report_pushAll (r : Renderer) (ss : List Scenario) :
    (r.pushAll ss).report =
      ⟨r.report.scopes, r.report.records + ss.length,
        r.report.failureRecords + ss.countP (·.failedStates ≠ [])⟩ := by
  induction ss generalizing r with
  | nil => rfl
  | cons s ss ih =>
    rw [pushAll, List.foldl_cons, ← pushAll, ih, report_push]
    simp only [List.length_cons, List.countP_cons, decide_eq_true_eq, Report.mk.injEq]
    refine ⟨trivial, by omega, ?_⟩
    split <;> omega

theorem appendAll_eq (r : Renderer) (ss : List Scenario) (state : σ) :
    r.appendAll sink ss state =
      match sink.storeAll (Document.snapshotsFrom r.buffer ss) state with
      | (.ok (), state) => (.ok (r.pushAll ss), state)
      | (.error e, state) => (.error e, state) := by
  induction ss generalizing r state with
  | nil => rfl
  | cons s ss ih =>
    rw [appendAll, append, Document.snapshotsFrom, Sink.storeAll]
    have hb : (r.push s).buffer = r.buffer ++ Document.block s := rfl
    rw [hb]
    rcases sink (r.buffer ++ Document.block s) state with ⟨_ | _, state'⟩
    · rfl
    · exact ih (r.push s) state'

def pushScopes (r : Renderer) (scopes : List Scope) : Renderer :=
  scopes.foldl (fun r scope => r.beginScope.pushAll scope.scenarios) r

theorem report_pushScopes (r : Renderer) (scopes : List Scope) :
    (r.pushScopes scopes).report =
      ⟨r.report.scopes + (Document.report scopes).scopes, r.report.records + (Document.report scopes).records,
        r.report.failureRecords + (Document.report scopes).failureRecords⟩ := by
  induction scopes generalizing r with
  | nil => rfl
  | cons scope scopes ih =>
    rw [pushScopes, List.foldl_cons, ← pushScopes, ih, report_pushAll]
    simp only [Document.report, beginScope, Document.scenarios_cons, List.length_cons, List.length_append,
      List.countP_append, Report.mk.injEq]
    omega

theorem buffer_pushScopes (r : Renderer) (scopes : List Scope) :
    (r.pushScopes scopes).buffer = r.buffer ++ (Document.scenarios scopes).flatMap Document.block := by
  induction scopes generalizing r with
  | nil => simp [pushScopes]
  | cons scope scopes ih =>
    rw [pushScopes, List.foldl_cons, ← pushScopes, ih, buffer_pushAll, Document.scenarios_cons,
      List.flatMap_append, List.append_assoc]
    rfl

theorem renderScopes_eq (r : Renderer) (scopes : List Scope) (state : σ) :
    r.renderScopes sink scopes state =
      match sink.storeAll (Document.snapshotsFrom r.buffer (Document.scenarios scopes)) state with
      | (.ok (), state) => (.ok (r.pushScopes scopes), state)
      | (.error e, state) => (.error e, state) := by
  induction scopes generalizing r state with
  | nil => rfl
  | cons scope scopes ih =>
    rw [renderScopes, appendAll_eq, Document.scenarios_cons, Document.snapshotsFrom_append, Sink.storeAll_append]
    have hb : r.beginScope.buffer = r.buffer := rfl
    rw [hb]
    rcases sink.storeAll (Document.snapshotsFrom r.buffer scope.scenarios) state with ⟨_ | _, state'⟩
    · rfl
    · simp only [ih, buffer_pushAll, hb]
      rfl

end Renderer

/-- A run stores its snapshots in order. -/
theorem Document.render_eq (scopes : List Scope) (state : σ) :
    render sink scopes state =
      match sink.storeAll (snapshots scopes) state with
      | (.ok (), state) => (.ok (report scopes), state)
      | (.error e, state) => (.error e, state) := by
  have hreport : (Renderer.start.pushScopes scopes).report = report scopes := by
    rw [Renderer.report_pushScopes]
    simp [Renderer.start]
  have hrecords : (report scopes).records = 0 ↔ scenarios scopes = [] := List.length_eq_zero_iff
  have hbuffer : Renderer.start.buffer = heading := rfl
  rw [render, Renderer.renderScopes_eq, hbuffer, snapshots]
  by_cases hs : scenarios scopes = []
  · have hb : (Renderer.start.pushScopes scopes).buffer = heading := by
      rw [Renderer.buffer_pushScopes, hs, hbuffer, List.flatMap_nil, List.append_nil]
    rw [if_pos hs, hs]
    simp only [snapshotsFrom, Sink.storeAll, Renderer.finish, hreport, hrecords, hs, if_true, hb]
    rcases sink heading state with ⟨_ | _, state'⟩ <;> rfl
  · rw [if_neg hs]
    rcases sink.storeAll (snapshotsFrom heading (scenarios scopes)) state with ⟨_ | _, state'⟩
    · rfl
    · simp only [Renderer.finish, hreport, hrecords, hs, if_false]

end

/-! ## Documents in memory -/

theorem Memory.storeAll_sink (ts : List Text) (m : Memory) :
    Memory.sink.storeAll ts m = (.ok (), ⟨ts.getLast?.getD m.contents, m.writes + ts.length⟩) := by
  induction ts generalizing m with
  | nil => rfl
  | cons t ts ih =>
    have hstep : Memory.sink.storeAll (t :: ts) m = Memory.sink.storeAll ts ⟨t, m.writes + 1⟩ := rfl
    rw [hstep, ih]
    cases ts with
    | nil => rfl
    | cons u us =>
      rw [List.getLast?_cons_cons, List.getLast?_eq_some_getLast (List.cons_ne_nil u us)]
      simp only [List.length_cons, Option.getD_some, Nat.add_assoc, Nat.add_comm 1]

theorem Document.text_eq (scopes : List Scope) : text scopes = ofScenarios (scenarios scopes) := by
  rw [text, render_eq, Memory.storeAll_sink]
  simp only [getLast?_snapshots, Option.getD_some]

end ScenarioDocs
