import Mathlib.Data.List.DropRight
import ScenarioDocs.Proofs.Document.Interrupted

/-!
# Going on after errors

A caller that holds the renderer itself may go on after a record that could not
be stored. The record stays in the buffer, so the next document that is stored
has it; until then the sink keeps the last document that it took.
-/

namespace ScenarioDocs

variable {errors : Nat → Option Error} {m : Memory}

/-! ## Documents that go on -/

namespace Document

variable {ss ss' : List Scenario}

theorem ofScenarios_mono (h : ss <+: ss') : ofScenarios ss <+: ofScenarios ss' := by
  obtain ⟨rest, rfl⟩ := h
  rw [ofScenarios, ofScenarios, List.flatMap_append, ← List.append_assoc]
  exact List.prefix_append _ _

theorem length_ofScenarios_lt (h : ss <+: ss') (hlt : ss.length < ss'.length) :
    (ofScenarios ss).length < (ofScenarios ss').length := by
  have hne : ofScenarios ss ≠ ofScenarios ss' := by
    rw [List.prefix_iff_eq_take.1 h]
    exact ofScenarios_take_ne hlt
  exact Nat.lt_of_le_of_ne (ofScenarios_mono h).length_le fun heq =>
    hne ((ofScenarios_mono h).eq_of_length heq)

end Document

/-! ## Answers -/

def Sink.answer (errors : Nat → Option Error) (n : Nat) : Except Error Unit :=
  match errors n with
  | some e => .error e
  | none => .ok ()

theorem Memory.failing_eq (text : Text) (n : Nat) (m : Memory) :
    Memory.sink.failing errors text (n, m) =
      (Sink.answer errors (n + 1), n + 1, if errors (n + 1) = none then ⟨text, m.writes + 1⟩ else m) := by
  rw [Sink.failing, Sink.answer]
  cases errors (n + 1) <;> rfl

namespace Renderer

/-- The number of answers up to the last that is not an error. -/
def lastStored (answers : List (Except Error Unit)) : Nat :=
  (answers.rdropWhile fun answer => !answer.isOk).length

section
variable {answers more : List (Except Error Unit)}

theorem lastStored_concat_ok : lastStored (answers ++ [.ok ()]) = answers.length + 1 := by
  rw [lastStored, List.rdropWhile_concat_neg _ _ _ (by decide), List.length_append]
  rfl

theorem lastStored_concat_error (e : Error) : lastStored (answers ++ [.error e]) = lastStored answers := by
  rw [lastStored, List.rdropWhile_concat_pos _ _ _ rfl, lastStored]

theorem lastStored_le (answers : List (Except Error Unit)) : lastStored answers ≤ answers.length :=
  (List.rdropWhile_prefix _ _).length_le

theorem lastStored_append_cases (answers more : List (Except Error Unit)) :
    lastStored (answers ++ more) = lastStored answers ∨ answers.length < lastStored (answers ++ more) := by
  induction more using List.reverseRecOn with
  | nil => exact .inl (by rw [List.append_nil])
  | append_singleton more answer ih =>
    rw [← List.append_assoc]
    cases answer with
    | ok =>
      rw [lastStored_concat_ok, List.length_append]
      exact .inr (by omega)
    | error e =>
      rw [lastStored_concat_error]
      exact ih

theorem lastStored_le_append (answers more : List (Except Error Unit)) :
    lastStored answers ≤ lastStored (answers ++ more) := by
  have hle := lastStored_le answers
  rcases lastStored_append_cases answers more with h | h
  · exact Nat.le_of_eq h.symm
  · exact Nat.le_trans hle (Nat.le_of_lt h)

theorem lastStored_of_getLast?_ok (h : answers.getLast? = some (.ok ())) : lastStored answers = answers.length := by
  obtain ⟨init, rfl⟩ := List.getLast?_eq_some_iff.1 h
  rw [lastStored_concat_ok, List.length_append, List.length_singleton]

theorem lastStored_of_getLast?_error {e : Error} (h : answers.getLast? = some (.error e)) :
    lastStored answers < answers.length := by
  obtain ⟨init, rfl⟩ := List.getLast?_eq_some_iff.1 h
  rw [lastStored_concat_error, List.length_append, List.length_singleton]
  exact Nat.lt_succ_of_le (lastStored_le init)

end

/-! ## Calls -/

inductive Call
  | beginScope
  | append (s : Scenario)
  deriving DecidableEq

namespace Call

def record? : Call → Option Scenario
  | .beginScope => none
  | .append s => some s

def records (calls : List Call) : List Scenario := calls.filterMap record?

def report (calls : List Call) : Report where
  scopes := calls.count .beginScope
  records := (records calls).length
  failureRecords := (records calls).countP (·.failedStates ≠ [])

variable (calls : List Call) (s : Scenario)

theorem records_beginScope : records (calls ++ [.beginScope]) = records calls := by
  simp [records, record?]

theorem records_append : records (calls ++ [.append s]) = records calls ++ [s] := by
  simp [records, record?]

theorem report_beginScope :
    report (calls ++ [.beginScope]) = { report calls with scopes := (report calls).scopes + 1 } := by
  rw [report, records_beginScope, List.count_append]
  rfl

theorem report_append :
    report (calls ++ [.append s]) =
      ⟨(report calls).scopes, (report calls).records + 1,
        (report calls).failureRecords + if s.failedStates ≠ [] then 1 else 0⟩ := by
  simp [report, records_append, List.count_append, List.countP_append, List.countP_singleton]

theorem report_of_nil {calls : List Call} (h : records calls = []) :
    report calls = ⟨calls.count .beginScope, 0, 0⟩ := by
  rw [report, h]
  rfl

end Call

structure Run (σ : Type) where
  renderer : Renderer
  state : σ
  answers : List (Except Error Unit)

namespace Run

variable {σ : Type} (sink : Sink σ)

def next (run : Run σ) : Call → Run σ
  | .beginScope => { run with renderer := run.renderer.beginScope }
  | .append s =>
    let (answer, renderer, state) := run.renderer.append sink s run.state
    ⟨renderer, state, run.answers ++ [answer]⟩

/-- The calls in order, whatever their answers are. -/
def after (calls : List Call) (state : σ) : Run σ := calls.foldl (next sink) ⟨.start, state, []⟩

theorem after_concat (calls : List Call) (c : Call) (state : σ) :
    after sink (calls ++ [c]) state = (after sink calls state).next sink c := by
  rw [after, List.foldl_append]
  rfl

structure Stands (errors : Nat → Option Error) (m : Memory) (calls : List Call) (run : Run (Nat × Memory)) :
    Prop where
  buffer : run.renderer.buffer = Document.ofScenarios (Call.records calls)
  report : run.renderer.report = Call.report calls
  answers : run.answers = (List.range (Call.records calls).length).map fun i => Sink.answer errors (i + 1)
  count : run.state.1 = (Call.records calls).length
  contents : run.state.2.contents =
    if lastStored run.answers = 0 then m.contents
    else Document.ofScenarios ((Call.records calls).take (lastStored run.answers))
  writes : run.state.2.writes = m.writes + run.answers.countP (·.isOk)

theorem Stands.length_answers {calls : List Call} {run : Run (Nat × Memory)} (h : Stands errors m calls run) :
    run.answers.length = (Call.records calls).length := by
  rw [h.answers, List.length_map, List.length_range]

theorem Stands.start (errors : Nat → Option Error) (m : Memory) : Stands errors m [] ⟨.start, (0, m), []⟩ where
  buffer := (List.append_nil _).symm
  report := rfl
  answers := rfl
  count := rfl
  contents := rfl
  writes := rfl

theorem Stands.beginScope {calls : List Call} {run : Run (Nat × Memory)} (h : Stands errors m calls run) :
    Stands errors m (calls ++ [.beginScope]) { run with renderer := run.renderer.beginScope } where
  buffer := by rw [Call.records_beginScope]; exact h.buffer
  report := by rw [Call.report_beginScope, ← h.report]; rfl
  answers := by rw [Call.records_beginScope]; exact h.answers
  count := by rw [Call.records_beginScope]; exact h.count
  contents := by rw [Call.records_beginScope]; exact h.contents
  writes := h.writes

theorem next_append (run : Run (Nat × Memory)) (s : Scenario) :
    run.next (Memory.sink.failing errors) (.append s) =
      ⟨run.renderer.push s,
        (run.state.1 + 1, if errors (run.state.1 + 1) = none
          then ⟨(run.renderer.push s).buffer, run.state.2.writes + 1⟩ else run.state.2),
        run.answers ++ [Sink.answer errors (run.state.1 + 1)]⟩ := by
  obtain ⟨r, ⟨n, m⟩, answers⟩ := run
  simp only [next, append, Memory.failing_eq]

theorem Stands.append {calls : List Call} {run : Run (Nat × Memory)} (h : Stands errors m calls run) (s : Scenario) :
    Stands errors m (calls ++ [.append s]) (run.next (Memory.sink.failing errors) (.append s)) := by
  have hpush : (run.renderer.push s).buffer = Document.ofScenarios (Call.records calls ++ [s]) := by
    rw [push, h.buffer, Document.ofScenarios, Document.ofScenarios, List.flatMap_append, List.flatMap_singleton,
      List.append_assoc]
  have hlength := h.length_answers
  rw [next_append]
  constructor
  case buffer => rw [Call.records_append, hpush]
  case report => rw [report_push, h.report, Call.report_append]
  case answers =>
    rw [Call.records_append, List.length_append, List.length_singleton, List.range_succ, List.map_append, ← h.answers,
      h.count]
    rfl
  case count => rw [Call.records_append, List.length_append, h.count]; rfl
  case contents =>
    rw [Call.records_append, hpush, Sink.answer]
    cases errors (run.state.1 + 1) with
    | none =>
      -- the whole buffer has been stored
      have hall : (Call.records calls ++ [s]).take (run.answers.length + 1) = Call.records calls ++ [s] :=
        List.take_of_length_le (by simp [hlength])
      simp only [if_true, lastStored_concat_ok, Nat.succ_ne_zero, if_false, hall]
    | some e =>
      have hle := hlength ▸ lastStored_le run.answers
      simp only [reduceCtorEq, if_false, lastStored_concat_error, List.take_append_of_le_length hle]
      exact h.contents
  case writes =>
    rw [List.countP_append, ← Nat.add_assoc, ← h.writes, Sink.answer]
    cases errors (run.state.1 + 1) <;> rfl

theorem stands_after (errors : Nat → Option Error) (m : Memory) (calls : List Call) :
    Stands errors m calls (after (Memory.sink.failing errors) calls (0, m)) := by
  induction calls using List.reverseRecOn with
  | nil => exact .start errors m
  | append_singleton calls c ih =>
    rw [after_concat]
    cases c with
    | beginScope => exact ih.beginScope
    | append s => exact ih.append s

/-! ## Later documents -/

section
variable {calls more : List Call} {run later : Run (Nat × Memory)} (h : Stands errors m calls run)
include h

theorem Stands.exists_answers (h' : Stands errors m (calls ++ more) later) :
    ∃ answers, later.answers = run.answers ++ answers := by
  rw [h.answers, h'.answers, Call.records, List.filterMap_append, List.length_append, List.range_add, List.map_append]
  exact ⟨_, rfl⟩

theorem Stands.lastStored_le : lastStored run.answers ≤ (Call.records calls).length :=
  h.length_answers ▸ Renderer.lastStored_le run.answers

theorem Stands.take_mono (h' : Stands errors m (calls ++ more) later) :
    (Call.records calls).take (lastStored run.answers) <+:
      (Call.records (calls ++ more)).take (lastStored later.answers) := by
  obtain ⟨answers, hanswers⟩ := h.exists_answers h'
  have hrecords : Call.records (calls ++ more) = Call.records calls ++ Call.records more := List.filterMap_append
  rw [hrecords, ← List.take_append_of_le_length h.lastStored_le, hanswers]
  exact List.take_prefix_take_left (lastStored_le_append _ _)

/-- What the sink has taken is what every later document begins with. -/
theorem Stands.contents_mono (h' : Stands errors m (calls ++ more) later) (hpos : lastStored run.answers ≠ 0) :
    run.state.2.contents <+: later.state.2.contents ∧
      (lastStored run.answers < lastStored later.answers →
        run.state.2.contents.length < later.state.2.contents.length) := by
  obtain ⟨answers, hanswers⟩ := h.exists_answers h'
  have hle : lastStored run.answers ≤ lastStored later.answers := hanswers ▸ lastStored_le_append _ _
  rw [h.contents, h'.contents, if_neg hpos, if_neg (by omega)]
  refine ⟨Document.ofScenarios_mono (h.take_mono h'), fun hlt => ?_⟩
  apply Document.length_ofScenarios_lt (h.take_mono h')
  rwa [List.length_take_of_le h.lastStored_le, List.length_take_of_le h'.lastStored_le]

theorem Stands.contents_of_ok (hlast : run.answers.getLast? = some (.ok ())) :
    run.state.2.contents = Document.ofScenarios (Call.records calls) := by
  have hall := lastStored_of_getLast?_ok hlast
  have hne : run.answers.length ≠ 0 := by
    intro hnil
    rw [List.length_eq_zero_iff.1 hnil] at hlast
    cases hlast
  rw [h.contents, hall, if_neg hne, h.length_answers, List.take_length]

theorem Stands.contents_of_error {e : Error} (hlast : run.answers.getLast? = some (.error e))
    (hpos : lastStored run.answers ≠ 0) :
    run.state.2.contents.length < (Document.ofScenarios (Call.records calls)).length := by
  have hlt := lastStored_of_getLast?_error hlast
  rw [h.length_answers] at hlt
  rw [h.contents, if_neg hpos]
  apply Document.length_ofScenarios_lt (List.take_prefix _ _)
  rwa [List.length_take_of_le h.lastStored_le]

/-! ## Finishing -/

theorem Stands.finish_nil (hnil : Call.records calls = []) :
    run.renderer.finish (Memory.sink.failing errors) run.state =
      ((Sink.answer errors 1).map fun _ => Call.report calls,
        1, if errors 1 = none then ⟨Document.heading, m.writes + 1⟩ else m) := by
  have hanswers : run.answers = [] := by
    rw [h.answers, hnil]
    rfl
  have hstate : run.state = (0, m) := by
    have hcontents := h.contents
    have hwrites := h.writes
    rw [hanswers] at hcontents hwrites
    refine Prod.ext (h.count.trans (by rw [hnil]; rfl)) ?_
    obtain ⟨contents, writes⟩ := m
    exact congrArg₂ Memory.mk hcontents hwrites
  have hbuffer : run.renderer.buffer = Document.heading := by
    rw [h.buffer, hnil, Document.ofScenarios, List.flatMap_nil, List.append_nil]
  rw [finish, h.report, Call.report_of_nil hnil, if_pos rfl, hstate, hbuffer, Memory.failing_eq, Sink.answer]
  cases errors (0 + 1) <;> rfl

theorem Stands.finish_cons (hne : Call.records calls ≠ []) :
    run.renderer.finish (Memory.sink.failing errors) run.state = (.ok (Call.report calls), run.state) := by
  have hrecords : (Call.report calls).records ≠ 0 := fun hzero => hne (List.length_eq_zero_iff.1 hzero)
  rw [finish, h.report, if_neg hrecords]

end

/-- Whatever calls fail, the sink holds the records up to the last that it took, each document
longer than those before it, and a run that has records ends well. -/
structure HoldsLast (errors : Nat → Option Error) (m : Memory) (calls : List Call) (run : Run (Nat × Memory)) :
    Prop where
  answers : run.answers = (List.range (Call.records calls).length).map fun i => Sink.answer errors (i + 1)
  contents : run.state.2.contents = if lastStored run.answers = 0 then m.contents
    else Document.heading ++ ((Call.records calls).take (lastStored run.answers)).flatMap Document.block
  grows : ∀ more, lastStored run.answers ≠ 0 →
    let later := after (Memory.sink.failing errors) (calls ++ more) (0, m)
    run.state.2.contents <+: later.state.2.contents ∧
      (lastStored run.answers < lastStored later.answers →
        run.state.2.contents.length < later.state.2.contents.length)
  beginScope : (after (Memory.sink.failing errors) (calls ++ [.beginScope]) (0, m)).state = run.state
  finish_nil : Call.records calls = [] → run.renderer.finish (Memory.sink.failing errors) run.state =
    ((Sink.answer errors 1).map fun _ => ⟨calls.count .beginScope, 0, 0⟩,
      1, if errors 1 = none then ⟨Document.heading, m.writes + 1⟩ else m)
  finish_cons : Call.records calls ≠ [] → run.renderer.finish (Memory.sink.failing errors) run.state =
    (.ok ⟨calls.count .beginScope, (Call.records calls).length,
      (Call.records calls).countP (·.failedStates ≠ [])⟩, run.state)
  /-- The last record is in the document if it was taken, and only then. -/
  whole : Call.records calls ≠ [] → run.answers.getLast? = some (.ok ()) →
    run.state.2.contents = Document.heading ++ (Call.records calls).flatMap Document.block
  shorter : Call.records calls ≠ [] → ∀ e, run.answers.getLast? = some (.error e) → lastStored run.answers ≠ 0 →
    run.state.2.contents.length < (Document.heading ++ (Call.records calls).flatMap Document.block).length

theorem after_holds_last_stored (errors : Nat → Option Error) (m : Memory) (calls : List Call) :
    HoldsLast errors m calls (after (Memory.sink.failing errors) calls (0, m)) := by
  have h := stands_after errors m calls
  constructor
  case answers => exact h.answers
  case contents => exact h.contents
  case grows => exact fun more => h.contents_mono (stands_after errors m (calls ++ more))
  case beginScope =>
    rw [after_concat]
    rfl
  case finish_nil =>
    intro hnil
    rw [h.finish_nil hnil, Call.report_of_nil hnil]
  case finish_cons => exact h.finish_cons
  case whole => exact fun _ => h.contents_of_ok
  case shorter => exact fun _ _ => h.contents_of_error

/-- The first and the last record are not stored; the first is in the document of the second. -/
theorem after_holds_last_stored_between :
    let errors : Nat → Option Error := fun n => if n = 2 then none else some Sink.injected
    let run := after (Memory.sink.failing errors) [.beginScope, .append .blank, .append .blank, .append .blank]
      (0, ⟨"before", 7⟩)
    run.answers = [.error Sink.injected, .ok (), .error Sink.injected] ∧
      run.state.2.contents = Document.heading ++ [.blank, .blank].flatMap Document.block ∧
      run.renderer.finish (Memory.sink.failing errors) run.state = (.ok ⟨1, 3, 0⟩, run.state) := by
  intro errors run
  have h := after_holds_last_stored errors ⟨"before", 7⟩
    [.beginScope, .append .blank, .append .blank, .append .blank]
  exact ⟨h.answers, h.contents, h.finish_cons (by decide)⟩

end Run

end Renderer

end ScenarioDocs
