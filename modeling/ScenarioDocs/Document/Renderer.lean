import ScenarioDocs.Document.Block
import ScenarioDocs.Error

/-!
# Rendering into a sink

A sink stores one document; every call to it hands over the whole document so
far. The renderer calls it after every record, so a run that fails halfway
leaves a document that ends with the last record stored.
-/

namespace ScenarioDocs

/-- Replaces the document that a state `σ` holds. -/
abbrev Sink (σ : Type) := Text → σ → Except Error Unit × σ

structure Memory where
  contents : Text
  writes : Nat
  deriving DecidableEq

def Memory.empty : Memory := ⟨[], 0⟩

def Memory.sink : Sink Memory := fun text m => (.ok (), ⟨text, m.writes + 1⟩)

def Sink.injected : Error := .write "sink" (.described "injected failure")

/-- Counts the calls of a sink; the call with number `n` fails with `errors n`, if there is one. -/
def Sink.failing {σ : Type} (errors : Nat → Option Error) (sink : Sink σ) : Sink (Nat × σ) :=
  fun text (calls, state) =>
    match errors (calls + 1) with
    | some e => (.error e, (calls + 1, state))
    | none =>
      let (result, state) := sink text state
      (result, (calls + 1, state))

def Sink.interrupted {σ : Type} (fails : Nat → Bool) (sink : Sink σ) : Sink (Nat × σ) :=
  sink.failing fun n => if fails n then some injected else none

structure Report where
  scopes : Nat
  records : Nat
  failureRecords : Nat
  deriving DecidableEq

structure Renderer where
  buffer : Text
  report : Report
  deriving DecidableEq

namespace Renderer

def start : Renderer := ⟨Document.heading, ⟨0, 0, 0⟩⟩

def beginScope (r : Renderer) : Renderer :=
  { r with report := { r.report with scopes := r.report.scopes + 1 } }

def push (r : Renderer) (s : Scenario) : Renderer where
  buffer := r.buffer ++ Document.block s
  report :=
    { r.report with
      records := r.report.records + 1
      failureRecords := r.report.failureRecords + if s.mode = .successAndFailure then 1 else 0 }

variable {σ : Type} (sink : Sink σ)

def append (r : Renderer) (s : Scenario) (state : σ) : Except Error Unit × Renderer × σ :=
  let r := r.push s
  let (result, state) := sink r.buffer state
  (result, r, state)

/-- Ends the run; one without records stores the heading alone. -/
def finish (r : Renderer) (state : σ) : Except Error Report × σ :=
  if r.report.records = 0 then
    match sink r.buffer state with
    | (.ok (), state) => (.ok r.report, state)
    | (.error e, state) => (.error e, state)
  else (.ok r.report, state)

def appendAll (r : Renderer) : List Scenario → σ → Except Error Renderer × σ
  | [], state => (.ok r, state)
  | s :: rest, state =>
    match r.append sink s state with
    | (.ok (), r, state) => appendAll r rest state
    | (.error e, _, state) => (.error e, state)

def renderScopes (r : Renderer) : List Scope → σ → Except Error Renderer × σ
  | [], state => (.ok r, state)
  | scope :: rest, state =>
    match r.beginScope.appendAll sink scope.scenarios state with
    | (.ok r, state) => renderScopes r rest state
    | (.error e, state) => (.error e, state)

end Renderer

namespace Document

def render {σ : Type} (sink : Sink σ) (scopes : List Scope) (state : σ) : Except Error Report × σ :=
  match Renderer.start.renderScopes sink scopes state with
  | (.ok r, state) => r.finish sink state
  | (.error e, state) => (.error e, state)

def text (scopes : List Scope) : Text := (render Memory.sink scopes .empty).2.contents

end Document

end ScenarioDocs
