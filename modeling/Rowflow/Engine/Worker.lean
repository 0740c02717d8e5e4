import Rowflow.Engine.Activity

/-!
# Workers

A worker carries one copy of a transform through its life. Before the run it is initialized and then
waits. Started, it calls the transform again and again as long as the stop flag is down, until the
transform has nothing left to do or fails; a row error diverts the row that the failing call read
last. However it ends, it closes its row sets, disposes of the transform and reports; a failure
raises the stop flag first. A worker that is abandoned before it starts is closed and disposed of
without a report.
-/

namespace Rowflow

/-- How a worker leaves. -/
inductive Fate where
  | ran (status : WorkerStatus) (error : Option String)
  /-- It was never started. -/
  | abandoned
  deriving DecidableEq, Repr, Inhabited

/-- Where a worker is in its life. -/
inductive Phase (σ : Type) where
  | initializing (activity : Activity σ (Except TransformError Unit))
  /-- Waits to be started or abandoned. -/
  | initialized (result : Except TransformError Unit)
  | starting
  /-- The stop flag is looked at before the next call. -/
  | checking
  /-- In a call of the transform. -/
  | working (activity : Activity σ (Except TransformError Bool))
  /-- The call has given its answer. -/
  | judging (result : Except TransformError Bool)
  /-- Diverts the current row. -/
  | diverting (message : String) (activity : Activity σ (Except TransformError Unit))
  | failing (message : String)
  /-- Closes its row sets. -/
  | closing (fate : Fate) (rest : List Nat)
  | disposing (fate : Fate) (activity : Activity σ Unit)
  | reporting (status : WorkerStatus) (error : Option String)
  /-- Broke down outside the calls of the transform. -/
  | crashed (panic : Panic)
  | sending (summary : Summary)
  | ended

/-- One copy of a transform at work. -/
structure Worker (σ : Type) where
  context : Context
  state : σ
  phase : Phase σ

namespace Worker

variable {σ : Type} [Transform σ]

/-- A worker about to be initialized. -/
def new (context : Context) (state : σ) : Worker σ :=
  ⟨context, state, .initializing (.run (Transform.init state))⟩

/-- The worker's key. -/
def key (w : Worker σ) : WorkerKey := w.context.key

/-- What follows from the end of the initialization. -/
def afterInit (s : Shared) (c : Context) (state : σ) (result : Except TransformError Unit) :
    Shared × Worker σ :=
  (s.record c.key (.initialized result), ⟨c, state, .initialized result⟩)

/-- Where a worker goes that leaves. -/
def leave (c : Context) (fate : Fate) : Phase σ := .closing fate c.written

/-- What follows from the answer of a call. -/
def judge (s : Shared) (c : Context) (result : Except TransformError Bool) : Context × Phase σ :=
  match result with
  | .ok true => (c, .checking)
  | .ok false => (c, leave c (.ran (if s.stopped then .stopped else .done) none))
  | .error e =>
    if e.isStop then (c, leave c (.ran .stopped none))
    else
      match e with
      | .row message fields codes =>
        if c.diverts then
          let row := c.currentRow
          let c := { c with currentRow := none }
          match c.inputLayout, row with
          | some layout, some row =>
            (c, .diverting message
              (.run (.divert ⟨layout, row⟩ ⟨1, message, fields, codes⟩ .finish)))
          | _, _ => (c, .failing (message ++ ": " ++ message))
        else (c, .failing message)
      | e => (c, .failing e.render)

/-- What follows from the end of a diversion. -/
def afterDiversion (c : Context) (message : String) (result : Except TransformError Unit) :
    Phase σ :=
  match result with
  | .ok () => .checking
  | .error e =>
    if e.isStop then leave c (.ran .stopped none)
    else .failing (message ++ ": " ++ e.render)

/-- What follows the disposal of the transform. -/
def afterDisposal : Fate → Phase σ
  | .ran status error => .reporting status error
  | .abandoned => .ended

/-- One step of a worker that is in an activity. -/
def perform {α : Type} (d : Activity.Desk σ) (a : Activity σ α) (wrap : Activity σ α → Phase σ) :
    Shared × Worker σ :=
  match a.step d with
  | (⟨s, c, state⟩, a) => (s, ⟨c, state, wrap a⟩)

/-- One step of a worker. -/
def step (s : Shared) (w : Worker σ) : Shared × Worker σ :=
  let ⟨c, state, phase⟩ := w
  match phase with
  | .initializing (.done r) => afterInit s c state r
  | .initializing (.broken p) => afterInit s c state (.error (.fatal p.render))
  | .initializing a => perform ⟨s, c, state⟩ a .initializing
  | .initialized r => (s, ⟨c, state, .initialized r⟩)
  | .starting =>
    ((s.record c.key .started).say (.workerStarted s.pipeline c.spec.id c.copy),
      ⟨c, state, .checking⟩)
  | .checking =>
    if s.stopped then (s, ⟨c, state, leave c (.ran .stopped none)⟩)
    else (s, ⟨{ c with currentRow := none }, state, .working (.run (Transform.process state))⟩)
  | .working (.done r) => (s, ⟨c, state, .judging r⟩)
  | .working (.broken p) => (s, ⟨c, state, .failing ("transform panicked: " ++ p.render)⟩)
  | .working a => perform ⟨s, c, state⟩ a .working
  | .judging r =>
    let (c, phase) := judge s c r
    (s, ⟨c, state, phase⟩)
  | .diverting message (.done r) => (s, ⟨c, state, afterDiversion c message r⟩)
  | .diverting _ (.broken p) => (s, ⟨c, state, .crashed p⟩)
  | .diverting message a => perform ⟨s, c, state⟩ a (.diverting message)
  | .failing message =>
    ((s.say (.workerFailed c.spec.id c.copy message)).requestStop c.name,
      ⟨c, state, leave c (.ran .errored (some message))⟩)
  | .closing fate (i :: rest) => (s.finish i, ⟨c, state, .closing fate rest⟩)
  | .closing fate [] =>
    (s.record c.key .disposed, ⟨c, state, .disposing fate (.run (Transform.dispose state))⟩)
  | .disposing fate (.done ()) => (s, ⟨c, state, afterDisposal fate⟩)
  | .disposing fate (.broken p) =>
    (s.say (.disposePanicked c.spec.id c.copy p.render), ⟨c, state, afterDisposal fate⟩)
  | .disposing fate a => perform ⟨s, c, state⟩ a (.disposing fate)
  | .reporting status error =>
    ((s.say (.workerFinished c.spec.id c.copy status.title c.counters.read c.counters.written
        c.counters.errors)).reach (.finished c.name),
      ⟨c, state, .sending ⟨c.key, status, c.counters, error⟩⟩)
  | .crashed p =>
    (s.requestStop c.name, ⟨c, state, .sending ⟨c.key, .errored, {}, some p.render⟩⟩)
  | .sending summary => ({ s with reports := s.reports ++ [summary] }, ⟨c, state, .ended⟩)
  | .ended => (s, ⟨c, state, .ended⟩)

/-- Whether a step would change nothing. -/
def waits (s : Shared) (w : Worker σ) : Bool :=
  match w.phase with
  | .initializing a => a.waits s w.context
  | .working a => a.waits s w.context
  | .diverting _ a => a.waits s w.context
  | .disposing _ a => a.waits s w.context
  | .initialized _ | .ended => true
  | _ => false

/-- The time at which a worker that waits goes on by itself. -/
def wakesAt? (w : Worker σ) : Option Nat :=
  match w.phase with
  | .initializing a => a.wakesAt?
  | .working a => a.wakesAt?
  | .diverting _ a => a.wakesAt?
  | .disposing _ a => a.wakesAt?
  | _ => none

/-- The result of the initialization, once there is one. -/
def initResult? (w : Worker σ) : Option (Except TransformError Unit) :=
  match w.phase with
  | .initialized r => some r
  | _ => none

/-- Whether the worker has come to its end. -/
def hasEnded (w : Worker σ) : Bool :=
  match w.phase with
  | .ended => true
  | _ => false

end Worker

end Rowflow
