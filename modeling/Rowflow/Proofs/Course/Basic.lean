import Rowflow.Engine.Injection
import Rowflow.Proofs.Course.Deed

/-!
# Courses of a run

A course is an orchestrator in the middle of its run, together with the producers that are out and
with everything its workers have done since the start. What happens to it are events: calls of the
orchestrator and of the producers, a stop from outside, the passing of time, and single steps of
single workers in any order. So the courses reached by lists of events are all states of all runs,
whatever the threads do.
-/

namespace Rowflow

/-- Something that happens to a run. -/
inductive Event where
  | prepare
  /-- A producer for the rows of a transform is asked for. -/
  | produce (id : String)
  /-- A listener is attached to a transform. -/
  | listen (id : String) (listener : Listener)
  | start
  /-- A producer offers an entry to its row set. -/
  | inject (rowSet : Nat) (entry : Entry)
  /-- A producer is finished or dropped. -/
  | finish (rowSet : Nat)
  /-- Somebody raises the stop flag. -/
  | stop
  /-- Time passes. -/
  | pass (micros : Nat)
  /-- The oldest report is received. -/
  | receive
  /-- The worker at a position takes a step. -/
  | step (worker : Nat)

/-- An orchestrator in the middle of its run. -/
structure Course (σ : Type) where
  orchestrator : Orchestrator σ
  /-- The row sets of the producers that are neither finished nor dropped. -/
  producers : List Nat := []
  /-- The deeds of the workers since the start, the last one first. -/
  history : List (WorkerKey × Deed) := []

namespace Course

variable {σ : Type} [Transform σ]

/-- The workers with what they share. -/
def world (c : Course σ) : World σ := c.orchestrator.world

/-- What the workers share. -/
def shared (c : Course σ) : Shared := c.world.shared

/-- The workers. -/
def workers (c : Course σ) : Array (Worker σ) := c.world.workers

/-- Whether the workers have been started. -/
def Running (c : Course σ) : Prop := ∃ since, c.orchestrator.state = .running since

/-- The course with another world. -/
def setWorld (c : Course σ) (w : World σ) : Course σ :=
  { c with orchestrator := { c.orchestrator with world := w } }

/-- The course with other common state. -/
def setShared (c : Course σ) (s : Shared) : Course σ := c.setWorld { c.world with shared := s }

/-- Adds what a worker has just done. -/
def record (c : Course σ) (k : WorkerKey) (d : Option Deed) : Course σ :=
  match d with
  | some d => { c with history := (k, d) :: c.history }
  | none => c

/-- A step of the worker at a position, if the workers have been started. -/
def stepWorker (c : Course σ) (i : Nat) : Course σ :=
  match c.orchestrator.state with
  | .running _ =>
    match c.workers[i]? with
    | some w => (c.setWorld (c.world.step i)).record w.key (w.deed? c.shared)
    | none => c
  | _ => c

/-- What an event does. -/
def perform (c : Course σ) : Event → Course σ
  | .prepare => { c with orchestrator := c.orchestrator.prepare.1 }
  | .produce id =>
    match c.orchestrator.rowProducer id with
    | (o, .ok i) => { c with orchestrator := o, producers := i :: c.producers }
    | (o, .error _) => { c with orchestrator := o }
  | .listen id l => { c with orchestrator := (c.orchestrator.addListener id l).1 }
  | .start => { c with orchestrator := c.orchestrator.start.1 }
  | .inject i e =>
    if i ∈ c.producers then { c with orchestrator := (c.orchestrator.offer i e).1 } else c
  | .finish i =>
    if i ∈ c.producers then
      { c with
        orchestrator := c.orchestrator.endInjection i
        producers := c.producers.erase i }
    else c
  | .stop => { c with orchestrator := c.orchestrator.stop }
  | .pass micros => c.setShared { c.shared with clock := c.shared.clock + micros }
  | .receive => c.setShared { c.shared with reports := c.shared.reports.tail }
  | .step i => c.stepWorker i

/-- What a list of events does. -/
def run (c : Course σ) (events : List Event) : Course σ := events.foldl perform c

/-- The beginning of all courses of a run: nothing has happened. The hooks may be any, and so may
the variables. -/
def begin (o : Orchestrator σ) (hooks : Hooks) (bindings : Table String) : Course σ where
  orchestrator := { o with hooks, bindings }

end Course

/-! ### What has been done -/

namespace Deed

/-- The entries taken, in order, from deeds given with the last one first. -/
def reads : List Deed → List Entry
  | [] => []
  | took _ e :: older => reads older ++ [e]
  | _ :: older => reads older

/-- The entries given, in order, with the row sets that got them. -/
def writes : List Deed → List (Nat × Entry)
  | [] => []
  | gave i e :: older => writes older ++ [(i, e)]
  | _ :: older => writes older

/-- Whether in the call at hand a read has been answered with no row. -/
def callIsDry : List Deed → Prop
  | [] => False
  | ranDry :: _ => True
  | began :: _ => False
  | _ :: older => callIsDry older

/-- Whether the last call that ended answered that there is nothing more to do, after one of its
reads had been answered with no row. -/
def endedDry : List Deed → Prop
  | [] => False
  | answered r :: older => r = .ok false ∧ callIsDry older
  | _ :: older => endedDry older

instance : DecidablePred callIsDry := go
where
  go
    | [] => .isFalse id
    | ranDry :: _ => .isTrue trivial
    | began :: _ => .isFalse id
    | took .. :: older | gave .. :: older | refused _ :: older | answered _ :: older
    | left _ :: older | closed _ :: older | sent _ :: older => go older

instance : DecidablePred endedDry := go
where
  go
    | [] => .isFalse id
    | answered r :: older => inferInstanceAs (Decidable (r = .ok false ∧ callIsDry older))
    | took .. :: older | gave .. :: older | refused _ :: older | began :: older
    | ranDry :: older | left _ :: older | closed _ :: older | sent _ :: older => go older

end Deed

namespace Course

variable {σ : Type}

/-- The deeds of one worker, the last one first. -/
def deedsOf (k : WorkerKey) (history : List (WorkerKey × Deed)) : List Deed :=
  history.filterMap fun x => if x.1 = k then some x.2 else none

/-- The entries that have been taken out of a row set, in order. -/
def taken (i : Nat) : List (WorkerKey × Deed) → List Entry
  | [] => []
  | (_, .took j e) :: older => if j = i then taken i older ++ [e] else taken i older
  | _ :: older => taken i older

/-- Whether an operation is answered with a stop error. -/
def isRefusedStop : Deed → Bool
  | .refused e => e.isStop
  | _ => false

theorem any_isRefusedStop (h : List (WorkerKey × Deed)) :
    h.any (isRefusedStop ·.2) = true ↔ ∃ k e, (k, Deed.refused e) ∈ h ∧ e.isStop = true := by
  rw [List.any_eq_true]
  constructor
  · rintro ⟨⟨k, d⟩, hm, hd⟩
    cases d
    case refused e => exact ⟨k, e, hm, hd⟩
    all_goals cases hd
  · rintro ⟨k, e, hm, he⟩
    exact ⟨_, hm, he⟩

/-- Whether, before any call ended with a stop error, some operation had been answered with one: no
transform makes one up. -/
def HonestStops : List (WorkerKey × Deed) → Prop
  | [] => True
  | (_, .answered (.error e)) :: older =>
    (e.isStop = true → ∃ k e', (k, Deed.refused e') ∈ older ∧ e'.isStop = true) ∧ HonestStops older
  | _ :: older => HonestStops older

instance : DecidablePred HonestStops := go
where
  go
    | [] => .isTrue trivial
    | (_, .answered (.error e)) :: older =>
      have := go older
      have : Decidable (∃ k e', (k, Deed.refused e') ∈ older ∧ e'.isStop = true) :=
        decidable_of_iff (older.any (isRefusedStop ·.2) = true) (any_isRefusedStop older)
      inferInstanceAs (Decidable ((e.isStop = true → ∃ k e', (k, Deed.refused e') ∈ older ∧
        e'.isStop = true) ∧ HonestStops older))
    | (_, .answered (.ok _)) :: older | (_, .began) :: older | (_, .took ..) :: older
    | (_, .ranDry) :: older | (_, .gave ..) :: older | (_, .refused _) :: older
    | (_, .left _) :: older | (_, .closed _) :: older | (_, .sent _) :: older => go older

end Course

end Rowflow
