import Rowflow.Engine.Orchestrator

/-!
# Injection of rows

Rows from outside are written to the row set of an injection point like rows of a worker: the writer
waits for room, for ever or up to a time, while the run goes on.
-/

namespace Rowflow.Orchestrator

variable {σ : Type} [Transform σ]

/-- Writes an entry as the row set admits it. -/
def offer (o : Orchestrator σ) (i : Nat) (e : Entry) : Orchestrator σ × Except RowSetError Bool :=
  let shared := o.world.shared
  match shared.admission i with
  | .room => ({ o with world := { o.world with shared := shared.accept i e } }, .ok true)
  | .closed => (o, .error (.closed (shared.rowSetName i)))
  | .stopped => (o, .error (.stopped (shared.rowSetName i)))
  | .full => (o, .ok false)

/-- Injects an entry, waiting for room. -/
def inject (o : Orchestrator σ) (i : Nat) (e : Entry) : Orchestrator σ × Except RowSetError Bool :=
  (o.runUntil fun w => w.shared.admission i ≠ .full).offer i e

/-- Injects an entry, waiting for room a number of milliseconds; whether it has been taken. -/
def injectWithin (o : Orchestrator σ) (i : Nat) (e : Entry) (millis : Nat) :
    Orchestrator σ × Except RowSetError Bool :=
  (o.runUntil (fun w => w.shared.admission i ≠ .full)
    (some (o.world.shared.clock + millis * 1000))).offer i e

/-- Ends the rows that are injected. -/
def endInjection (o : Orchestrator σ) (i : Nat) : Orchestrator σ :=
  { o with world := { o.world with shared := o.world.shared.finish i } }

/-- Lets the run go on until a milestone is reached, five seconds at most. -/
def await (o : Orchestrator σ) (m : Milestone) : Orchestrator σ × Bool :=
  let o := o.runUntil (fun w => m ∈ w.shared.reached) (some (o.world.shared.clock + 5000000))
  (o, m ∈ o.world.shared.reached)

end Rowflow.Orchestrator
