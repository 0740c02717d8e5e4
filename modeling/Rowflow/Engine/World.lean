import Rowflow.Engine.Worker

/-!
# Worlds

A world is the workers of a run with what they share, and the times at which somebody outside raises
the stop flag. Any worker may take the next step: `World.step` says what happens if a given one
does. `World.next` is one way to choose: the workers take turns, those that wait are passed over,
each step takes a microsecond, and when all of them wait the clock goes to the next time at which
something happens by itself.
-/

namespace Rowflow

/-- The workers of a run with what they share. -/
structure World (σ : Type) where
  shared : Shared
  workers : Array (Worker σ) := #[]
  /-- Whose turn it is. -/
  turn : Nat := 0
  /-- When the stop flag is raised from outside. -/
  alarms : List Nat := []

namespace World

variable {σ : Type} [Transform σ]

/-- One step of the worker at a position. -/
def step (w : World σ) (i : Nat) : World σ :=
  let ⟨shared, workers, turn, alarms⟩ := w
  match workers[i]? with
  | none => ⟨shared, workers, turn, alarms⟩
  | some worker =>
    let (shared, worker) := worker.step shared
    ⟨shared, workers.setIfInBounds i worker, turn, alarms⟩

/-- Whether the worker at a position can go on. -/
def canStep (w : World σ) (i : Nat) : Bool :=
  match w.workers[i]? with
  | some worker => !worker.waits w.shared
  | none => false

/-- Raises the stop flag if it is time for that. -/
def ring (w : World σ) : World σ :=
  if w.alarms.any (· ≤ w.shared.clock) then
    { w with
      shared := { w.shared with stopped := true }
      alarms := w.alarms.filter (w.shared.clock < ·) }
  else w

/-- Whose turn it is: the first worker, from the turn on, that can go on. -/
def chosen? (w : World σ) : Option Nat :=
  (List.range w.workers.size).findSome? fun k =>
    let i := (w.turn + k) % w.workers.size
    if w.canStep i then some i else none

/-- The times at which something happens by itself. -/
def events (w : World σ) : List Nat :=
  w.alarms ++ w.workers.toList.filterMap fun worker =>
    if worker.waits w.shared then worker.wakesAt? else none

/-- Lets one worker take a step, or time pass; the answer is whether anything can happen. A limit is
a time at which something happens besides. -/
def next (w : World σ) (limit : Option Nat) : World σ × Bool :=
  let w := w.ring
  match w.chosen? with
  | some i =>
    let ⟨shared, workers, _, alarms⟩ := w.step i
    (⟨{ shared with clock := shared.clock + 1 }, workers, i + 1, alarms⟩, true)
  | none =>
    match (limit.toList ++ w.events).min? with
    | some t => ({ w with shared := { w.shared with clock := max (w.shared.clock + 1) t } }, true)
    | none => (w, false)

/-- How many steps a run may take before it is given up. -/
def patience : Nat := 200000000

/-- Goes on until something holds, a time has come or nothing can happen any more. -/
def runUntil (holds : World σ → Bool) (limit : Option Nat) : Nat → World σ → World σ
  | 0, w => w
  | fuel + 1, w =>
    if holds w || limit.any (· ≤ w.shared.clock) then w
    else
      match w.next limit with
      | (w, true) => runUntil holds limit fuel w
      | (w, false) => w

end World

end Rowflow
