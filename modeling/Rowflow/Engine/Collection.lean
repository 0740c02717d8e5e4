import Rowflow.Engine.Shared

/-!
# Collection of reports

Whoever waits for a run collects the reports of its workers. Once the stop flag has been seen, there
is a deadline; when it has passed, the workers that have not reported are given up. Waiting goes by
steps (`Vigil.step`), since much may happen between a look at the flag, a look at the clock and a look
for reports.
-/

namespace Rowflow

/-- Reports in the course of being collected. -/
structure Collection where
  /-- The workers whose reports are missing. -/
  outstanding : List WorkerKey
  /-- The reports received, the last one first. -/
  received : List Summary := []
  /-- When the missing ones are given up. -/
  deadline : Option Nat := none
  deriving Inhabited

namespace Collection

/-- What to do about missing reports. -/
inductive Decision where
  /-- Give them up. -/
  | leave
  /-- Receive one, if it comes before a time. -/
  | receive (limit : Nat)
  deriving DecidableEq, Repr

/-- The collection with its deadline, which is set when the stop flag is first seen. -/
def look (c : Collection) (now : Nat) (stopped : Bool) (timeout : Nat) : Collection :=
  match c.deadline with
  | none => if stopped then { c with deadline := some (now + timeout) } else c
  | some _ => c

/-- What to do about missing reports, which are waited for in spells of `poll` microseconds. -/
def decide (c : Collection) (now poll : Nat) : Decision :=
  match c.deadline with
  | some deadline => if deadline ≤ now then .leave else .receive (min deadline (now + poll))
  | none => .receive (now + poll)

/-- Receives a report. -/
def receive (c : Collection) (s : Summary) : Collection :=
  { c with outstanding := c.outstanding.filter (· ≠ s.worker), received := s :: c.received }

/-- The report of a worker; one that is given up counts as stopped. -/
def reportOf (c : Collection) (k : WorkerKey) : Summary :=
  (c.received.find? (·.worker = k)).getD (.abandoned k)

/-- Whether a worker comes before another one in lists of workers that are given up. -/
def precedes (a b : WorkerKey) : Bool := a.id < b.id || (a.id = b.id && a.copy ≤ b.copy)

/-- The workers that are given up, in order. -/
def missing (c : Collection) : List WorkerKey := c.outstanding.mergeSort precedes

end Collection

/-- What somebody who waits does next. -/
inductive Watch where
  /-- Looks whether reports are missing and, if so, at the stop flag. -/
  | looking
  /-- Looks at the clock. -/
  | deciding
  /-- Waits for a report until a time. -/
  | receiving (limit : Nat)
  /-- Leaves: the collection is complete or given up. -/
  | ended
  deriving DecidableEq, Repr, Inhabited

/-- Somebody who waits and collects reports. -/
structure Vigil where
  collection : Collection
  watch : Watch := .looking
  deriving Inhabited

/-- One step of waiting. -/
def Vigil.step (timeout : Nat) (s : Shared) (v : Vigil) : Shared × Vigil :=
  let ⟨c, watch⟩ := v
  match watch with
  | .looking =>
    if c.outstanding.isEmpty then (s, ⟨c, .ended⟩)
    else (s, ⟨c.look s.clock s.stopped timeout, .deciding⟩)
  | .deciding =>
    match c.decide s.clock s.poll with
    | .leave => (s, ⟨c, .ended⟩)
    | .receive limit => (s, ⟨c, .receiving limit⟩)
  | .receiving limit =>
    match s.reports with
    | r :: rest => ({ s with reports := rest }, ⟨c.receive r, .looking⟩)
    | [] => (s, ⟨c, if limit ≤ s.clock then .looking else .receiving limit⟩)
  | .ended => (s, ⟨c, .ended⟩)

end Rowflow
