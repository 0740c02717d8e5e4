import Rowflow.Engine.Listener
import Rowflow.Engine.Report

/-!
# What the workers of a run share

The row sets, the error counts, the stop flag and the clock of a run, together with everything that
the workers leave behind: log, journal, episodes, collected rows, milestones and reports. Time is counted in
microseconds. A stop cannot be withdrawn.
-/

namespace Rowflow

/-- What happens to one copy of a transform in its life. -/
inductive Episode where
  /-- Its initialization is called. -/
  | begun
  | initialized (result : Except TransformError Unit)
  /-- It is put to work. -/
  | started
  /-- Its disposal is called. -/
  | disposed
  deriving Inhabited

/-- The common state of a run. -/
structure Shared where
  pipeline : String
  bindings : Table String := .empty
  /-- How long a read waits for one input, in microseconds. -/
  poll : Nat := 50000
  rowSets : Array RowSet := #[]
  /-- The errors counted so far, for every transform by its position. -/
  errorCounts : Array UInt64 := #[]
  stopped : Bool := false
  clock : Nat := 0
  log : Array Log.Message := #[]
  collectors : Array Collector := #[]
  reached : List Milestone := []
  journal : Array (String × Observation) := #[]
  /-- What has happened to the transforms, the last episode first. -/
  episodes : List (WorkerKey × Episode) := []
  /-- The reports that have been sent and not yet received, the oldest first. -/
  reports : List Summary := []
  deriving Inhabited

namespace Shared

/-- Writes to the log. -/
def say (s : Shared) (m : Log.Message) : Shared := { s with log := s.log.push m }

/-- Writes to the log, in order. -/
def sayAll (s : Shared) (ms : List Log.Message) : Shared := ms.foldl say s

/-- Writes to the journal. -/
def note (s : Shared) (worker : String) (o : Observation) : Shared :=
  { s with journal := s.journal.push (worker, o) }

/-- Notes what happens to a transform. -/
def record (s : Shared) (k : WorkerKey) (e : Episode) : Shared :=
  { s with episodes := (k, e) :: s.episodes }

/-- Notes that a milestone has been reached. -/
def reach (s : Shared) (m : Milestone) : Shared := { s with reached := m :: s.reached }

/-- Raises the stop flag; the first request is written to the log. -/
def requestStop (s : Shared) (requestedBy : String) : Shared :=
  if s.stopped then s
  else ({ s with stopped := true } : Shared).say (.stopRequested s.pipeline requestedBy)

/-- The row set at a position. -/
def rowSet? (s : Shared) (i : Nat) : Option RowSet := s.rowSets[i]?

/-- Appends an entry to a row set. -/
def accept (s : Shared) (i : Nat) (e : Entry) : Shared :=
  { s with rowSets := s.rowSets.modify i (·.accept e) }

/-- Takes the next entry out of a row set. -/
def advance (s : Shared) (i : Nat) : Shared := { s with rowSets := s.rowSets.modify i (·.advance) }

/-- Sets the end mark of a row set. -/
def finish (s : Shared) (i : Nat) : Shared := { s with rowSets := s.rowSets.modify i (·.finish) }

/-- What a reader finds in a row set. -/
def front (s : Shared) (i : Nat) : RowSet.Front := ((s.rowSet? i).map (·.front)).getD .done

/-- What a writer finds in a row set. -/
def admission (s : Shared) (i : Nat) : RowSet.Admission :=
  ((s.rowSet? i).map (·.admission s.stopped)).getD .closed

/-- The name of a row set. -/
def rowSetName (s : Shared) (i : Nat) : String := ((s.rowSet? i).map (·.name)).getD ""

/-- The errors counted at a position. -/
def errorCount (s : Shared) (slot : Nat) : UInt64 := (s.errorCounts[slot]?).getD 0

/-- Tells listeners of a row. -/
def tell (s : Shared) (listeners : List Listener) (event : RowEvent) (e : Entry) :
    Shared × Option Panic :=
  let collectors := s.collectors
  let s := { s with collectors := #[] }
  let (collectors, panic) := Rowflow.tell listeners event e collectors
  ({ s with collectors }, panic)

end Shared

end Rowflow
