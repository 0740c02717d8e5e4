import Rowflow.Transform.Plan

/-!
# Reports

Every worker reports how it ended. The result of a run puts the reports together: the run was
stopped if somebody asked for that or some worker did not end by itself; otherwise it finished, with
errors if the workers counted any. There is no result if the errors of all workers together do not
fit into a 64-bit word.
-/

namespace Rowflow

/-- How a worker ended. -/
inductive WorkerStatus where
  /-- Its inputs ended and every row was handled. -/
  | done
  /-- The run was stopped first. -/
  | stopped
  /-- It failed and stopped the run. -/
  | errored
  deriving DecidableEq, Repr, Inhabited

/-- The name of a status. -/
def WorkerStatus.title : WorkerStatus → String
  | .done => "Done"
  | .stopped => "Stopped"
  | .errored => "Errored"

/-- The report of one worker. -/
structure Summary where
  worker : WorkerKey
  status : WorkerStatus
  counters : Counters := {}
  /-- Why it failed. -/
  error : Option String := none
  deriving DecidableEq, Repr, Inhabited

/-- The report that stands for a worker that has not reported. -/
def Summary.abandoned (k : WorkerKey) : Summary := { worker := k, status := .stopped }

/-- How a run ended. -/
inductive RunStatus where
  | finished
  | finishedWithErrors
  | stopped
  deriving DecidableEq, Repr, Inhabited

/-- The name of a status. -/
def RunStatus.title : RunStatus → String
  | .finished => "Finished"
  | .finishedWithErrors => "FinishedWithErrors"
  | .stopped => "Stopped"

namespace Counters

/-- Sums of counters. -/
def add (a b : Counters) : Except Panic Counters := do
  return ⟨← addWords a.read b.read, ← addWords a.written b.written,
    ← addWords a.rejected b.rejected, ← addWords a.errors b.errors⟩

end Counters

/-- The errors counted in reports. -/
def totalErrors (reports : List Summary) : Except Panic UInt64 :=
  reports.foldlM (fun sum s => addWords sum s.counters.errors) 0

/-- The result of a run. -/
structure RunResult where
  pipeline : String
  status : RunStatus
  /-- The reports in the order of the workers. -/
  reports : List Summary
  deriving Inhabited

namespace RunResult

/-- How a run ended, by whether it was stopped and how many errors were counted. -/
def statusOf (cancelled : Bool) (errors : UInt64) : RunStatus :=
  if cancelled then .stopped else if 0 < errors then .finishedWithErrors else .finished

/-- Puts reports together. -/
def ofReports (pipeline : String) (reports : List Summary) (stopRequested : Bool) :
    Except Panic RunResult := do
  let errors ← totalErrors reports
  return {
    pipeline
    reports
    status := statusOf (stopRequested || reports.any (·.status ≠ .done)) errors }

/-- The report of one worker. -/
def summary? (r : RunResult) (k : WorkerKey) : Option Summary := r.reports.find? (·.worker = k)

/-- The counters of all copies of a transform, added up. -/
def totals (r : RunResult) (id : String) : Except Panic Counters :=
  (r.reports.filter (·.worker.id = id)).foldlM (fun sum s => sum.add s.counters) {}

/-- The errors of diverted rows, added up. -/
def diverted (r : RunResult) : Except Panic UInt64 := totalErrors r.reports

/-- The workers that failed, with the reasons. -/
def failures (r : RunResult) : List (WorkerKey × String) :=
  r.reports.filterMap fun s => s.error.map fun e => (s.worker, e)

/-- Whether the run finished without errors. -/
def isSuccess (r : RunResult) : Bool := r.status = .finished

end RunResult

end Rowflow
