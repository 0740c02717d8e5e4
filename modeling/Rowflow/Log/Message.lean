import Rowflow.Json.Basic
import Rowflow.Text.Duration

/-!
# Log messages

Every event of a run is a `Message`: a value with the facts of the event, a level, a line for people
and the same facts as named fields. A message also makes a span, under which further events can be
recorded.
-/

namespace Rowflow.Log

/-- How much an event matters, the most urgent first. -/
inductive Level where
  | error
  | warn
  | info
  | debug
  | trace
  deriving DecidableEq, Repr, Inhabited

namespace Level

/-- All levels. -/
def all : List Level := [.error, .warn, .info, .debug, .trace]

/-- The name of a level in logs. -/
def title : Level → String
  | .error => "ERROR"
  | .warn => "WARN"
  | .info => "INFO"
  | .debug => "DEBUG"
  | .trace => "TRACE"

/-- The level that a text names, in either case of letters or by its number. -/
def ofText? (s : String) : Option Level :=
  let upper := s.toList.map Char.toUpper
  match all.find? fun l => l.title.toList = upper with
  | some l => some l
  | none =>
    match Text.readNat? (if s.toList.head? = some '+' then s.toList.drop 1 else s.toList) with
    | some n => if n = 0 then none else all[n - 1]?
    | none => none

end Level

/-- An event. -/
inductive Message where
  | pipelinePrepared (pipeline : String) (transforms workers rowSets : Nat)
  | pipelineStarted (pipeline : String) (workers : Nat)
  | pipelineCompleted (pipeline status : String) (diverted : UInt64) (duration : Duration)
  | stopRequested (pipeline requestedBy : String)
  | workerStarted (pipeline transform : String) (copy : Nat)
  | workerFinished (transform : String) (copy : Nat) (status : String)
    (read written errors : UInt64)
  | workerFailed (transform : String) (copy : Nat) (error : String)
  | workerTimedOut (transform : String) (copy : Nat) (timeout : Duration)
  | initFailed (transform : String) (copy : Nat) (error : String)
  | disposePanicked (transform : String) (copy : Nat) (panic : String)
  | hookFailed (pipeline hook error : String)
  | rowDiverted (transform target : String) (count : UInt64) (description : String)
  | ceilingReached (transform : String) (maximum : UInt64)
  | rowLogged (transform : String) (level : Level) (number : UInt64) (row : String)
  | cycleDetected (cycle : List String)
  | unresolvedReference (referencedBy missing : String)
  | duplicateId (id : String)
  | validationFailed (pipeline : String) (errors : Nat)
  deriving Inhabited

namespace Message

/-- A number as text. -/
def word (n : UInt64) : String := Text.showNat n.toNat

/-- The path of a cycle. -/
def path (cycle : List String) : String := String.intercalate " -> " cycle

/-- The level of a message. -/
def level : Message → Level
  | .pipelinePrepared .. | .pipelineStarted .. | .pipelineCompleted .. => .info
  | .stopRequested .. | .workerTimedOut .. | .disposePanicked .. => .warn
  | .workerStarted .. | .workerFinished .. | .rowDiverted .. => .debug
  | .rowLogged _ level _ _ => level
  | .workerFailed .. | .initFailed .. | .hookFailed .. | .ceilingReached .. | .cycleDetected ..
  | .unresolvedReference .. | .duplicateId .. | .validationFailed .. => .error

/-- The line for people. -/
protected def render : Message → String
  | .pipelinePrepared pipeline transforms workers rowSets =>
    "Prepared pipeline '" ++ pipeline ++ "': " ++ Text.showNat transforms ++ " transforms, " ++
      Text.showNat workers ++ " workers, " ++ Text.showNat rowSets ++ " row sets"
  | .pipelineStarted pipeline workers =>
    "Started pipeline '" ++ pipeline ++ "' with " ++ Text.showNat workers ++ " worker threads"
  | .pipelineCompleted pipeline status diverted duration =>
    "Pipeline '" ++ pipeline ++ "' completed with status " ++ status ++ " (" ++ word diverted ++
      " diverted rows) in " ++ duration.render
  | .stopRequested pipeline requestedBy =>
    "Stop requested for pipeline '" ++ pipeline ++ "' by " ++ requestedBy
  | .workerStarted _ transform copy =>
    "Worker '" ++ transform ++ "' copy " ++ Text.showNat copy ++ " started"
  | .workerFinished transform copy status read written errors =>
    "Worker '" ++ transform ++ "' copy " ++ Text.showNat copy ++ " finished with status " ++
      status ++ ": read=" ++ word read ++ ", written=" ++ word written ++ ", errors=" ++ word errors
  | .workerFailed transform copy error =>
    "Worker '" ++ transform ++ "' copy " ++ Text.showNat copy ++ " failed: " ++ error
  | .workerTimedOut transform copy timeout =>
    "Worker '" ++ transform ++ "' copy " ++ Text.showNat copy ++ " did not stop within " ++
      timeout.render ++ ", marking it stopped"
  | .initFailed transform copy error =>
    "Transform '" ++ transform ++ "' copy " ++ Text.showNat copy ++ " failed to initialize: " ++
      error
  | .disposePanicked _ _ panic => "dispose panicked: " ++ panic
  | .hookFailed pipeline hook error =>
    "Lifecycle hook " ++ hook ++ " failed for pipeline '" ++ pipeline ++ "': " ++ error
  | .rowDiverted transform target count description =>
    "Diverted row #" ++ word count ++ " from '" ++ transform ++ "' to '" ++ target ++ "': " ++
      description
  | .ceilingReached transform maximum =>
    "Transform '" ++ transform ++ "' exceeded its maximum of " ++ word maximum ++ " diverted errors"
  | .rowLogged transform _ number row =>
    "[" ++ transform ++ "] row " ++ word number ++ ": " ++ row
  | .cycleDetected cycle => "Cyclic hop detected: " ++ path cycle
  | .unresolvedReference referencedBy missing =>
    "Transform '" ++ referencedBy ++ "' references unknown transform '" ++ missing ++ "'"
  | .duplicateId id => "Duplicate transform ID detected: '" ++ id ++ "'"
  | .validationFailed pipeline errors =>
    "Pipeline '" ++ pipeline ++ "' failed validation with " ++ Text.showNat errors ++ " error(s)"

/-- The named fields of the event. -/
def fields : Message → List (String × Json)
  | .pipelinePrepared pipeline transforms workers rowSets =>
    [("pipeline", .string pipeline), ("transform_count", .integer transforms),
      ("worker_count", .integer workers), ("rowset_count", .integer rowSets)]
  | .pipelineStarted pipeline workers =>
    [("pipeline", .string pipeline), ("worker_count", .integer workers)]
  | .pipelineCompleted pipeline status diverted duration =>
    [("pipeline", .string pipeline), ("status", .string status),
      ("diverted_rows", .integer diverted.toNat), ("duration_ms", .integer duration.toMillis.toNat)]
  | .stopRequested pipeline requestedBy =>
    [("pipeline", .string pipeline), ("requested_by", .string requestedBy)]
  | .workerStarted pipeline transform copy =>
    [("pipeline", .string pipeline), ("transform", .string transform), ("copy", .integer copy)]
  | .workerFinished transform copy status read written errors =>
    [("transform", .string transform), ("copy", .integer copy), ("status", .string status),
      ("lines_read", .integer read.toNat), ("lines_written", .integer written.toNat),
      ("errors", .integer errors.toNat)]
  | .workerFailed transform copy error | .initFailed transform copy error =>
    [("transform", .string transform), ("copy", .integer copy), ("error", .string error)]
  | .workerTimedOut transform copy timeout =>
    [("transform", .string transform), ("copy", .integer copy),
      ("timeout_ms", .integer timeout.toMillis.toNat)]
  | .disposePanicked transform copy _ =>
    [("transform", .string transform), ("copy", .integer copy)]
  | .hookFailed pipeline hook error =>
    [("pipeline", .string pipeline), ("hook", .string hook), ("error", .string error)]
  | .rowDiverted transform target count description =>
    [("transform", .string transform), ("target", .string target),
      ("error_count", .integer count.toNat), ("description", .string description)]
  | .ceilingReached transform maximum =>
    [("transform", .string transform), ("max_errors", .integer maximum.toNat)]
  | .rowLogged transform _ number _ =>
    [("transform", .string transform), ("row_number", .integer number.toNat)]
  | .cycleDetected cycle =>
    [("cycle", .string (path cycle)), ("cycle_length", .integer cycle.length)]
  | .unresolvedReference referencedBy missing =>
    [("referenced_by", .string referencedBy), ("missing", .string missing)]
  | .duplicateId id => [("transform_id", .string id)]
  | .validationFailed pipeline errors =>
    [("pipeline", .string pipeline), ("error_count", .integer errors)]

/-- The transform that an event belongs to. -/
def transform? (m : Message) : Option String :=
  match m.fields.lookup "transform" with
  | some (.string id) => some id
  | _ => none

/-- A span: its name, its level and its fields. -/
structure Span where
  name : String
  level : Level
  fields : List (String × Json)

/-- The span of a message, opened under a name. -/
def span (m : Message) (name : String) : Span :=
  let kept (names : List String) : List (String × Json) :=
    m.fields.filter fun (k, _) => k ∈ names
  let opened (title : String) (level : Level) (fields : List (String × Json)) : Span :=
    ⟨title, level, ("span_name", .string name) :: fields⟩
  match m with
  | .pipelinePrepared .. =>
    opened "pipeline_prepared" .info (kept ["pipeline", "transform_count", "worker_count"])
  | .pipelineStarted .. => opened "pipeline" .info m.fields
  | .pipelineCompleted _ _ _ duration =>
    opened "pipeline_completed" .info
      (kept ["pipeline", "status"] ++ [("duration", .string duration.render)])
  | .stopRequested .. => opened "stop_requested" .warn m.fields
  | .workerStarted .. => opened "transform" .info m.fields
  | .workerFinished .. => opened "worker_finished" .debug (kept ["transform", "copy", "status"])
  | .workerFailed .. => opened "worker_failed" .error m.fields
  | .workerTimedOut _ _ timeout =>
    opened "worker_shutdown_timeout" .warn
      (kept ["transform", "copy"] ++ [("timeout", .string timeout.render)])
  | .initFailed .. => opened "transform_init_failed" .error (kept ["transform", "copy"])
  | .disposePanicked .. => opened "dispose_panicked" .warn m.fields
  | .hookFailed .. => opened "hook_failed" .error (kept ["pipeline", "hook"])
  | .rowDiverted .. => opened "row_diverted" .debug (kept ["transform", "target"])
  | .ceilingReached .. => opened "error_ceiling" .error m.fields
  | .rowLogged .. => opened "row_logged" .trace m.fields
  | .cycleDetected .. | .unresolvedReference .. | .duplicateId .. | .validationFailed .. =>
    ⟨"span_name", .error, ("name", .string name) :: m.fields⟩

end Message

end Rowflow.Log
