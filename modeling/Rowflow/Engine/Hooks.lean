import Rowflow.Engine.Report

/-!
# Hooks

Hooks are called at fixed points of a run. A hook sees what the run is, may set variables, and may
refuse, which aborts the run unless it is over.
-/

namespace Rowflow

/-- Where in a run hooks are called. -/
inductive HookPoint where
  /-- Before anything else; variables set here are seen by every transform. -/
  | prepare
  /-- After all transforms have been initialized. -/
  | start
  /-- After each copy of a transform has been initialized. -/
  | initialized
  /-- After all workers have ended. -/
  | finished
  deriving DecidableEq, Repr, Inhabited

/-- The name of a point. -/
def HookPoint.title : HookPoint → String
  | .prepare => "PipelinePrepareExecution"
  | .start => "PipelineStartThreads"
  | .initialized => "TransformAfterInit"
  | .finished => "PipelineFinished"

/-- What a hook sees. -/
structure HookScene where
  pipeline : String
  worker : Option WorkerKey := none
  bindings : Table String
  status : Option RunStatus := none
  deriving Inhabited

/-- One call of a hook. -/
structure HookCall where
  point : HookPoint
  scene : HookScene
  deriving Inhabited

/-- What a hook answers: the variables it sets, and why it refuses, if it does. -/
structure HookAnswer where
  set : Table String := .empty
  refusal : Option String := none
  deriving Inhabited

/-- Hooks answer a call, given the calls made before, the last one first. -/
abbrev Hooks := List HookCall → HookCall → HookAnswer

namespace Hooks

/-- Hooks that do nothing. -/
def none : Hooks := fun _ _ => {}

/-- Hooks that set fixed variables at some points and refuse one call at some. -/
def scripted (set : HookPoint → Table String) (refuse : HookPoint → Option (Nat × String)) :
    Hooks :=
  fun earlier call =>
    let number := (earlier.filter (·.point = call.point)).length + 1
    { set := set call.point
      refusal := (refuse call.point).bind fun (n, message) =>
        if n = number then some message else Option.none }

end Hooks

end Rowflow
