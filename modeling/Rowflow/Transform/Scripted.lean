import Rowflow.Transform.Registry

/-!
# Scripted transforms

A scripted transform does what a script says: one list of operations for each of its first calls,
and afterwards a fixed behaviour. It notes what every operation gave. Scripts make it possible to
put a pipeline through any course of events, failures included.
-/

namespace Rowflow

/-- An operation of a script. An operation on a row takes the row read last in the same list, and
its layout, unless they are given. -/
inductive ScriptStep where
  | get
  | put (layout : Option Layout) (row : Option Row)
  | putTo (target : String) (layout : Option Layout) (row : Option Row)
  | putError (layout : Option Layout) (row : Option Row) (why : Diagnosis)
  | stopAll
  | isStopped
  | counters
  | inputLayout
  | place
  | option (key : String)
  | variable (name : String)
  | awaitFinish (worker : String)
  | mark
  | awaitMark (worker : String)
  | sleep (millis : Nat)
  /-- Ends with an error. -/
  | fail (error : TransformError)
  /-- Ends with the last error that an operation gave. -/
  | raise
  /-- Ends with an answer. -/
  | answer (more : Bool)
  /-- Ends with a breakdown. -/
  | breakDown (panic : Panic)
  deriving Inhabited

/-- What a scripted transform does. -/
structure Script where
  init : List ScriptStep := []
  dispose : List ScriptStep := []
  /-- The operations of the first calls. -/
  calls : List (List ScriptStep) := []
  /-- Whether later calls pass rows on. -/
  passes : Bool := false
  /-- Integers at the head of a row that make it bad. -/
  rejected : List Int64 := []
  /-- Integers at the head of a row that end the transform. -/
  fatal : List Int64 := []
  /-- The number of the instance that cannot be made. -/
  refused : Option Nat := none
  deriving Inhabited

/-- A scripted transform: all scripts, and the number of calls made. -/
structure Scripted where
  scripts : Table Script
  calls : Nat := 0
  deriving Inhabited

namespace Scripted

/-- The script of a worker: its own one or else that of its transform. -/
def script (t : Scripted) (view : View) : Script :=
  match t.scripts.find? (WorkerKey.render ⟨view.spec.id, view.copy⟩) with
  | some s => s
  | none => (t.scripts.find? view.spec.id).getD {}

/-- What happens between the operations of a list. -/
structure Memory where
  row : Option Row := none
  error : Option TransformError := none

/-- The entry that an operation on a row is about. -/
def Memory.entry? (m : Memory) (view : View) (layout : Option Layout) (row : Option Row) :
    Option Entry := do
  return ⟨← layout <|> view.inputLayout, ← row <|> m.row⟩

/-- The outcome of a list: none if it went through to its end. -/
abbrev Outcome := Option (Except TransformError Bool)

/-- Notes an observation. -/
def observe {α : Type} (o : Observation) (next : Plan Scripted α) : Plan Scripted α :=
  .note o next

/-- Performs the operations of a list in order. -/
def perform : List ScriptStep → Memory → Plan Scripted Outcome
  | [], _ => .finish none
  | step :: rest, m =>
    let written (send : Entry → (Except TransformError Unit → Plan Scripted Outcome) →
        Plan Scripted Outcome) (layout : Option Layout) (row : Option Row) :
        Plan Scripted Outcome :=
      .look fun view =>
        match m.entry? view layout row with
        | none => observe .noRow (perform rest m)
        | some entry =>
          send entry fun
            | .ok () => observe .accepted (perform rest m)
            | .error e => observe (.failed e) (perform rest { m with error := some e })
    match step with
    | .get => .read fun
      | some entry => observe (.row entry.row) (perform rest { m with row := some entry.row })
      | none => observe .absent (perform rest { m with row := none })
    | .put layout row => written .write layout row
    | .putTo target layout row => written (.writeTo target) layout row
    | .putError layout row why => written (fun e k => .divert e why k) layout row
    | .stopAll => .stopAll (observe .nothing (perform rest m))
    | .isStopped => .look fun view => observe (.flag view.stopped) (perform rest m)
    | .counters => .look fun view => observe (.counters view.counters) (perform rest m)
    | .inputLayout => .look fun view => observe (.layout view.inputLayout) (perform rest m)
    | .place => .look fun view => observe (.place view) (perform rest m)
    | .option key => .look fun view => observe (.option (view.spec.option? key)) (perform rest m)
    | .variable name =>
      .look fun view => observe (.variable (view.bindings.find? name)) (perform rest m)
    | .awaitFinish worker => .await (.finished worker) (observe (.flag true) (perform rest m))
    | .mark => .mark (observe .nothing (perform rest m))
    | .awaitMark worker => .await (.marked worker) (observe (.flag true) (perform rest m))
    | .sleep millis => .pause millis (observe .nothing (perform rest m))
    | .fail e => .finish (some (.error e))
    | .raise => .finish (some (.error (m.error.getD (.fatal "no error to raise"))))
    | .answer more => .finish (some (.ok more))
    | .breakDown p => .halt p

/-- Whether a row is bad or ends the transform, by the integer at its head. -/
def examine (s : Script) (e : Entry) : Except TransformError Unit :=
  match e.row.get? 0 with
  | some (.integer n) =>
    if n ∈ s.rejected then
      .error (.row ("value " ++ Text.showInt64 n ++ " rejected")
        ((e.layout.field? 0).map Field.name) (some "STUB001"))
    else if n ∈ s.fatal then .error (.fatal ("value " ++ Text.showInt64 n ++ " is fatal"))
    else .ok ()
  | _ => .ok ()

/-- Passes one row on. -/
def pass (s : Script) : Attempt Scripted Bool := do
  let some entry ← Attempt.read | return false
  match examine s entry with
  | .error e => throw e
  | .ok () =>
    Attempt.write entry
    return true

end Scripted

open Scripted in
instance : Transform Scripted where
  name _ := "script"
  init t := .look fun view =>
    (perform (t.script view).init {}).bind fun
      | some (.error e) => .finish (.error e)
      | _ => .finish (.ok ())
  process t := .look fun view =>
    let script := t.script view
    match script.calls[t.calls]? with
    | some steps =>
      .save { t with calls := t.calls + 1 } <|
        (perform steps {}).bind fun outcome => .finish (outcome.getD (.ok true))
    | none => if script.passes then pass script else .finish (.ok false)
  dispose t := .look fun view =>
    (perform (t.script view).dispose {}).bind fun _ => .finish ()

/-- The registry of the built-in types and the scripted one. -/
def Registry.withScripts (scripts : Table Script) : Registry (Builtin ⊕ Scripted) :=
  (Registry.builtins .inl).register "script" fun spec number =>
    if (scripts.find? spec.id).bind Script.refused = some number then
      .error ("instance " ++ Text.showNat number ++ " refused")
    else .ok (.inr { scripts })

end Rowflow
