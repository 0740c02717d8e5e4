import Rowflow.Engine.Diversion
import Rowflow.Engine.Shared
import Rowflow.Engine.Topology

/-!
# Contexts

A context is what one worker has of its own: its inputs and outputs, its turn among them, the row
read last, its counters and its listeners. The operations on a context are small steps: each looks
at one row set, or at the stop flag, and changes the context and the shared state at once.
-/

namespace Rowflow

/-- Where a worker diverts failing rows. -/
structure ErrorRoute where
  /-- The position of its row set. -/
  rowSet : Nat
  /-- The position of the error count. -/
  slot : Nat
  diversion : Diversion
  deriving Inhabited

/-- What one worker has of its own. -/
structure Context where
  spec : TransformSpec
  copy : Nat
  /-- The inputs that have not ended. -/
  inputs : List Nat
  /-- Whose turn it is to be read. -/
  nextInput : Nat := 0
  outputs : List (String × Nat)
  /-- Whose turn it is to be written to. -/
  nextOutput : Nat := 0
  errors : Option ErrorRoute
  inputLayout : Option Layout := none
  /-- The row that is diverted if the call at hand fails. -/
  currentRow : Option Row := none
  listeners : List Listener := []
  counters : Counters := {}
  deriving Inhabited

namespace Context

/-- The context of a worker that has done nothing yet. -/
def new (spec : TransformSpec) (copy : Nat) (wiring : Wiring) (slot : Nat) : Context where
  spec
  copy
  inputs := wiring.inputs
  outputs := wiring.outputs
  errors := do
    let handling ← spec.errorHandling
    let rowSet ← wiring.errors
    return ⟨rowSet, slot, { transform := spec.id, handling }⟩

/-- The worker that the context belongs to. -/
def key (c : Context) : WorkerKey := ⟨c.spec.id, c.copy⟩

/-- The name of the worker. -/
def name (c : Context) : String := c.key.render

/-- Whether failing rows can be diverted. -/
def diverts (c : Context) : Bool := c.errors.isSome

/-- What a transform sees. -/
def view (c : Context) (s : Shared) : View where
  spec := c.spec
  copy := c.copy
  pipeline := s.pipeline
  bindings := s.bindings
  targets := c.outputs.map (·.1)
  diverts := c.diverts
  stopped := s.stopped
  counters := c.counters
  inputLayout := c.inputLayout

/-- The row sets that the worker writes to. -/
def written (c : Context) : List Nat :=
  c.outputs.map (·.2) ++ (c.errors.map (·.rowSet)).toList

/-! ### Reading -/

/-- The place in the list of the input whose turn it is. -/
def turn (c : Context) : Nat := c.nextInput % c.inputs.length

/-- What polling one input gives. -/
inductive Poll where
  | row (entry : Entry)
  /-- A listener broke down when it was told of the row. -/
  | broken (panic : Panic)
  | empty
  /-- The input has ended, or there is none. -/
  | ended

/-- Takes a row over: counts it, tells the listeners and remembers it with its layout. -/
def takeOver (c : Context) (s : Shared) (e : Entry) : Shared × Context × Poll :=
  let c := { c with counters := { c.counters with read := c.counters.read + 1 } }
  match s.tell c.listeners .read e with
  | (s, some p) => (s, c, .broken p)
  | (s, none) =>
    let c := { c with
      currentRow := if c.diverts then some e.row else c.currentRow
      inputLayout := some e.layout }
    (s, c, .row e)

/-- Polls the input whose turn it is. The turn passes on, except that the place of an input that has
ended is taken by the one behind it. -/
def poll (c : Context) (s : Shared) : Shared × Context × Poll :=
  match c.inputs[c.turn]? with
  | none => (s, c, .ended)
  | some i =>
    match s.front i with
    | .row e => ({ c with nextInput := c.turn + 1 }).takeOver (s.advance i) e
    | .done => (s, { c with inputs := c.inputs.eraseIdx c.turn, nextInput := c.turn }, .ended)
    | .empty => (s, { c with nextInput := c.turn + 1 }, .empty)

/-! ### Writing -/

/-- What it counts as when an entry has been written. -/
inductive Purpose where
  | output
  | error (why : Diagnosis)
  deriving DecidableEq, Repr, Inhabited

/-- An entry on its way into row sets. -/
structure Delivery where
  entry : Entry
  /-- The row sets that have not taken it. -/
  pending : List Nat
  purpose : Purpose
  deriving DecidableEq, Inhabited

/-- An error unless the row has as many values as the layout has fields. -/
def checkLayout (e : Entry) : Except TransformError Unit :=
  if e.row.size = e.layout.size then .ok ()
  else .error (.layoutMismatch e.row.size e.layout.size)

/-- Starts to write an entry to the outputs: to all of them, or to the one whose turn it is. -/
def startWrite (c : Context) (e : Entry) : Context × Except TransformError Delivery :=
  match checkLayout e with
  | .error err => (c, .error err)
  | .ok () =>
    match c.spec.movement with
    | .copy => (c, .ok ⟨e, c.outputs.map (·.2), .output⟩)
    | .distribute =>
      let turn := c.nextOutput % c.outputs.length
      match c.outputs[turn]? with
      | none => (c, .ok ⟨e, [], .output⟩)
      | some (_, i) => ({ c with nextOutput := turn + 1 }, .ok ⟨e, [i], .output⟩)

/-- Starts to write an entry to the output that leads to a transform. -/
def startWriteTo (c : Context) (target : String) (e : Entry) : Except TransformError Delivery := do
  checkLayout e
  match c.outputs.find? (·.1 = target) with
  | none => .error (.unknownTarget target)
  | some (_, i) => .ok ⟨e, [i], .output⟩

/-- Starts to divert a row: counts its errors and adds its diagnosis. Without error handling the
diagnosis itself becomes the error. -/
def startDivert (c : Context) (s : Shared) (e : Entry) (why : Diagnosis) :
    Shared × Context × Except Panic (Except TransformError Delivery) :=
  match c.errors with
  | none => (s, c, .ok (.error (.row why.description why.fields why.codes)))
  | some route =>
    match route.diversion.prepare (s.errorCount route.slot) e why with
    | .error (.broken p) => (s, c, .error p)
    | .error (.refused err) => (s.sayAll route.diversion.refusal, c, .ok (.error (.route err)))
    | .ok prepared =>
      ({ s with errorCounts := s.errorCounts.setIfInBounds route.slot prepared.count },
        { c with errors := some { route with diversion := prepared.diversion } },
        .ok (.ok ⟨prepared.entry, [route.rowSet], .error why⟩))

/-- The error of a delivery that its row set does not take. -/
def Purpose.failure : Purpose → RowSetError → TransformError
  | .output, e => .rowSet e
  | .error _, e => .route (.rowSet e)

/-- Tells the listeners of an entry that has been written, and counts it. The errors of a diverted row
are part of the transform's count already, so their sum fits into a word. -/
def settle (c : Context) (s : Shared) (d : Delivery) : Shared × Context × Option Panic :=
  match d.purpose with
  | .output =>
    match s.tell c.listeners .written d.entry with
    | (s, some p) => (s, c, some p)
    | (s, none) =>
      (s, { c with counters := { c.counters with written := c.counters.written + 1 } }, none)
  | .error why =>
    match s.tell c.listeners .diverted d.entry with
    | (s, some p) => (s, c, some p)
    | (s, none) =>
      let c := { c with counters := { c.counters with
        errors := c.counters.errors + why.weight
        rejected := c.counters.rejected + 1 } }
      match c.errors with
      | none => (s, c, none)
      | some route =>
        (s.say (.rowDiverted c.spec.id route.diversion.handling.target (s.errorCount route.slot)
          why.description), c, none)

/-- What one step of a delivery gives. -/
inductive Progress where
  /-- There are more row sets to write to, or the next one is full. -/
  | pending (delivery : Delivery)
  | answered (result : Except TransformError Unit)
  /-- A listener broke down when it was told of the row. -/
  | broken (panic : Panic)

/-- Writes an entry to the next row set that has not taken it; after the last one it is settled. -/
def deliver (c : Context) (s : Shared) (d : Delivery) : Shared × Context × Progress :=
  let settled (s : Shared) : Shared × Context × Progress :=
    match c.settle s d with
    | (s, c, some p) => (s, c, .broken p)
    | (s, c, none) => (s, c, .answered (.ok ()))
  match d.pending with
  | [] => settled s
  | i :: rest =>
    match s.admission i with
    | .closed => (s, c, .answered (.error (d.purpose.failure (.closed (s.rowSetName i)))))
    | .stopped => (s, c, .answered (.error (d.purpose.failure (.stopped (s.rowSetName i)))))
    | .full => (s, c, .pending d)
    | .room =>
      let s := s.accept i d.entry
      if rest.isEmpty then settled s else (s, c, .pending { d with pending := rest })

end Context

end Rowflow
