import Rowflow.Pipeline.Definition
import Rowflow.RowSet.Basic
import Rowflow.Transform.Plan

/-!
# Topology

The row sets of a run are made one after the other: for every enabled hop one for each copy of its
origin, then for every transform with error handling one for each of its copies, then one for every
transform into which rows may be injected. A row set is an input of every copy of the transform it
leads to from the moment it is made; the single copy that writes to it is told in the end, when all
of them are there. Row sets are named by their positions. Where transforms share a name, the last of them says how
many copies read and write, and the last row set for its rows from outside is used.
-/

namespace Rowflow

/-- What one row set of a run is for. -/
inductive Channel where
  /-- Rows that a copy of a transform writes along a hop. -/
  | hop (origin : WorkerKey) (target : String)
  /-- Rows that a copy of a transform diverts. -/
  | errors (origin : WorkerKey) (target : String)
  /-- Rows from outside. -/
  | injector (target : String)
  deriving DecidableEq, Repr, Inhabited

namespace Channel

/-- The transform whose copies read the row set. -/
def target : Channel → String
  | .hop _ target => target
  | .errors _ target => target
  | .injector target => target

/-- An empty row set for a channel. -/
def rowSet (capacity : Nat) : Channel → RowSet
  | .hop origin target => .new capacity origin.render target
  | .errors origin target => .new capacity origin.render (target ++ " (errors)")
  | .injector target => .new capacity "producer" target

end Channel

/-- What a worker reads and writes, as positions of row sets. -/
structure Wiring where
  inputs : List Nat := []
  /-- The outputs with the transforms they lead to, in the order of the hops. -/
  outputs : List (String × Nat) := []
  /-- Where failing rows go. -/
  errors : Option Nat := none
  deriving DecidableEq, Repr, Inhabited

/-- The workers of a transform, by its own number of copies. -/
def TransformSpec.workers (t : TransformSpec) : List WorkerKey :=
  (List.range t.copies).map (WorkerKey.mk t.id)

namespace Pipeline

/-- How many copies there are of the transform that was declared last under a name. -/
def copies (p : Pipeline) (id : String) : Nat :=
  ((p.transforms.reverse.find? (·.id = id)).map (·.copies)).getD 0

/-- The workers of one transform. -/
def copiesOf (p : Pipeline) (id : String) : List WorkerKey :=
  (List.range (p.copies id)).map (WorkerKey.mk id)

/-- The workers in order of declaration. -/
def workers (p : Pipeline) : List WorkerKey := p.transforms.flatMap TransformSpec.workers

/-- The position of a transform, under which its copies count their errors together. -/
def slot (p : Pipeline) (id : String) : Nat := p.ids.idxOf id

end Pipeline

/-- What has been laid out for a run. -/
structure Topology where
  /-- What the row sets are for, in the order in which they were made. -/
  channels : List Channel := []
  /-- What every worker reads and writes. -/
  wiring : List (WorkerKey × Wiring) := []
  /-- The outputs that workers have not been told yet, with the transforms they lead to. -/
  outputs : List (WorkerKey × String × Nat) := []
  /-- The row sets for failing rows that workers have not been told yet. -/
  errors : List (WorkerKey × Nat) := []
  /-- The row sets into which rows are injected, with the transforms they lead to. -/
  injectors : List (String × Nat) := []
  deriving Repr, Inhabited

namespace Topology

/-- The wiring of a worker. -/
def wiringOf (t : Topology) (k : WorkerKey) : Wiring := (t.wiring.lookup k).getD {}

/-- Hands out the wiring of a worker, which is no longer there then. -/
def takeWiring (t : Topology) (k : WorkerKey) : Wiring × Topology :=
  (t.wiringOf k, { t with wiring := t.wiring.filter (·.1 ≠ k) })

/-- Changes the wiring of a worker. -/
def rewire (t : Topology) (k : WorkerKey) (f : Wiring → Wiring) : Topology :=
  { t with wiring := t.wiring.map fun (k', w) => (k', if k' = k then f w else w) }

/-- Makes a row set an input of a worker. -/
def connect (i : Nat) (t : Topology) (k : WorkerKey) : Topology :=
  t.rewire k fun w => { w with inputs := w.inputs ++ [i] }

/-- Makes a row set. -/
def make (p : Pipeline) (t : Topology) (ch : Channel) : Topology :=
  let i := t.channels.length
  let t := { t with channels := t.channels ++ [ch] }
  let t := (p.copiesOf ch.target).foldl (connect i) t
  match ch with
  | .hop origin target => { t with outputs := t.outputs ++ [(origin, target, i)] }
  | .errors origin _ => { t with errors := t.errors ++ [(origin, i)] }
  | .injector target => { t with injectors := t.injectors.filter (·.1 ≠ target) ++ [(target, i)] }

/-- Nothing but the workers. -/
def bare (p : Pipeline) : Topology where
  wiring := p.workers.map fun k => (k, {})

/-- Makes the row sets of a hop. -/
def makeHop (p : Pipeline) (t : Topology) (h : Hop) : Topology :=
  (p.copiesOf h.origin).foldl (fun t k => t.make p (.hop k h.target)) t

/-- Makes the row sets for the failing rows of a transform. -/
def makeErrors (p : Pipeline) (t : Topology) (spec : TransformSpec) : Topology :=
  match spec.errorHandling with
  | some h => spec.workers.foldl (fun t k => t.make p (.errors k h.target)) t
  | none => t

/-- Makes the row set into which rows for a transform are injected. -/
def makeInjector (p : Pipeline) (t : Topology) (spec : TransformSpec) : Topology :=
  t.make p (.injector spec.id)

/-- Tells a worker of an output. -/
def giveOutput (t : Topology) : WorkerKey × String × Nat → Topology
  | (k, output) => t.rewire k fun w => { w with outputs := w.outputs ++ [output] }

/-- Tells a worker where its failing rows go. -/
def giveErrors (t : Topology) : WorkerKey × Nat → Topology
  | (k, i) => t.rewire k fun w => { w with errors := some i }

/-- Lays out a pipeline. -/
def build (p : Pipeline) : Topology :=
  let t := p.enabledHops.foldl (makeHop p) (bare p)
  let t := p.transforms.foldl (makeErrors p) t
  let t := (p.transforms.filter (·.inject)).foldl (makeInjector p) t
  let t := t.outputs.foldl giveOutput t
  t.errors.foldl giveErrors t

/-- The row sets of a run before it starts. -/
def rowSets (t : Topology) (capacity : Nat) : List RowSet :=
  t.channels.map (Channel.rowSet capacity)

end Topology

end Rowflow
