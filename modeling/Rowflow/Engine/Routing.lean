import Rowflow.Engine.Diversion

/-!
# Diversion by itself

Several diversions, each with its own row set, under one stop flag; some of them count their errors
together. A row is counted when a diversion is called; then it is on its way until the row set takes it
or refuses it. Meanwhile the call waits, and anything can be done with the other diversions and with
the row set.
-/

namespace Rowflow

/-- A diversion with its row set and the position of its error count. -/
structure Router where
  diversion : Diversion
  rowSet : RowSet
  slot : Nat
  /-- The entry on its way, as long as a call has not come back. -/
  sending : Option Entry := none
  deriving Inhabited

/-- Several diversions with their error counts. -/
structure Routing where
  routers : Array Router := #[]
  counts : Array UInt64 := #[]
  stopped : Bool := false
  log : Array Log.Message := #[]
  deriving Inhabited

namespace Routing

/-- Adds a diversion of the transform of the given name, with a count of its own or the shared one
at the first position. -/
def add (r : Routing) (transform : String) (handling : ErrorHandling) (capacity : Nat)
    (shared : Bool) : Routing :=
  let counts := if r.counts.isEmpty then #[0] else r.counts
  let slot := if shared then 0 else counts.size
  { r with
    routers := r.routers.push
      { diversion := { transform, handling }
        rowSet := .new capacity (transform ++ ".0") handling.target
        slot }
    counts := if shared then counts else counts.push 0 }

/-- The diversion at a position. -/
def router (r : Routing) (i : Nat) : Router := (r.routers[i]?).getD default

/-- The errors counted by the diversion at a position. -/
def count (r : Routing) (i : Nat) : UInt64 := (r.counts[(r.router i).slot]?).getD 0

/-- Begins to divert a row: counts its errors and adds its diagnosis. -/
def call (r : Routing) (i : Nat) (e : Entry) (why : Diagnosis) : Routing × Except Obstacle Unit :=
  let router := r.router i
  match router.diversion.prepare (r.count i) e why with
  | .error (.broken p) => (r, .error (.broken p))
  | .error (.refused err) =>
    ({ r with log := router.diversion.refusal.foldl Array.push r.log }, .error (.refused err))
  | .ok prepared =>
    let router := { router with diversion := prepared.diversion, sending := some prepared.entry }
    ({ r with
        routers := r.routers.setIfInBounds i router
        counts := r.counts.setIfInBounds router.slot prepared.count }, .ok ())

/-- Looks whether the row set at a position takes the entry on its way. There is no answer as long as
there is no room. -/
def send (r : Routing) (i : Nat) : Routing × Option (Except RowSetError Unit) :=
  let router := r.router i
  let put (rowSet : RowSet) : Routing :=
    { r with routers := r.routers.setIfInBounds i { router with rowSet, sending := none } }
  match router.sending with
  | none => (r, none)
  | some e =>
    match router.rowSet.admission r.stopped with
    | .room => (put (router.rowSet.accept e), some (.ok ()))
    | .closed => (put router.rowSet, some (.error (.closed router.rowSet.name)))
    | .stopped => (put router.rowSet, some (.error (.stopped router.rowSet.name)))
    | .full => (r, none)

/-- Diverts a row; there is no answer if it has to wait for room. -/
def route (r : Routing) (i : Nat) (e : Entry) (why : Diagnosis) :
    Routing × Option (Except Obstacle Unit) :=
  match r.call i e why with
  | (r, .error obstacle) => (r, some (.error obstacle))
  | (r, .ok ()) =>
    let (r, answer) := r.send i
    (r, answer.map (·.mapError fun err => .refused (.rowSet err)))

/-- Takes all rows out of the row set at a position. -/
def drain (r : Routing) (i : Nat) : Routing × List Entry :=
  let router := r.router i
  let rows := router.rowSet.waiting
  let rowSet := rows.foldl (fun s _ => s.advance) router.rowSet
  ({ r with routers := r.routers.setIfInBounds i { router with rowSet } }, rows)

/-- Sets the end mark of the row set at a position. -/
def finish (r : Routing) (i : Nat) : Routing :=
  let router := r.router i
  { r with routers := r.routers.setIfInBounds i { router with rowSet := router.rowSet.finish } }

/-- Raises the stop flag; whether this was the first time. -/
def requestStop (r : Routing) : Routing × Bool := ({ r with stopped := true }, !r.stopped)

end Routing

end Rowflow
