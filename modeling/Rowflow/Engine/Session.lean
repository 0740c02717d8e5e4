import Rowflow.Engine.Injection
import Rowflow.Transform.Scripted

/-!
# Sessions

A session is a run with names for the collectors and injection points that are used from outside,
and with the result once there is one.
-/

namespace Rowflow

/-- An injection point in use. -/
structure Producer where
  transform : String
  rowSet : Nat
  deriving DecidableEq, Repr, Inhabited

/-- A run with what is used from outside. -/
structure Session where
  orchestrator : Orchestrator (Builtin ⊕ Scripted)
  collectors : Table Nat := .empty
  producers : Table Producer := .empty
  result : Option RunResult := none

namespace Session

/-- The common state of the run. -/
def shared (s : Session) : Shared := s.orchestrator.world.shared

/-- Does something with the run. -/
def manage {α : Type} (s : Session)
    (act : Orchestrator (Builtin ⊕ Scripted) → Orchestrator (Builtin ⊕ Scripted) × α) :
    Session × α :=
  let ⟨o, collectors, producers, result⟩ := s
  let (o, a) := act o
  (⟨o, collectors, producers, result⟩, a)

/-! ### Listeners -/

/-- The collector of a name, made when it is first asked for. -/
def collector (s : Session) (name : String) : Session × Nat :=
  match s.collectors.find? name with
  | some i => (s, i)
  | none =>
    let o := s.orchestrator
    let i := o.world.shared.collectors.size
    let shared := { o.world.shared with collectors := o.world.shared.collectors.push {} }
    ({ s with
      orchestrator := { o with world := { o.world with shared } }
      collectors := s.collectors.insert name i }, i)

/-- Attaches the collector of a name to a transform. -/
def listen (s : Session) (id name : String) : Session × Except ExecutionError Unit :=
  let (s, i) := s.collector name
  s.manage (·.addListener id { collector := i })

/-- The collector of a name. -/
def collected (s : Session) (name : String) : Collector :=
  ((s.collectors.find? name).bind fun i => s.shared.collectors[i]?).getD {}

/-! ### Injection -/

/-- Ends the rows injected under a name and forgets the name. -/
def drop (s : Session) (name : String) : Session :=
  match s.producers.find? name with
  | none => s
  | some p =>
    { s with
      orchestrator := s.orchestrator.endInjection p.rowSet
      producers := ⟨s.producers.entries.filter (·.1 ≠ name)⟩ }

/-- Takes an injection point and gives it a name, which another one loses by that. -/
def produce (s : Session) (id name : String) : Session × Except ExecutionError Unit :=
  match s.manage (·.rowProducer id) with
  | (s, .error e) => (s, .error e)
  | (s, .ok i) =>
    let s := s.drop name
    ({ s with producers := s.producers.insert name ⟨id, i⟩ }, .ok ())

/-- Injects rows one after the other. -/
def put (s : Session) (name : String) (entries : List Entry) :
    Session × List (Except RowSetError Bool) :=
  match s.producers.find? name with
  | none => (s, [])
  | some p =>
    let (s, results) := entries.foldl (fun (s, results) e =>
      let (s, r) := manage s (·.inject p.rowSet e)
      (s, r :: results)) (s, [])
    (s, results.reverse)

/-- Injects a row within a number of milliseconds. -/
def putWithin (s : Session) (name : String) (e : Entry) (millis : Nat) :
    Session × Except RowSetError Bool :=
  match s.producers.find? name with
  | none => (s, .ok false)
  | some p => s.manage (·.injectWithin p.rowSet e millis)

/-- Ends the rows injected under a name. -/
def finish (s : Session) (name : String) : Session :=
  match s.producers.find? name with
  | none => s
  | some p => { s with orchestrator := s.orchestrator.endInjection p.rowSet }

/-! ### Results -/

/-- Keeps the result of a run, if there is one. -/
def keepResult (s : Session × Except Panic (Except ExecutionError RunResult)) :
    Session × Except Panic (Except ExecutionError RunResult) :=
  match s with
  | (s, .ok (.ok r)) => ({ s with result := some r }, .ok (.ok r))
  | (s, r) => (s, r)

/-- Waits for the end of the run. -/
def wait (s : Session) : Session × Except Panic (Except ExecutionError RunResult) :=
  keepResult (s.manage Orchestrator.wait)

/-- Prepares, starts and waits. -/
def execute (s : Session) : Session × Except Panic (Except ExecutionError RunResult) :=
  keepResult (s.manage Orchestrator.execute)

/-! ### Traces -/

/-- What a worker has noted; none if it has noted nothing. -/
def trace (s : Session) (worker : String) : Option (List Observation) :=
  let observed := s.shared.journal.toList.filterMap fun (w, o) => if w = worker then some o else none
  if observed.isEmpty then none else some observed

/-- Whether a transform is scripted. -/
def isScripted (s : Session) (id : String) : Bool :=
  (s.orchestrator.pipeline.transform? id).any (·.type = "script")

/-- The initializations and disposals of scripted transforms. -/
def lifecycle (s : Session) : List String :=
  (s.shared.episodes.filter fun (k, _) => s.isScripted k.id).reverse.filterMap fun
    | (k, .begun) => some ("init " ++ k.render)
    | (k, .disposed) => some ("dispose " ++ k.render)
    | _ => none

/-- How many instances of each scripted transform have been made. -/
def instances (s : Session) : List (String × Nat) :=
  s.orchestrator.built.entries.filter fun (id, _) => s.isScripted id

/-- The log, as far as it belongs to a transform and its lines begin with a text. -/
def messages (s : Session) (transform : Option String) (start : String) : List Log.Message :=
  s.shared.log.toList.filter fun m =>
    transform.all (m.transform? = some ·) && m.render.startsWith start

end Session

end Rowflow
