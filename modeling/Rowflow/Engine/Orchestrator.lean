import Rowflow.Engine.Collection
import Rowflow.Engine.Hooks
import Rowflow.Engine.World
import Rowflow.Pipeline.Graph
import Rowflow.Pipeline.Validation
import Rowflow.Transform.Registry

/-!
# The life of a run

A pipeline is first validated and its transforms are resolved. Then it is prepared: row sets are
laid out, and every copy of every transform is made and initialized, in topological order. Then it
is started and, in the end, waited for. Rows can be injected and listeners attached between
preparation and start. A failure before the start disposes of everything that was initialized and
aborts the run.
-/

namespace Rowflow

/-- Why a run cannot go on before its workers run. -/
inductive ExecutionError where
  | invalidGraph (errors : List ValidationError)
  | unresolved (error : ResolutionError)
  | initFailed (worker : WorkerKey) (error : TransformError)
  | hookFailed (point : HookPoint) (message : String)
  | notAnInjectionPoint (id : String)
  | transformNotFound (id : String)
  | alreadyStarted
  | notPrepared
  | notStarted
  deriving Inhabited

/-- The text of an error. -/
protected def ExecutionError.render : ExecutionError → String
  | .invalidGraph errors =>
    "pipeline graph is invalid: " ++ String.intercalate "; " (errors.map ValidationError.render)
  | .unresolved error => error.render
  | .initFailed worker error =>
    "transform '" ++ worker.id ++ "' copy " ++ Text.showNat worker.copy ++
      " failed to initialize: " ++ error.render
  | .hookFailed point message => "lifecycle hook " ++ point.title ++ " aborted the run: " ++ message
  | .notAnInjectionPoint id => "transform '" ++ id ++ "' is not an injection point"
  | .transformNotFound id => "transform '" ++ id ++ "' does not exist"
  | .alreadyStarted => "pipeline run was already prepared or started"
  | .notPrepared => "pipeline run has not been prepared"
  | .notStarted => "pipeline run has not been started"

/-- Where a run is. -/
inductive RunState where
  | idle
  /-- Initialized; some injection points have been handed out. -/
  | prepared (claimed : List String)
  | running (since : Nat)
  | finished
  deriving DecidableEq, Repr, Inhabited

/-- A pipeline with everything that belongs to its run. -/
structure Orchestrator (σ : Type) where
  pipeline : Pipeline
  transforms : TransformMap σ
  hooks : Hooks := Hooks.none
  bindings : Table String := .empty
  state : RunState := .idle
  world : World σ
  /-- The hook calls made so far, the last one first. -/
  calls : List HookCall := []
  /-- How many instances of each transform have been made. -/
  built : Table Nat := .empty
  /-- How many steps the workers may take during one call before it is given up. -/
  stamina : Nat := World.patience
  /-- Whether a call has been given up since a transform was still busy with its initialization or its
  disposal. -/
  hangs : Bool := false

namespace Orchestrator

variable {σ : Type} [Transform σ]

/-! ### Creation -/

/-- What is written to the log before there is a run. -/
def creationMessages (p : Pipeline) : List Log.Message :=
  p.validationMessages ++
    match p.validationErrors with
    | [] => []
    | errors => [.validationFailed p.name errors.length]

/-- The run of a pipeline that is valid and can be resolved. -/
def new (p : Pipeline) (registry : Registry σ) : Except ExecutionError (Orchestrator σ) :=
  match p.validationErrors with
  | [] =>
    match registry.resolve p with
    | .error e => .error (.unresolved e)
    | .ok transforms => .ok {
        pipeline := p
        transforms
        world := { shared := { pipeline := p.name, poll := p.engine.pollInterval * 1000 } }
        built := .ofList (p.ids.map (·, 1)) }
  | errors => .error (.invalidGraph errors)

/-- Writes to the log. -/
def say (o : Orchestrator σ) (m : Log.Message) : Orchestrator σ :=
  { o with world := { o.world with shared := o.world.shared.say m } }

/-- Lets the run go on until something holds, or a time has come. -/
def runUntil (o : Orchestrator σ) (holds : World σ → Bool) (limit : Option Nat := none) :
    Orchestrator σ :=
  { o with world := o.world.runUntil holds limit o.stamina }

/-! ### Hooks -/

/-- The scene for hooks outside the preparation. -/
def scene (o : Orchestrator σ) (bindings : Table String) : HookScene :=
  { pipeline := o.pipeline.name, bindings }

/-- Calls the hooks; with the variables afterwards. A refusal is written to the log. -/
def callHook (o : Orchestrator σ) (point : HookPoint) (scene : HookScene) :
    Orchestrator σ × Table String × Except ExecutionError Unit :=
  let call : HookCall := ⟨point, scene⟩
  let answer := o.hooks o.calls call
  let o := { o with calls := call :: o.calls }
  let bindings := scene.bindings.union answer.set
  match answer.refusal with
  | none => (o, bindings, .ok ())
  | some message =>
    (o.say (.hookFailed o.pipeline.name point.title message), bindings,
      .error (.hookFailed point message))

/-! ### Preparation -/

/-- Closes and disposes of the worker at a position, which has not been started. -/
def abandon (o : Orchestrator σ) (i : Nat) : Orchestrator σ :=
  let workers := o.world.workers.modify i fun w =>
    { w with phase := Worker.leave w.context .abandoned }
  let o := { o with world := { o.world with workers } }.runUntil fun w =>
    w.workers[i]?.all Worker.hasEnded
  { o with hangs := o.hangs || !o.world.workers[i]?.all Worker.hasEnded }

/-- Abandons all workers in order, up to a number of them. -/
def abandonAll (o : Orchestrator σ) (count : Nat) : Orchestrator σ :=
  (List.range count).foldl abandon o

/-- Makes the next instance of a transform. -/
def instantiate (o : Orchestrator σ) (resolved : Resolved σ) :
    Orchestrator σ × Except ExecutionError σ :=
  let id := resolved.spec.id
  let number := (o.built.find? id).getD 0 + 1
  let o := { o with built := o.built.insert id number }
  match resolved.instantiate number with
  | .ok state => (o, .ok state)
  | .error e => (o, .error (.unresolved e))

/-- Adds a worker that is about to be initialized. -/
def addWorker (o : Orchestrator σ) (context : Context) (state : σ) : Orchestrator σ :=
  { o with world := { o.world with
    workers := o.world.workers.push (.new context state)
    shared := o.world.shared.record context.key .begun } }

/-- Adds a worker and initializes it. -/
def enroll (o : Orchestrator σ) (k : WorkerKey) (wiring : Wiring) (spec : TransformSpec) (state : σ) :
    Orchestrator σ × Except TransformError Unit :=
  let i := o.world.workers.size
  let o := o.addWorker (.new spec k.copy wiring (o.pipeline.slot k.id)) state
  let o := o.runUntil fun w => (w.workers[i]?.bind Worker.initResult?).isSome
  match o.world.workers[i]?.bind Worker.initResult? with
  | some result => (o, result)
  | none => ({ o with hangs := true }, .ok ())

/-- Makes and initializes one worker and calls the hooks for it; with the variables afterwards. -/
def prepareWorker (o : Orchestrator σ) (k : WorkerKey) (wiring : Wiring) (bindings : Table String) :
    Orchestrator σ × Except ExecutionError (Table String) :=
  let earlier := o.world.workers.size
  match o.transforms.find? k.id with
  | none => (o, .error (.transformNotFound k.id))
  | some resolved =>
    match o.instantiate resolved with
    | (o, .error e) => (o.abandonAll earlier, .error e)
    | (o, .ok state) =>
      match o.enroll k wiring resolved.spec state with
      | (o, .error e) =>
        let o := o.say (.initFailed k.id k.copy e.render)
        ((o.abandon earlier).abandonAll earlier, .error (.initFailed k e))
      | (o, .ok ()) =>
        let scene : HookScene := { pipeline := o.pipeline.name, worker := some k, bindings }
        match o.callHook .initialized scene with
        | (o, _, .error e) => (o.abandonAll (earlier + 1), .error e)
        | (o, bindings, .ok ()) => (o, .ok bindings)

/-- Prepares workers in order; each takes its wiring. -/
def prepareWorkers (o : Orchestrator σ) (t : Topology) (bindings : Table String) :
    List WorkerKey → Orchestrator σ × Except ExecutionError Unit
  | [] => (o, .ok ())
  | k :: rest =>
    let (wiring, t) := t.takeWiring k
    match o.prepareWorker k wiring bindings with
    | (o, .error e) => (o, .error e)
    | (o, .ok bindings) => prepareWorkers o t bindings rest

/-- Lays out the row sets of the run and forgets the workers of an earlier attempt. -/
def layOut (o : Orchestrator σ) (bindings : Table String) : Orchestrator σ :=
  { o with world := { o.world with
    workers := #[]
    turn := 0
    shared := { o.world.shared with
      bindings
      rowSets := ((Topology.build o.pipeline).rowSets o.pipeline.engine.capacity).toArray
      errorCounts := .replicate o.pipeline.transforms.length 0 } } }

/-- Lays out the row sets and initializes all workers. -/
def prepare (o : Orchestrator σ) : Orchestrator σ × Except ExecutionError Unit :=
  if o.state ≠ .idle then (o, .error .alreadyStarted)
  else
    match o.callHook .prepare (o.scene o.bindings) with
    | (o, _, .error e) => (o, .error e)
    | (o, bindings, .ok ()) =>
      let o := o.layOut bindings
      match (HopGraph.ofPipeline o.pipeline).topologicalOrder with
      | none => (o, .error (.invalidGraph [.cyclicHop []]))
      | some order =>
        match o.prepareWorkers (Topology.build o.pipeline) bindings
            (order.flatMap o.pipeline.copiesOf) with
        | (o, .error e) => (o, .error e)
        | (o, .ok ()) =>
          let o := o.say (.pipelinePrepared o.pipeline.name o.pipeline.transforms.length
            o.world.workers.size o.world.shared.rowSets.size)
          ({ o with state := .prepared [] }, .ok ())

/-! ### Between preparation and start -/

/-- Hands out the row set into which rows for a transform are injected. -/
def rowProducer (o : Orchestrator σ) (id : String) :
    Orchestrator σ × Except ExecutionError Nat :=
  match o.state with
  | .prepared claimed =>
    if (o.pipeline.transform? id).isNone then (o, .error (.transformNotFound id))
    else
      match (Topology.build o.pipeline).injectors.lookup id with
      | none => (o, .error (.notAnInjectionPoint id))
      | some i => ({ o with state := .prepared (id :: claimed) }, .ok i)
  | _ => (o, .error .notPrepared)

/-- Attaches a listener to every copy of a transform. -/
def addListener (o : Orchestrator σ) (id : String) (l : Listener) :
    Orchestrator σ × Except ExecutionError Unit :=
  match o.state with
  | .prepared _ =>
    if o.world.workers.any (·.key.id = id) then
      let workers := o.world.workers.map fun w =>
        if w.key.id = id then
          { w with context := { w.context with listeners := w.context.listeners ++ [l] } }
        else w
      ({ o with world := { o.world with workers } }, .ok ())
    else (o, .error (.transformNotFound id))
  | _ => (o, .error .notPrepared)

/-! ### Start and stop -/

/-- Sets the end marks of the row sets for injected rows that nobody has asked for. -/
def closeInjectors (o : Orchestrator σ) (claimed : List String) : Orchestrator σ :=
  let positions := (Topology.build o.pipeline).injectors.filterMap fun (id, i) =>
    if id ∈ claimed then none else some i
  { o with world := { o.world with shared := positions.foldl Shared.finish o.world.shared } }

/-- Starts all workers. It is assumed that there is a thread for each of them: how many the operating
system grants is not part of a run. -/
def start (o : Orchestrator σ) : Orchestrator σ × Except ExecutionError Unit :=
  match o.state with
  | .prepared claimed =>
    match o.callHook .start (o.scene o.world.shared.bindings) with
    | (o, _, .error e) =>
      let o := { o with state := .finished }
      ((o.closeInjectors []).abandonAll o.world.workers.size, .error e)
    | (o, _, .ok ()) =>
      let o := o.closeInjectors claimed
      let workers := o.world.workers.map fun w => { w with phase := .starting }
      let o := { o with
        world := { o.world with workers }
        state := .running o.world.shared.clock }
      (o.say (.pipelineStarted o.pipeline.name o.world.workers.size), .ok ())
  | .idle => (o, .error .notPrepared)
  | _ => (o, .error .alreadyStarted)

/-- Raises the stop flag. -/
def stop (o : Orchestrator σ) : Orchestrator σ :=
  { o with world := { o.world with shared := o.world.shared.requestStop "orchestrator" } }

/-- Has the stop flag raised after a number of milliseconds. -/
def stopLater (o : Orchestrator σ) (millis : Nat) : Orchestrator σ :=
  { o with world := { o.world with
    alarms := (o.world.shared.clock + millis * 1000) :: o.world.alarms } }

/-! ### The end -/

/-- One step of waiting for the end of the run. -/
def attend (o : Orchestrator σ) (v : Vigil) : Orchestrator σ × Vigil :=
  let (shared, v) := v.step (o.pipeline.engine.shutdownTimeout * 1000) o.world.shared
  ({ o with world := { o.world with shared } }, v)

/-- Collects reports until all are there or the missing ones are given up. -/
def collect : Nat → Orchestrator σ → Vigil → Orchestrator σ × Collection
  | 0, o, v => (o, v.collection)
  | fuel + 1, o, v =>
    match v.watch with
    | .ended => (o, v.collection)
    | .receiving limit =>
      let (o, v) := (o.runUntil (fun w => !w.shared.reports.isEmpty) (some limit)).attend v
      collect fuel o v
    | _ =>
      let (o, v) := o.attend v
      collect fuel o v

/-- How many steps of waiting there may be before it is given up. -/
def patience : Nat := 30000000

/-- Whoever begins to wait misses the reports of all workers. -/
def vigil (o : Orchestrator σ) : Vigil :=
  { collection := { outstanding := o.world.workers.toList.map Worker.key } }

/-- The reports in the order of the workers, by those that have been collected. -/
def reportsOf (o : Orchestrator σ) (c : Collection) : List Summary :=
  o.world.workers.toList.map (c.reportOf ·.key)

/-- The result of the run, by the reports that have been collected. -/
def resultOf (o : Orchestrator σ) (c : Collection) : Except Panic RunResult :=
  RunResult.ofReports o.pipeline.name (o.reportsOf c) o.world.shared.stopped

/-- What is written to the log about a result. -/
def completion (result : RunResult) (took : Duration) : Except Panic Log.Message := do
  return .pipelineCompleted result.pipeline result.status.title (← result.diverted) took

/-- Waits for the end of the run. Whoever waits breaks down over reports that come to no result. -/
def wait (o : Orchestrator σ) : Orchestrator σ × Except Panic (Except ExecutionError RunResult) :=
  match o.state with
  | .running since =>
    let (o, c) := collect patience { o with state := .finished } o.vigil
    let timeout := Duration.ofMillis o.pipeline.engine.shutdownTimeout
    let o := c.missing.foldl (fun o k => o.say (.workerTimedOut k.id k.copy timeout)) o
    match o.resultOf c with
    | .error p => (o, .error p)
    | .ok result =>
      match completion result ⟨(o.world.shared.clock - since) * 1000⟩ with
      | .error p => (o, .error p)
      | .ok message =>
        let o := o.say message
        let scene := { o.scene o.world.shared.bindings with status := some result.status }
        let (o, _, _) := o.callHook .finished scene
        (o, .ok (.ok result))
  | _ => (o, .ok (.error .notStarted))

/-- Prepares, starts and waits. -/
def execute (o : Orchestrator σ) :
    Orchestrator σ × Except Panic (Except ExecutionError RunResult) :=
  match o.prepare with
  | (o, .error e) => (o, .ok (.error e))
  | (o, .ok ()) =>
    match o.start with
    | (o, .error e) => (o, .ok (.error e))
    | (o, .ok ()) => o.wait

end Orchestrator

end Rowflow
