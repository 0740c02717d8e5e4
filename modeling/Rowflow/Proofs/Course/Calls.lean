import Mathlib.Tactic.Common
import Rowflow.Engine.Orchestrator

/-!
# What a call can do

The ways in which a call of a hook, the preparation of one worker, a preparation and a start can go:
`callHook_cases`, `prepareWorker_ends`, `prepare_ends` and `start_ends`. Whatever is proved about these
calls goes through these cases, and nothing else looks into them. A call that does not get a run into
another state leaves its pipeline and its transforms alone as well (`SameRun`).
-/

namespace Rowflow

variable {σ : Type}

/-- The worker at its start. -/
def Worker.launch (x : Worker σ) : Worker σ := { x with phase := .starting }

namespace Orchestrator

/-- The workers' keys, in the order of the workers. -/
def keys (o : Orchestrator σ) : List WorkerKey := o.world.workers.toList.map Worker.key

/-! ### What stays the same -/

/-- What stays the same through a preparation. -/
structure SameRun (o o' : Orchestrator σ) : Prop where
  pipeline : o'.pipeline = o.pipeline
  transforms : o'.transforms = o.transforms
  state : o'.state = o.state

theorem SameRun.refl (o : Orchestrator σ) : o.SameRun o := ⟨rfl, rfl, rfl⟩

theorem SameRun.trans {o o' o'' : Orchestrator σ} (h : o.SameRun o') (h' : o'.SameRun o'') :
    o.SameRun o'' :=
  ⟨h'.pipeline.trans h.pipeline, h'.transforms.trans h.transforms, h'.state.trans h.state⟩

theorem sameRun_say (o : Orchestrator σ) (m : Log.Message) : o.SameRun (o.say m) := ⟨rfl, rfl, rfl⟩

/-! ### Hooks -/

/-- The run after a call of a hook, whatever the answer. -/
def called (o : Orchestrator σ) (point : HookPoint) (scene : HookScene) : Orchestrator σ :=
  { o with calls := ⟨point, scene⟩ :: o.calls }

theorem sameRun_called (o : Orchestrator σ) (point : HookPoint) (scene : HookScene) :
    o.SameRun (o.called point scene) := ⟨rfl, rfl, rfl⟩

/-- Whether the hooks accept a call. -/
def Accepts (o : Orchestrator σ) (point : HookPoint) (scene : HookScene) : Prop :=
  (o.hooks o.calls ⟨point, scene⟩).refusal = none

theorem callHook_cases (o : Orchestrator σ) (point : HookPoint) (scene : HookScene) :
    (∃ bindings message, ¬ o.Accepts point scene ∧ o.callHook point scene =
      ((o.called point scene).say (.hookFailed o.pipeline.name point.title message), bindings,
        .error (.hookFailed point message))) ∨
    ∃ bindings, o.Accepts point scene ∧
      o.callHook point scene = (o.called point scene, bindings, .ok ()) := by
  unfold callHook Accepts
  dsimp only
  rcases (o.hooks o.calls ⟨point, scene⟩).refusal with _ | message
  · exact Or.inr ⟨_, rfl, rfl⟩
  · exact Or.inl ⟨_, _, by simp, rfl⟩

variable [Transform σ]

/-! ### One worker -/

theorem sameRun_abandon (o : Orchestrator σ) (i : Nat) : o.SameRun (o.abandon i) := ⟨rfl, rfl, rfl⟩

theorem sameRun_abandonAll (o : Orchestrator σ) (n : Nat) : o.SameRun (o.abandonAll n) := by
  unfold abandonAll
  induction List.range n generalizing o with
  | nil => exact .refl o
  | cons i rest ih => exact (o.sameRun_abandon i).trans (ih _)

theorem sameRun_enroll (o : Orchestrator σ) (k : WorkerKey) (wiring : Wiring) (spec : TransformSpec)
    (state : σ) : o.SameRun (o.enroll k wiring spec state).1 := by
  unfold enroll
  dsimp only
  split <;> exact ⟨rfl, rfl, rfl⟩

/-- The scene for the hooks when a worker has been initialized. -/
def sceneOf (o : Orchestrator σ) (k : WorkerKey) (bindings : Table String) : HookScene :=
  { pipeline := o.pipeline.name, worker := some k, bindings }

/-- How the preparation of a worker can end. -/
inductive WorkerEnds (o : Orchestrator σ) (k : WorkerKey) (wiring : Wiring) (bindings : Table String) :
    Orchestrator σ × Except ExecutionError (Table String) → Prop where
  | unknown (hr : o.transforms.find? k.id = none) :
    WorkerEnds o k wiring bindings (o, .error (.transformNotFound k.id))
  | refused (built : Table Nat) {r : Resolved σ} {n : Nat} {e : ResolutionError}
    (hr : o.transforms.find? k.id = some r) (hi : r.instantiate n = .error e) :
    WorkerEnds o k wiring bindings
      (({ o with built } : Orchestrator σ).abandonAll o.world.workers.size, .error (.unresolved e))
  | initFailed (built : Table Nat) {r : Resolved σ} {n : Nat} {state : σ} {o₁ : Orchestrator σ}
    {e : TransformError} (hr : o.transforms.find? k.id = some r) (hi : r.instantiate n = .ok state)
    (he : ({ o with built } : Orchestrator σ).enroll k wiring r.spec state = (o₁, .error e)) :
    WorkerEnds o k wiring bindings
      (((o₁.say (.initFailed k.id k.copy e.render)).abandon o.world.workers.size).abandonAll
        o.world.workers.size, .error (.initFailed k e))
  | hookFailed (built : Table Nat) {r : Resolved σ} {n : Nat} {state : σ} {o₁ : Orchestrator σ}
    {message : String} (hr : o.transforms.find? k.id = some r) (hi : r.instantiate n = .ok state)
    (he : ({ o with built } : Orchestrator σ).enroll k wiring r.spec state = (o₁, .ok ()))
    (hh : ¬ o₁.Accepts .initialized (o₁.sceneOf k bindings)) :
    WorkerEnds o k wiring bindings
      (((o₁.called .initialized (o₁.sceneOf k bindings)).say
        (.hookFailed o₁.pipeline.name HookPoint.initialized.title message)).abandonAll
          (o.world.workers.size + 1), .error (.hookFailed .initialized message))
  | prepared (built : Table Nat) {r : Resolved σ} {n : Nat} {state : σ} {o₁ : Orchestrator σ}
    {bindings' : Table String} (hr : o.transforms.find? k.id = some r)
    (hi : r.instantiate n = .ok state)
    (he : ({ o with built } : Orchestrator σ).enroll k wiring r.spec state = (o₁, .ok ()))
    (hh : o₁.Accepts .initialized (o₁.sceneOf k bindings)) :
    WorkerEnds o k wiring bindings (o₁.called .initialized (o₁.sceneOf k bindings), .ok bindings')

theorem prepareWorker_ends (o : Orchestrator σ) (k : WorkerKey) (wiring : Wiring)
    (bindings : Table String) :
    WorkerEnds o k wiring bindings (o.prepareWorker k wiring bindings) := by
  unfold prepareWorker instantiate
  dsimp only
  rcases hr : o.transforms.find? k.id with _ | r
  · exact .unknown hr
  · dsimp only
    rcases hi : r.instantiate ((o.built.find? r.spec.id).getD 0 + 1) with e | state
    · exact .refused _ hr hi
    · dsimp only
      rcases he : enroll _ k wiring r.spec state with ⟨o₁, e | _⟩ <;> dsimp only
      · exact .initFailed _ hr hi he
      · rcases o₁.callHook_cases .initialized (o₁.sceneOf k bindings) with
          ⟨b, message, hn, hh⟩ | ⟨b, ha, hh⟩ <;> rw [sceneOf] at hh <;> rw [hh]
        · exact .hookFailed _ hr hi he hn
        · exact .prepared _ hr hi he ha

theorem sameRun_prepareWorker (o : Orchestrator σ) (k : WorkerKey) (wiring : Wiring)
    (bindings : Table String) : o.SameRun (o.prepareWorker k wiring bindings).1 := by
  have hends := o.prepareWorker_ends k wiring bindings
  have henrolled : ∀ {built : Table Nat} {r : Resolved σ} {state : σ} {o₁ : Orchestrator σ}
      {result : Except TransformError Unit},
      ({ o with built } : Orchestrator σ).enroll k wiring r.spec state = (o₁, result) →
      o.SameRun o₁ := by
    intro built r state o₁ result he
    have hsame := ({ o with built } : Orchestrator σ).sameRun_enroll k wiring r.spec state
    rw [he] at hsame
    exact ⟨hsame.pipeline, hsame.transforms, hsame.state⟩
  generalize o.prepareWorker k wiring bindings = x at hends ⊢
  cases hends
  case unknown => exact .refl o
  case refused built r n e hr hi =>
    have hsame : o.SameRun { o with built } := ⟨rfl, rfl, rfl⟩
    exact hsame.trans (sameRun_abandonAll _ _)
  case initFailed built r n state o₁ e hr hi he =>
    have hsaid := (henrolled he).trans (sameRun_say o₁ (.initFailed k.id k.copy e.render))
    exact (hsaid.trans (sameRun_abandon _ _)).trans (sameRun_abandonAll _ _)
  case hookFailed built r n state o₁ message hr hi he hh =>
    have hcalled := (henrolled he).trans (sameRun_called o₁ .initialized (o₁.sceneOf k bindings))
    exact (hcalled.trans (sameRun_say _ _)).trans (sameRun_abandonAll _ _)
  case prepared built r n state o₁ b hr hi he hh =>
    exact (henrolled he).trans (sameRun_called _ _ _)

theorem sameRun_prepareWorkers (o : Orchestrator σ) (t : Topology) (bindings : Table String)
    (ks : List WorkerKey) : o.SameRun (o.prepareWorkers t bindings ks).1 := by
  induction ks generalizing o t bindings with
  | nil => exact .refl o
  | cons k rest ih =>
    have hsame := o.sameRun_prepareWorker k (t.takeWiring k).1 bindings
    unfold prepareWorkers
    dsimp only
    rcases hp : o.prepareWorker k (t.takeWiring k).1 bindings with ⟨o₁, e | bindings'⟩ <;>
      rw [hp] at hsame
    · exact hsame
    · exact hsame.trans (ih o₁ _ bindings')

/-! ### All workers -/

/-- The run when its row sets have been laid out, after the hooks have accepted the preparation. -/
def begun (o : Orchestrator σ) (bindings : Table String) : Orchestrator σ :=
  (o.called .prepare (o.scene o.bindings)).layOut bindings

omit [Transform σ] in
theorem sameRun_begun (o : Orchestrator σ) (bindings : Table String) :
    o.SameRun (o.begun bindings) := ⟨rfl, rfl, rfl⟩

/-- How a preparation can end. -/
inductive PrepareEnds (o : Orchestrator σ) : Orchestrator σ × Except ExecutionError Unit → Prop where
  | misplaced (hs : o.state ≠ .idle) : PrepareEnds o (o, .error .alreadyStarted)
  | refused {message : String} (hs : o.state = .idle)
    (hh : ¬ o.Accepts .prepare (o.scene o.bindings)) :
    PrepareEnds o ((o.called .prepare (o.scene o.bindings)).say
      (.hookFailed o.pipeline.name HookPoint.prepare.title message),
      .error (.hookFailed .prepare message))
  | cyclic (bindings : Table String) (hs : o.state = .idle)
    (hh : o.Accepts .prepare (o.scene o.bindings))
    (hord : (HopGraph.ofPipeline o.pipeline).topologicalOrder = none) :
    PrepareEnds o (o.begun bindings, .error (.invalidGraph [.cyclicHop []]))
  | failed (bindings : Table String) {order : List String} {o₁ : Orchestrator σ}
    {e : ExecutionError} (hs : o.state = .idle) (hh : o.Accepts .prepare (o.scene o.bindings))
    (hord : (HopGraph.ofPipeline o.pipeline).topologicalOrder = some order)
    (hw : (o.begun bindings).prepareWorkers (Topology.build o.pipeline) bindings
      (order.flatMap o.pipeline.copiesOf) = (o₁, .error e)) :
    PrepareEnds o (o₁, .error e)
  | prepared (bindings : Table String) {order : List String} {o₁ : Orchestrator σ} (m : Log.Message)
    (hs : o.state = .idle) (hh : o.Accepts .prepare (o.scene o.bindings))
    (hord : (HopGraph.ofPipeline o.pipeline).topologicalOrder = some order)
    (hw : (o.begun bindings).prepareWorkers (Topology.build o.pipeline) bindings
      (order.flatMap o.pipeline.copiesOf) = (o₁, .ok ())) :
    PrepareEnds o ({ o₁.say m with state := .prepared [] }, .ok ())

theorem prepare_ends (o : Orchestrator σ) : PrepareEnds o o.prepare := by
  unfold prepare
  by_cases hs : o.state = .idle
  · rw [if_neg (not_not.mpr hs)]
    rcases o.callHook_cases .prepare (o.scene o.bindings) with ⟨b, message, hn, hh⟩ | ⟨b, ha, hh⟩ <;>
      rw [hh]
    · exact .refused hs hn
    · dsimp only
      rw [← begun, (o.sameRun_begun b).pipeline]
      rcases hord : (HopGraph.ofPipeline o.pipeline).topologicalOrder with _ | order
      · exact .cyclic b hs ha hord
      · dsimp only
        rcases hw : (o.begun b).prepareWorkers (Topology.build o.pipeline) b
          (order.flatMap o.pipeline.copiesOf) with ⟨o₁, e | _⟩
        · exact .failed b hs ha hord hw
        · exact .prepared b _ hs ha hord hw
  · rw [if_pos hs]
    exact .misplaced hs

theorem sameRun_prepare {o : Orchestrator σ} {e : ExecutionError} (h : o.prepare.2 = .error e) :
    o.SameRun o.prepare.1 := by
  have hends := o.prepare_ends
  generalize o.prepare = x at hends h ⊢
  cases hends
  case misplaced hs => exact .refl o
  case refused message hs hh => exact (sameRun_called o _ _).trans (sameRun_say _ _)
  case cyclic b hs hh hord => exact o.sameRun_begun b
  case failed b order o₁ e hs hh hord hw =>
    have hsame := (o.begun b).sameRun_prepareWorkers (Topology.build o.pipeline) b
      (order.flatMap o.pipeline.copiesOf)
    rw [hw] at hsame
    exact (o.sameRun_begun b).trans hsame
  case prepared => cases h

theorem state_prepare_ok {o : Orchestrator σ} (h : o.prepare.2 = .ok ()) :
    o.prepare.1.state = .prepared [] := by
  have hends := o.prepare_ends
  generalize o.prepare = x at hends h ⊢
  cases hends
  case prepared => rfl
  all_goals cases h

/-- After a preparation a run is prepared, or in the state in which it was. -/
theorem state_prepare (o : Orchestrator σ) :
    o.prepare.1.state = .prepared [] ∨ o.prepare.1.state = o.state := by
  rcases hp : o.prepare.2 with e | _
  · exact Or.inr (sameRun_prepare hp).state
  · exact Or.inl (state_prepare_ok hp)

theorem prepare_fixed (o : Orchestrator σ) :
    o.prepare.1.pipeline = o.pipeline ∧ o.prepare.1.transforms = o.transforms := by
  rcases hp : o.prepare.2 with e | _
  · exact ⟨(sameRun_prepare hp).pipeline, (sameRun_prepare hp).transforms⟩
  · have hends := o.prepare_ends
    generalize o.prepare = x at hends hp ⊢
    cases hends
    case prepared b order o₁ m hs hh hord hw =>
      have hsame := (o.begun b).sameRun_prepareWorkers (Topology.build o.pipeline) b
        (order.flatMap o.pipeline.copiesOf)
      rw [hw] at hsame
      exact ⟨hsame.pipeline, hsame.transforms⟩
    all_goals cases hp

/-! ### The start -/

/-- The run when its workers have been put to work. -/
def launched (o : Orchestrator σ) : Orchestrator σ :=
  { o with
    world := { o.world with workers := o.world.workers.map Worker.launch }
    state := .running o.world.shared.clock }

/-- How a start can end. -/
inductive StartEnds (o : Orchestrator σ) : Orchestrator σ × Except ExecutionError Unit → Prop where
  | unprepared (hs : o.state = .idle) : StartEnds o (o, .error .notPrepared)
  | misplaced (hs : o.state ≠ .idle) (hs' : ∀ claimed, o.state ≠ .prepared claimed) :
    StartEnds o (o, .error .alreadyStarted)
  | refused {claimed : List String} {message : String} (hs : o.state = .prepared claimed)
    (hh : ¬ o.Accepts .start (o.scene o.world.shared.bindings)) {o₁ : Orchestrator σ}
    (ho : o₁ = (o.called .start (o.scene o.world.shared.bindings)).say
      (.hookFailed o.pipeline.name HookPoint.start.title message)) :
    StartEnds o ((({ o₁ with state := .finished } : Orchestrator σ).closeInjectors []).abandonAll
      o.world.workers.size, .error (.hookFailed .start message))
  | started {claimed : List String} (m : Log.Message) (hs : o.state = .prepared claimed)
    (hh : o.Accepts .start (o.scene o.world.shared.bindings)) :
    StartEnds o (((o.called .start (o.scene o.world.shared.bindings)).closeInjectors
      claimed).launched.say m, .ok ())

theorem start_ends (o : Orchestrator σ) : StartEnds o o.start := by
  unfold start
  rcases hs : o.state with _ | claimed | since | _ <;> dsimp only
  case idle => exact .unprepared hs
  case prepared =>
    rcases o.callHook_cases .start (o.scene o.world.shared.bindings) with
      ⟨b, message, hn, hh⟩ | ⟨b, ha, hh⟩ <;> rw [hh]
    · exact .refused hs hn rfl
    · exact .started _ hs ha
  case running =>
    exact .misplaced (by rw [hs]; exact nofun) fun claimed => by rw [hs]; exact nofun
  case finished =>
    exact .misplaced (by rw [hs]; exact nofun) fun claimed => by rw [hs]; exact nofun

theorem state_start {o : Orchestrator σ} {claimed : List String} (hs : o.state = .prepared claimed) :
    (o.start.2 = .ok () → ∃ since, o.start.1.state = .running since) ∧
      ∀ e, o.start.2 = .error e → o.start.1.state = .finished := by
  have hends := o.start_ends
  generalize o.start = x at hends ⊢
  cases hends
  case unprepared hs' =>
    rw [hs] at hs'
    cases hs'
  case misplaced hs' => exact absurd hs (hs' claimed)
  case refused => exact ⟨fun hok => by (cases hok), fun _ _ => (sameRun_abandonAll _ _).state⟩
  case started => exact ⟨fun _ => ⟨_, rfl⟩, fun e he => by (cases he)⟩

theorem start_fixed (o : Orchestrator σ) :
    o.start.1.pipeline = o.pipeline ∧ o.start.1.transforms = o.transforms := by
  have hends := o.start_ends
  generalize o.start = x at hends ⊢
  cases hends
  case refused claimed message hs hh o₁ ho =>
    have hsame := sameRun_abandonAll (({ o₁ with state := .finished } : Orchestrator σ).closeInjectors [])
      o.world.workers.size
    subst ho
    exact ⟨hsame.pipeline, hsame.transforms⟩
  all_goals exact ⟨rfl, rfl⟩

end Orchestrator

end Rowflow
