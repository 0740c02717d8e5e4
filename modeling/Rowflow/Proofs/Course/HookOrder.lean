import Rowflow.Proofs.Course.Calls

/-!
# The order of hooks

The hooks of one run are called by an agenda: at the preparation, after the initialization of each
worker in order, at the start, at the end. A refusal breaks the run off, and the next preparation
begins with the agenda anew. So the calls of an orchestrator fall into runs, each of which is the
beginning of the agenda (`Hooks.Agreed`), and as long as a run goes on, all hooks have accepted
(`Orchestrator.Passed`).
-/

namespace Rowflow

variable {σ : Type}

/-- Where a hook is called, and for which worker. -/
def HookCall.place (c : HookCall) : HookPoint × Option WorkerKey := (c.point, c.scene.worker)

namespace Hooks

/-- The places on the agenda before the start, when some workers have been initialized. -/
def early (ks : List WorkerKey) : List (HookPoint × Option WorkerKey) :=
  (.prepare, .none) :: ks.map fun k => (.initialized, some k)

/-- The places on the agenda up to the start. -/
def untilStart (ks : List WorkerKey) : List (HookPoint × Option WorkerKey) :=
  early ks ++ [(.start, .none)]

/-- The agenda of a run with some workers. -/
def agenda (ks : List WorkerKey) : List (HookPoint × Option WorkerKey) :=
  untilStart ks ++ [(.finished, .none)]

/-- Whether the hooks have accepted all calls of a run, the last one first, when other calls had been
made before. -/
def AllAccept (hooks : Hooks) (before : List HookCall) : List HookCall → Prop
  | [] => True
  | call :: older => (hooks (older ++ before) call).refusal = .none ∧ AllAccept hooks before older

/-- The calls, the last one first, fall into runs, each of which is the beginning of the agenda. -/
def Agreed (ks : List WorkerKey) (calls : List HookCall) : Prop :=
  ∃ runs : List (List HookCall), calls.reverse = runs.flatten ∧
    ∀ run ∈ runs, run ≠ [] ∧ run.map HookCall.place <+: agenda ks

theorem early_append (ks : List WorkerKey) (k : WorkerKey) :
    early (ks ++ [k]) = early ks ++ [(.initialized, some k)] := by
  unfold early
  rw [List.map_append]
  rfl

theorem early_begins {done ks : List WorkerKey} (h : done <+: ks) : early done <+: agenda ks := by
  obtain ⟨rest, rfl⟩ := h
  unfold agenda untilStart early
  exact ⟨rest.map (fun k => (.initialized, some k)) ++ [(.start, .none)] ++ [(.finished, .none)],
    by simp⟩

theorem untilStart_begins (ks : List WorkerKey) : untilStart ks <+: agenda ks :=
  List.prefix_append _ _

theorem agreed_nil (ks : List WorkerKey) : Agreed ks [] :=
  ⟨[], rfl, fun _ h => absurd h List.not_mem_nil⟩

theorem Agreed.add {ks : List WorkerKey} {before : List HookCall} (h : Agreed ks before)
    (run : List HookCall) (hne : run ≠ []) (hrun : run.reverse.map HookCall.place <+: agenda ks) :
    Agreed ks (run ++ before) := by
  obtain ⟨runs, hruns, hall⟩ := h
  refine ⟨runs ++ [run.reverse], by simp [hruns], fun r hr => ?_⟩
  rcases List.mem_append.mp hr with hr | hr
  · exact hall r hr
  · rw [List.mem_singleton.mp hr]
    exact ⟨by simpa using hne, hrun⟩

end Hooks

namespace Orchestrator

open Hooks (early untilStart agenda AllAccept Agreed early_append early_begins)

/-- The calls that have been made are the same, and so are the hooks. -/
structure SameCalls (o o' : Orchestrator σ) : Prop where
  calls : o'.calls = o.calls
  hooks : o'.hooks = o.hooks

theorem SameCalls.trans {o o' o'' : Orchestrator σ} (h : o.SameCalls o') (h' : o'.SameCalls o'') :
    o.SameCalls o'' :=
  ⟨h'.calls.trans h.calls, h'.hooks.trans h.hooks⟩

/-- The run has got through some places of the agenda, and all hooks have accepted. -/
structure Passed (ks : List WorkerKey) (places : List (HookPoint × Option WorkerKey))
    (o : Orchestrator σ) : Prop where
  split : ∃ run before, o.calls = run ++ before ∧ Agreed ks before ∧
    run.reverse.map HookCall.place = places ∧ AllAccept o.hooks before run

section Passed

variable {ks : List WorkerKey} {places : List (HookPoint × Option WorkerKey)} {o o' : Orchestrator σ}

theorem Passed.same (h : o.Passed ks places) (hs : o.SameCalls o') : o'.Passed ks places := by
  obtain ⟨run, before, hcalls, hrest⟩ := h.split
  refine ⟨run, before, hs.calls.trans hcalls, ?_⟩
  rw [hs.hooks]
  exact hrest

theorem Passed.agreed (h : o.Passed ks places) (hne : places ≠ []) (hp : places <+: agenda ks) :
    Agreed ks o.calls := by
  obtain ⟨run, before, hcalls, hbefore, rfl, -⟩ := h.split
  rw [hcalls]
  exact hbefore.add run (by simpa using hne) hp

/-- Whether a call is accepted or not, it is the next one on the agenda. -/
theorem Passed.agreed_called (h : o.Passed ks places) {point : HookPoint} {scene : HookScene}
    (hp : places ++ [(point, scene.worker)] <+: agenda ks) :
    Agreed ks (o.called point scene).calls := by
  obtain ⟨run, before, hcalls, hbefore, rfl, -⟩ := h.split
  have hadd := hbefore.add (⟨point, scene⟩ :: run) (List.cons_ne_nil _ _)
    (by simpa [HookCall.place] using hp)
  unfold called
  rwa [hcalls]

theorem Passed.called (h : o.Passed ks places) {point : HookPoint} {scene : HookScene}
    (ha : o.Accepts point scene) :
    (o.called point scene).Passed ks (places ++ [(point, scene.worker)]) := by
  obtain ⟨run, before, hcalls, hbefore, rfl, hall⟩ := h.split
  refine ⟨⟨point, scene⟩ :: run, before, ?_, hbefore, by simp [HookCall.place], ?_, hall⟩
  · show _ :: o.calls = _
    rw [hcalls]
    rfl
  · show (o.hooks (run ++ before) _).refusal = none
    rw [← hcalls]
    exact ha

end Passed

/-! ### What calls no hook -/

variable [Transform σ]

theorem sameCalls_abandonAll (o : Orchestrator σ) (n : Nat) : o.SameCalls (o.abandonAll n) := by
  unfold abandonAll
  induction List.range n generalizing o with
  | nil => exact ⟨rfl, rfl⟩
  | cons i rest ih =>
    have hone : o.SameCalls (o.abandon i) := ⟨rfl, rfl⟩
    exact hone.trans (ih _)

theorem sameCalls_enroll {o o₁ : Orchestrator σ} {k : WorkerKey} {wiring : Wiring}
    {spec : TransformSpec} {state : σ} {result : Except TransformError Unit} {built : Table Nat}
    (h : ({ o with built } : Orchestrator σ).enroll k wiring spec state = (o₁, result)) :
    o.SameCalls o₁ := by
  have hsame : o.SameCalls (({ o with built } : Orchestrator σ).enroll k wiring spec state).1 := by
    unfold enroll
    dsimp only
    split <;> exact ⟨rfl, rfl⟩
  rwa [h] at hsame

/-! ### Preparation and start -/

variable {ks done : List WorkerKey} {o : Orchestrator σ}

/-- The preparation of one worker calls the hooks for it, if its initialization succeeds. -/
theorem prepareWorker_passed {k : WorkerKey} (wiring : Wiring) (bindings : Table String)
    (h : o.Passed ks (early done)) (hk : done ++ [k] <+: ks) :
    (∀ b, (o.prepareWorker k wiring bindings).2 = .ok b →
      (o.prepareWorker k wiring bindings).1.Passed ks (early (done ++ [k]))) ∧
    ∀ e, (o.prepareWorker k wiring bindings).2 = .error e →
      Agreed ks (o.prepareWorker k wiring bindings).1.calls := by
  have hagreed : ∀ {o' : Orchestrator σ}, o.SameCalls o' → Agreed ks o'.calls := fun hs =>
    (h.same hs).agreed (List.cons_ne_nil _ _) (early_begins ((List.prefix_append _ _).trans hk))
  have hends := o.prepareWorker_ends k wiring bindings
  generalize o.prepareWorker k wiring bindings = x at hends ⊢
  cases hends
  case unknown => exact ⟨fun b hb => by (cases hb), fun e _ => hagreed ⟨rfl, rfl⟩⟩
  case refused built _ _ _ _ _ =>
    have hbuilt : o.SameCalls { o with built } := ⟨rfl, rfl⟩
    exact ⟨fun b hb => by (cases hb), fun e _ => hagreed (hbuilt.trans (sameCalls_abandonAll _ _))⟩
  case initFailed built r n state o₁ e hr hi he =>
    refine ⟨fun b hb => by (cases hb), fun e' _ => hagreed ?_⟩
    have hleft : o₁.SameCalls ((o₁.say (.initFailed k.id k.copy e.render)).abandon
      o.world.workers.size) := ⟨rfl, rfl⟩
    exact (sameCalls_enroll he).trans (hleft.trans (sameCalls_abandonAll _ _))
  case hookFailed built r n state o₁ message hr hi he hn =>
    refine ⟨fun b hb => by (cases hb), fun e' _ => ?_⟩
    rw [(sameCalls_abandonAll _ _).calls]
    refine (h.same (sameCalls_enroll he)).agreed_called ?_
    have hprefix := early_begins hk
    rwa [early_append] at hprefix
  case prepared built r n state o₁ b hr hi he ha =>
    refine ⟨fun _ _ => ?_, fun e he => by (cases he)⟩
    rw [early_append]
    exact (h.same (sameCalls_enroll he)).called ha

theorem prepareWorkers_passed {rest : List WorkerKey} (t : Topology) (bindings : Table String)
    (h : o.Passed ks (early done)) (hks : done ++ rest = ks) :
    ((o.prepareWorkers t bindings rest).2 = .ok () →
      (o.prepareWorkers t bindings rest).1.Passed ks (early ks)) ∧
    ∀ e, (o.prepareWorkers t bindings rest).2 = .error e →
      Agreed ks (o.prepareWorkers t bindings rest).1.calls := by
  induction rest generalizing done o t bindings with
  | nil =>
    rw [List.append_nil] at hks
    exact ⟨fun _ => hks ▸ h, fun e he => by cases he⟩
  | cons k rest ih =>
    have hsplit : (done ++ [k]) ++ rest = ks := by simpa using hks
    have hone := prepareWorker_passed (t.takeWiring k).1 bindings h ⟨rest, hsplit⟩
    unfold prepareWorkers
    dsimp only
    rcases hw : o.prepareWorker k (t.takeWiring k).1 bindings with ⟨o₁, e | b⟩ <;> rw [hw] at hone
    · exact ⟨fun hok => by (cases hok), fun e' _ => hone.2 e rfl⟩
    · exact ih _ b (hone.1 b rfl) hsplit

/-- **A preparation** begins a run, and calls the hooks in the order of the agenda. -/
theorem prepare_passed (h : Agreed ks o.calls)
    (hks : ∀ order, (HopGraph.ofPipeline o.pipeline).topologicalOrder = some order →
      ks = order.flatMap o.pipeline.copiesOf) :
    (o.prepare.2 = .ok () → o.prepare.1.Passed ks (early ks)) ∧
    ∀ e, o.prepare.2 = .error e → Agreed ks o.prepare.1.calls := by
  have hbegun : Agreed ks (o.called .prepare (o.scene o.bindings)).calls :=
    h.add [_] (List.cons_ne_nil _ _) (early_begins (List.nil_prefix (l := ks)))
  have hall : ∀ {b : Table String} {order : List String} {o₁ : Orchestrator σ}
      {result : Except ExecutionError Unit}, o.Accepts .prepare (o.scene o.bindings) →
      (HopGraph.ofPipeline o.pipeline).topologicalOrder = some order →
      (o.begun b).prepareWorkers (Topology.build o.pipeline) b
        (order.flatMap o.pipeline.copiesOf) = (o₁, result) →
      (result = .ok () → o₁.Passed ks (early ks)) ∧ ∀ e, result = .error e → Agreed ks o₁.calls := by
    intro b order o₁ result ha hord hw
    have hfirst : (o.begun b).Passed ks (early []) :=
      ⟨[⟨.prepare, o.scene o.bindings⟩], o.calls, rfl, h, rfl, ha, trivial⟩
    have hkeys : [] ++ order.flatMap o.pipeline.copiesOf = ks := (hks order hord).symm
    have hrest := prepareWorkers_passed (Topology.build o.pipeline) b hfirst hkeys
    rwa [hw] at hrest
  have hends := o.prepare_ends
  generalize o.prepare = x at hends ⊢
  cases hends
  case misplaced => exact ⟨fun hok => by (cases hok), fun _ _ => h⟩
  case refused => exact ⟨fun hok => by (cases hok), fun _ _ => hbegun⟩
  case cyclic => exact ⟨fun hok => by (cases hok), fun _ _ => hbegun⟩
  case failed b order o₁ e hs ha hord hw =>
    exact ⟨fun hok => by (cases hok), fun _ _ => (hall ha hord hw).2 e rfl⟩
  case prepared b order o₁ m hs ha hord hw =>
    exact ⟨fun _ => ((hall ha hord hw).1 rfl).same ⟨rfl, rfl⟩, fun e he => by (cases he)⟩

/-- **A start** calls the next hooks on the agenda. -/
theorem start_passed {claimed : List String} (hs : o.state = .prepared claimed)
    (h : o.Passed ks (early ks)) :
    (o.start.2 = .ok () → o.start.1.Passed ks (untilStart ks)) ∧
    ∀ e, o.start.2 = .error e → Agreed ks o.start.1.calls := by
  have hends := o.start_ends
  generalize o.start = x at hends ⊢
  cases hends
  case unprepared hs' =>
    rw [hs] at hs'
    cases hs'
  case misplaced hs' => exact absurd hs (hs' claimed)
  case refused claimed' message hs' hn o₁ ho =>
    refine ⟨fun hok => by (cases hok), fun e _ => ?_⟩
    rw [(sameCalls_abandonAll _ _).calls]
    subst ho
    exact h.agreed_called (Hooks.untilStart_begins ks)
  case started claimed' m hs' ha =>
    exact ⟨fun _ => (h.called ha).same ⟨rfl, rfl⟩, fun e he => by (cases he)⟩

end Orchestrator

end Rowflow
