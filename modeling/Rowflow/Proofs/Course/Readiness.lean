import Rowflow.Proofs.Course.Preparation
import Rowflow.Proofs.Pipeline.Completeness

/-!
# What can fail in a preparation

Once a pipeline has been accepted and its transforms have been resolved, its preparation can fail only
where somebody else has a say: at a hook or at the initialization of a transform. There is a
topological order (`Pipeline.exists_order`), every transform in it is resolved and can be made again
(`Orchestrator.instantiates`), and every worker finds its wiring (`Topology.Keeps`). A preparation that
succeeds has every worker once, each of them grown from one with the wiring that was laid out for it.
-/

namespace Rowflow

variable {σ : Type} [Transform σ]

/-! ### How a worker began -/

namespace Worker

/-- The one worker becomes the other one in a number of steps, whatever else happens meanwhile. -/
inductive Grows (x : Worker σ) : Worker σ → Prop where
  | refl : Grows x x
  | step {y : Worker σ} (s : Shared) (h : Grows x y) : Grows x (y.step s).2

theorem Grows.key {x y : Worker σ} (h : x.Grows y) : y.key = x.key := by
  induction h with
  | refl => rfl
  | @step y s _ ih => exact (y.step_effect s).leads.key.trans ih

/-- The worker began as a new instance of its transform, with the wiring that is laid out under its
name. -/
structure Wired (p : Pipeline) (ts : TransformMap σ) (x : Worker σ) : Prop where
  grown : ∃ r n state wiring, ts.find? x.key.id = some r ∧ p.transform? x.key.id = some r.spec ∧
    r.instantiate n = .ok state ∧ (Topology.build p).wiring.lookup x.key = some wiring ∧
    Grows (.new (.new r.spec x.key.copy wiring (p.slot x.key.id)) state) x

theorem Wired.step {p : Pipeline} {ts : TransformMap σ} {x : Worker σ} (h : x.Wired p ts)
    (s : Shared) : (x.step s).2.Wired p ts := by
  have hkey : (x.step s).2.key = x.key := (x.step_effect s).leads.key
  obtain ⟨r, n, state, wiring, hr, hspec, hi, hw, hgrown⟩ := h.grown
  refine ⟨r, n, state, wiring, ?_⟩
  rw [hkey]
  exact ⟨hr, hspec, hi, hw, .step s hgrown⟩

end Worker

/-- In a preparation every worker is given the wiring that is laid out for it. -/
theorem World.nascent_wired (p : Pipeline) (ts : TransformMap σ) :
    Nascent p ts fun w => ∀ x ∈ w.workers, x.Wired p ts where
  laid w hw _ _ := by
    rw [hw]
    exact Array.forall_mem_empty _
  like w w' hl hw := by
    rw [hl.workers]
    exact hw
  enrolled w k r n state hr hspec hk hi hw := by
    refine Array.forall_mem_push.mpr ⟨⟨r, n, state, p.wiring k, ?_⟩, hw⟩
    have hkey : (Worker.new (.new r.spec k.copy (p.wiring k) (p.slot k.id)) state).key = k :=
      Context.new_key hspec _ _
    rw [hkey]
    exact ⟨hr, hspec, hi, Topology.lookup_build hk, .refl⟩
  stepped w i x hi _ _ hw := World.forall_step hw fun _ _ hx => hx.step w.shared

/-! ### How a preparation fails -/

/-- A hook or the initialization of a transform has made the run fail. -/
def ExecutionError.IsAbort : ExecutionError → Prop
  | .hookFailed _ _ | .initFailed _ _ => True
  | _ => False

namespace Orchestrator

/-- The preparation of a worker fails at nothing but a hook or its initialization, if its transform
can be made. -/
theorem prepareWorker_fails {o : Orchestrator σ} {k : WorkerKey} {wiring : Wiring}
    {bindings : Table String} {r : Resolved σ} (hr : o.transforms.find? k.id = some r)
    (hmake : ∀ n, ∃ state, r.instantiate n = .ok state) {e : ExecutionError}
    (h : (o.prepareWorker k wiring bindings).2 = .error e) : e.IsAbort := by
  have hends := o.prepareWorker_ends k wiring bindings
  generalize o.prepareWorker k wiring bindings = x at hends h
  cases hends
  case unknown hr' =>
    rw [hr] at hr'
    cases hr'
  case refused built r' n e' hr' hi =>
    cases hr.symm.trans hr'
    obtain ⟨state, hs⟩ := hmake n
    rw [hi] at hs
    cases hs
  case initFailed =>
    cases h
    trivial
  case hookFailed =>
    cases h
    trivial
  case prepared => cases h

theorem prepareWorkers_fails {o : Orchestrator σ} {ks : List WorkerKey} {t : Topology}
    {bindings : Table String} (hmake : ∀ k ∈ ks, ∃ r, o.transforms.find? k.id = some r ∧
      ∀ n, ∃ state, r.instantiate n = .ok state) {e : ExecutionError}
    (h : (o.prepareWorkers t bindings ks).2 = .error e) : e.IsAbort := by
  induction ks generalizing o t bindings with
  | nil => cases h
  | cons k rest ih =>
    obtain ⟨r, hr, hstates⟩ := hmake k List.mem_cons_self
    have hsame := o.sameRun_prepareWorker k (t.takeWiring k).1 bindings
    unfold prepareWorkers at h
    dsimp only at h
    rcases hw : o.prepareWorker k (t.takeWiring k).1 bindings with ⟨o₁, e' | b⟩ <;> rw [hw] at h hsame
    · cases h
      exact prepareWorker_fails hr hstates (congrArg Prod.snd hw)
    · refine ih (fun k' hk' => ?_) h
      rw [hsame.transforms]
      exact hmake k' (List.mem_cons_of_mem _ hk')

/-- **What can fail in a preparation.** Once a pipeline has been accepted and resolved, with constructors
that are functions of the definition, its preparation fails at nothing but a hook or an
initialization, whatever hooks and variables it has been given and however often it has failed before.
If it succeeds, every worker is there once, and has been made with the wiring that was laid out for
it. -/
theorem prepare_ready {p : Pipeline} {registry : Registry σ} {o o' : Orchestrator σ}
    (hnew : new p registry = .ok o) (huniform : registry.Uniform) (hsame : o.SameRun o') :
    (∀ e, o'.prepare.2 = .error e → e.IsAbort) ∧
    (o'.prepare.2 = .ok () → p.Lists o'.prepare.1.keys ∧
      ∀ x ∈ o'.prepare.1.world.workers, x.Wired p o.transforms) := by
  obtain ⟨hv, hpipe, hidle, -⟩ := new_ok hnew
  have hp := Pipeline.wellFormed_of_validationErrors hv
  have hpipe' : o'.pipeline = p := hsame.pipeline.trans hpipe
  refine ⟨fun e he => ?_, fun hok => ?_⟩
  · have hends := o'.prepare_ends
    generalize o'.prepare = x at hends he
    cases hends
    case misplaced hs => exact absurd (hsame.state.trans hidle) hs
    case refused =>
      cases he
      trivial
    case cyclic hord =>
      obtain ⟨order, hord'⟩ := Pipeline.exists_order hv
      rw [hpipe', hord'] at hord
      cases hord
    case failed b order o₁ e' hs hh hord hw =>
      cases he
      refine prepareWorkers_fails (fun k hk => ?_) (congrArg Prod.snd hw)
      rw [hpipe'] at hk hord
      obtain ⟨id, hid, hkid⟩ := List.mem_flatMap.mp hk
      rw [(Pipeline.mem_copiesOf.mp hkid).1]
      obtain ⟨r, hr⟩ := exists_resolved hnew ((hp.forward hord).1.subset hid)
      refine ⟨r, ?_, instantiates hnew huniform hr⟩
      rw [(o'.sameRun_begun b).transforms, hsame.transforms]
      exact hr
    case prepared => cases he
  · have hts : ∀ id r, o'.transforms.find? id = some r → o'.pipeline.transform? id = some r.spec := by
      rw [hsame.transforms, hpipe']
      exact fun id r hr => (resolved_of_new hnew hr).1
    obtain ⟨-, order, hord, hprep⟩ := prepare_spec (World.nascent_wired _ _) hts hok
    have hkeys : o'.prepare.1.keys = order.flatMap o'.pipeline.copiesOf := hprep.enrolled.keys
    have hwired := hprep.property
    rw [hkeys]
    rw [hpipe'] at hord hwired ⊢
    rw [hsame.transforms] at hwired
    exact ⟨hp.lists hord, hwired⟩

namespace Copies

/-- The rows of two copies meet in one transform, and so do the rows that these copies divert. -/
def pipeline : Pipeline where
  transforms := [{ id := "sink", type := "dummy" },
    { id := "source", type := "dummy", copies := 2, errorHandling := some { target := "sink" } }]
  hops := [{ origin := "source", target := "sink" }]

/-- The built-in transforms. -/
def registry : Registry Builtin := .builtins id

/-- The run of the two transforms. -/
def orchestrator : Orchestrator Builtin where
  pipeline := pipeline
  transforms := (registry.resolve pipeline).toOption.getD .empty
  world := { shared := { pipeline := pipeline.name, poll := 50000 } }
  built := .ofList (pipeline.ids.map (·, 1))

theorem new_ok : Orchestrator.new pipeline registry = .ok orchestrator := rfl

end Copies

/-- Two copies of one transform and another transform are prepared. -/
theorem prepare_ready_copies : Copies.orchestrator.prepare.2 = .ok () ∧
    Copies.pipeline.Lists Copies.orchestrator.prepare.1.keys ∧
    ∀ x ∈ Copies.orchestrator.prepare.1.world.workers,
      x.Wired Copies.pipeline Copies.orchestrator.transforms := by
  have hok : Copies.orchestrator.prepare.2 = .ok () := rfl
  exact ⟨hok, (prepare_ready Copies.new_ok (Registry.uniform_builtins id) (.refl _)).2 hok⟩

end Orchestrator

end Rowflow
