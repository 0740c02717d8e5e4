import Rowflow.Proofs.Course.Launch

/-!
# What holds at any time

Before its workers are started a run may be prepared more than once: a preparation that fails leaves
behind what it has laid out, with workers that are abandoned half-way. A start that fails abandons
all of them. A property of worlds is `Lasting` if it holds before anything is laid out and outlasts
all of that, and `Durable` if steps of workers and what comes from outside keep it.

`Course.anytime` is the induction over all states of all runs: a lasting property holds as long as the
workers have not been started, and if the start turns it into a durable one, that one holds as long
as they run. With `Worker.Lasting` such a property is told worker by worker.
-/

namespace Rowflow

variable {σ : Type}

/-- A property of worlds that every step of a worker keeps, and everything that comes from outside, as
long as only such entries are injected as are admitted. -/
structure World.Durable [Transform σ] (p : Pipeline) (admits : Entry → Prop)
    (Q : World σ → Prop) : Prop where
  like : ∀ w w' : World σ, w.Like w' → Q w → Q w'
  stepped : ∀ (w : World σ) (i : Nat) (x : Worker σ), w.workers[i]? = some x → Q w → Q (w.step i)
  injected : ∀ (w : World σ) (i : Nat) (t : String) (e : Entry),
    p.channels[i]? = some (.injector t) → admits e → Q w →
    Q { w with shared := w.shared.accept i e }
  finished : ∀ (w : World σ) (i : Nat) (t : String), p.channels[i]? = some (.injector t) → Q w →
    Q { w with shared := w.shared.finish i }

/-- The error counts have been laid out, one for every transform. -/
def World.Laid (p : Pipeline) (w : World σ) : Prop :=
  w.shared.errorCounts.size = p.transforms.length

/-- A durable property that is kept when a worker is abandoned. -/
structure World.Enduring [Transform σ] (p : Pipeline) (admits : Entry → Prop)
    (Q : World σ → Prop) : Prop extends World.Durable p admits Q where
  abandoned : ∀ (w : World σ) (i : Nat), Q w →
    Q { w with
      workers := w.workers.modify i fun x =>
        { x with phase := Worker.leave x.context .abandoned } }

/-- A durable property that holds as long as there is nothing, and that everything before the start of
the workers keeps, whether it succeeds or not. -/
structure World.Lasting [Transform σ] (p : Pipeline) (ts : TransformMap σ) (admits : Entry → Prop)
    (Q : World σ → Prop) : Prop extends World.Enduring p admits Q where
  bare : ∀ w : World σ, w.workers = #[] → w.shared.rowSets = #[] → w.shared.errorCounts = #[] →
    w.shared.reports = [] → Q w
  laid : ∀ w w' : World σ, w'.workers = #[] → w'.shared.rowSets = p.rowSets.toArray →
    w'.shared.errorCounts = .replicate p.transforms.length 0 →
    w'.shared.reports = w.shared.reports → Q w → Q w'
  enrolled : ∀ (w : World σ) (k : WorkerKey) (r : Resolved σ) (n : Nat) (state : σ),
    ts.find? k.id = some r → p.transform? k.id = some r.spec → k ∈ p.copiesOf k.id →
    r.instantiate n = .ok state → w.Laid p → Q w →
    Q { w with
      workers := w.workers.push (.new (.new r.spec k.copy (p.wiring k) (p.slot k.id)) state) }
  heard : ∀ (w : World σ) (id : String) (l : Listener), Q w →
    Q { w with workers := w.workers.map (Worker.hear id l) }

theorem World.Lasting.afterLayOut [Transform σ] {p : Pipeline} {ts : TransformMap σ}
    {admits : Entry → Prop} {Q : World σ → Prop} (h : World.Lasting p ts admits Q) :
    World.Enduring p admits fun w => Q w ∧ w.Laid p where
  like w w' hl hw :=
    ⟨h.like w w' hl hw.1, (congrArg Array.size hl.errorCounts).trans hw.2⟩
  stepped w i x hi hw := by
    refine ⟨h.stepped w i x hi hw.1, ?_⟩
    rw [World.step_of_getElem? hi]
    exact (x.step_effect w.shared).slots.trans hw.2
  injected w i t e ht he hw := ⟨h.injected w i t e ht he hw.1, hw.2⟩
  finished w i t ht hw := ⟨h.finished w i t ht hw.1, hw.2⟩
  abandoned w i hw := ⟨h.abandoned w i hw.1, hw.2⟩

/-- Row sets that are not there, or have just been laid out, have accepted nothing. -/
theorem Shared.accepted_of_bare {s : Shared} {p : Pipeline}
    (h : s.rowSets = #[] ∨ s.rowSets = p.rowSets.toArray) (i : Nat) : s.accepted i = [] := by
  unfold accepted rowSet?
  rcases h with h | h <;> rw [h]
  · rfl
  · rw [List.getElem?_toArray, Pipeline.rowSets, List.getElem?_map]
    rcases p.channels[i]? with _ | _ | _ | _ <;> rfl

/-! ### Worker by worker -/

/-- Something holds of what the workers share, and something else of every worker. -/
structure World.Each (R : Shared → Prop) (P : Worker σ → Prop) (w : World σ) : Prop where
  shared : R w.shared
  workers : ∀ x ∈ w.workers, P x

theorem World.Each.launch {R : Shared → Prop} {P : Worker σ → Prop} {w : World σ}
    (h : w.Each R P) (hP : ∀ x : Worker σ, P x → P x.launch) :
    World.Each R P { w with workers := w.workers.map Worker.launch } :=
  ⟨h.shared, Array.forall_mem_map.mpr fun x hx => hP x (h.workers x hx)⟩

/-- A property of what workers share and one of workers that last, told for one worker at a time. -/
structure Worker.Lasting [Transform σ] (p : Pipeline) (ts : TransformMap σ) (admits : Entry → Prop)
    (R : Shared → Prop) (P : Worker σ → Prop) : Prop where
  like : ∀ s s' : Shared, s'.rowSets = s.rowSets → s'.reports <:+ s.reports → R s → R s'
  stepped : ∀ (s : Shared) (x : Worker σ), R s → P x → R (x.step s).1 ∧ P (x.step s).2
  injected : ∀ (s : Shared) (i : Nat) (t : String) (e : Entry), p.channels[i]? = some (.injector t) →
    admits e → R s → R (s.accept i e)
  finished : ∀ (s : Shared) (i : Nat), R s → R (s.finish i)
  bare : ∀ s : Shared, s.rowSets = #[] → s.reports = [] → R s
  laid : ∀ s s' : Shared, s'.rowSets = p.rowSets.toArray → s'.reports = s.reports → R s → R s'
  enrolled : ∀ (k : WorkerKey) (r : Resolved σ) (n : Nat) (state : σ), ts.find? k.id = some r →
    p.transform? k.id = some r.spec → k ∈ p.copiesOf k.id → r.instantiate n = .ok state →
    P (.new (.new r.spec k.copy (p.wiring k) (p.slot k.id)) state)
  abandoned : ∀ x : Worker σ, P x → P { x with phase := Worker.leave x.context .abandoned }
  heard : ∀ (id : String) (l : Listener) (x : Worker σ), P x → P (x.hear id l)

/-- What lasts worker by worker lasts of the world. -/
theorem Worker.Lasting.each [Transform σ] {p : Pipeline} {ts : TransformMap σ}
    {admits : Entry → Prop} {R : Shared → Prop} {P : Worker σ → Prop}
    (h : Worker.Lasting p ts admits R P) : World.Lasting p ts admits (World.Each R P) where
  like w w' hl hw :=
    ⟨h.like w.shared w'.shared hl.rowSets hl.reports hw.shared,
      by rw [hl.workers]; exact hw.workers⟩
  stepped w i x hi hw := by
    refine ⟨?_, World.forall_step hw.workers fun y _ hy => (h.stepped w.shared y hw.shared hy).2⟩
    rw [World.step_of_getElem? hi]
    exact (h.stepped w.shared x hw.shared (hw.workers x (Array.mem_of_getElem? hi))).1
  injected w i t e ht he hw := ⟨h.injected w.shared i t e ht he hw.shared, hw.workers⟩
  finished w i _ _ hw := ⟨h.finished w.shared i hw.shared, hw.workers⟩
  bare w hworkers hrows _ hreports :=
    ⟨h.bare w.shared hrows hreports, by rw [hworkers]; exact Array.forall_mem_empty P⟩
  laid w w' hworkers hrows _ hreports hw :=
    ⟨h.laid w.shared w'.shared hrows hreports hw.shared,
      by rw [hworkers]; exact Array.forall_mem_empty P⟩
  enrolled w k r n state hr hspec hk hi _ hw :=
    ⟨hw.shared, Array.forall_mem_push.mpr ⟨h.enrolled k r n state hr hspec hk hi, hw.workers⟩⟩
  abandoned w i hw := by
    refine ⟨hw.shared, fun x hx => ?_⟩
    obtain ⟨j, hj, rfl⟩ := Array.mem_iff_getElem.mp hx
    have hj' := hw.workers _ (Array.getElem_mem (by simpa using hj))
    rw [Array.getElem_modify]
    split
    · exact h.abandoned _ hj'
    · exact hj'
  heard w id l hw :=
    ⟨hw.shared, Array.forall_mem_map.mpr fun x hx => h.heard id l x (hw.workers x hx)⟩

/-! ### Workers that have not been started -/

/-- The worker has not been started: it is initialized, or leaves without a report. What it does
meanwhile is calm. -/
inductive Phase.Unstarted (calm : ∀ {α : Type}, Activity σ α → Prop) : Phase σ → Prop where
  | initializing (a : Activity σ (Except TransformError Unit)) (h : calm a) :
    Unstarted calm (.initializing a)
  | initialized (result : Except TransformError Unit) : Unstarted calm (.initialized result)
  | closing (rest : List Nat) : Unstarted calm (.closing .abandoned rest)
  | disposing (a : Activity σ Unit) (h : calm a) : Unstarted calm (.disposing .abandoned a)
  | ended : Unstarted calm .ended

namespace Phase.Unstarted

variable [Transform σ] {calm : ∀ {α : Type}, Activity σ α → Prop}
  (hstep : ∀ {α : Type} (a : Activity σ α) (d : Activity.Desk σ), calm a → calm (a.step d).2)
  (hdispose : ∀ state : σ, calm (.run (Transform.dispose state)))

include hstep hdispose in
theorem step {x : Worker σ} (h : x.phase.Unstarted calm) (s : Shared) :
    (x.step s).2.phase.Unstarted calm := by
  have hmoves := x.step_moves s
  generalize x.deed? s = d, (x.step s).1 = s', (x.step s).2 = y at hmoves ⊢
  obtain ⟨c, state, phase⟩ := x
  cases hmoves
  case initializing a _ =>
    cases h
    case initializing h => exact .initializing _ (hstep a _ h)
  case initialized r => exact .initialized r
  case uninitialized => exact .initialized _
  case waits r => exact .initialized r
  case closes rest =>
    cases h
    exact .closing rest
  case closed =>
    cases h
    exact .disposing _ (hdispose state)
  case disposing a _ =>
    cases h
    case disposing h => exact .disposing _ (hstep a _ h)
  case disposed =>
    cases h
    exact .ended
  case undisposed =>
    cases h
    exact .ended
  case ended => exact .ended
  all_goals cases h

omit [Transform σ] in
theorem unsent {x : Worker σ} (h : x.phase.Unstarted calm) (s : Shared) (summary : Summary) :
    x.deed? s ≠ some (.sent summary) := by
  intro hd
  have hleads := Worker.deed?_leads hd
  generalize x.phase = phase at h hleads
  cases hleads
  case operation kind => exact kind
  case sent => cases h

include hstep hdispose in
/-- **Before the start** no worker is started, and none has reported. -/
theorem lasting (hinit : ∀ state : σ, calm (.run (Transform.init state))) (p : Pipeline)
    (ts : TransformMap σ) :
    Worker.Lasting p ts (fun _ => True) (·.reports = []) (·.phase.Unstarted calm) where
  like s s' _ hsub hs := List.suffix_nil.mp (hs ▸ hsub)
  stepped s x hs hx := by
    refine ⟨?_, hx.step hstep hdispose s⟩
    have hreports := (x.step_effect s).reports
    rw [hs] at hreports
    rcases hd : x.deed? s with _ | d <;> rw [hd] at hreports
    · exact hreports
    · cases d
      case sent summary => exact absurd hd (hx.unsent s summary)
      all_goals exact hreports
  injected _ _ _ _ _ _ hs := hs
  finished _ _ hs := hs
  bare _ _ hs := hs
  laid _ _ _ hreports hs := hreports.trans hs
  enrolled _ _ _ state _ _ _ _ := .initializing _ (hinit state)
  abandoned _ _ := .closing _
  heard id l x hx := by
    unfold Worker.hear
    split <;> exact hx

end Phase.Unstarted

namespace Orchestrator

variable {p : Pipeline} {ts : TransformMap σ} {admits : Entry → Prop} {Q : World σ → Prop}
  {o : Orchestrator σ}

theorem bare_of_new [Transform σ] {registry : Registry σ} (h : new p registry = .ok o) :
    o.world.workers = #[] ∧ o.world.shared.rowSets = #[] ∧ o.world.shared.errorCounts = #[] ∧
      o.world.shared.reports = [] := by
  unfold new at h
  split at h
  · rcases hr : registry.resolve p with e | ts <;> simp only [hr] at h <;> cases h
    exact ⟨rfl, rfl, rfl, rfl⟩
  · cases h

/-- A run of the pipeline with a world that has the property. -/
structure Upholds (p : Pipeline) (ts : TransformMap σ) (Q : World σ → Prop)
    (o : Orchestrator σ) : Prop where
  pipeline : o.pipeline = p
  transforms : o.transforms = ts
  property : Q o.world

theorem Upholds.world (h : Upholds p ts Q o) {w : World σ} (hw : Q w) :
    Upholds p ts Q { o with world := w } :=
  ⟨h.pipeline, h.transforms, hw⟩

theorem Upholds.left {L : World σ → Prop} (h : Upholds p ts (fun w => Q w ∧ L w) o) :
    Upholds p ts Q o :=
  ⟨h.pipeline, h.transforms, h.property.1⟩

theorem Upholds.called (h : Upholds p ts Q o) (point : HookPoint) (scene : HookScene) :
    Upholds p ts Q (o.called point scene) :=
  ⟨h.pipeline, h.transforms, h.property⟩

theorem Upholds.say (hlike : ∀ w w' : World σ, w.Like w' → Q w → Q w') (h : Upholds p ts Q o)
    (m : Log.Message) : Upholds p ts Q (o.say m) :=
  h.world (hlike o.world _ ⟨rfl, rfl, rfl, List.suffix_rfl, id⟩ h.property)

variable [Transform σ]

theorem Upholds.runUntil (hQ : World.Durable p admits Q) (h : Upholds p ts Q o)
    (holds : World σ → Bool) (limit : Option Nat) : Upholds p ts Q (o.runUntil holds limit) := by
  refine h.world (World.runUntil_induction (fun w w' ht => hQ.like w w' ht.like)
    (fun w i hw => ?_) holds limit _ h.property)
  rcases hx : w.workers[i]? with _ | x
  · rwa [World.step_of_none hx]
  · exact hQ.stepped w i x hx hw

theorem Upholds.abandon (hQ : World.Enduring p admits Q) (h : Upholds p ts Q o) (i : Nat) :
    Upholds p ts Q (o.abandon i) := by
  have hrun := (h.world (hQ.abandoned o.world i h.property)).runUntil hQ.toDurable
    (fun w => w.workers[i]?.all Worker.hasEnded) none
  exact ⟨hrun.pipeline, hrun.transforms, hrun.property⟩

theorem Upholds.abandonAll (hQ : World.Enduring p admits Q) (h : Upholds p ts Q o) (n : Nat) :
    Upholds p ts Q (o.abandonAll n) := by
  unfold Orchestrator.abandonAll
  induction List.range n generalizing o with
  | nil => exact h
  | cons i rest ih => exact ih (h.abandon hQ i)

variable (hts : ∀ id r, ts.find? id = some r → p.transform? id = some r.spec)
  (hQ : World.Lasting p ts admits Q)
include hQ hts

theorem Upholds.enroll {k : WorkerKey} {r : Resolved σ} {n : Nat} {state : σ}
    (hk : k ∈ p.copiesOf k.id) (hr : ts.find? k.id = some r) (hi : r.instantiate n = .ok state)
    (h : Upholds p ts (fun w => Q w ∧ w.Laid p) o) :
    Upholds p ts (fun w => Q w ∧ w.Laid p) (o.enroll k (p.wiring k) r.spec state).1 := by
  have hpushed := hQ.enrolled o.world k r n state hr (hts k.id r hr) hk hi h.property.2
    h.property.1
  have hadded : Upholds p ts (fun w => Q w ∧ w.Laid p)
      (o.addWorker (.new r.spec k.copy (p.wiring k) (p.slot k.id)) state) := by
    refine h.world (hQ.afterLayOut.like _ _ ?_ ⟨hpushed, h.property.2⟩)
    exact ⟨rfl, rfl, rfl, List.suffix_rfl, id⟩
  have hrun := hadded.runUntil hQ.afterLayOut.toDurable
    (fun w => (w.workers[o.world.workers.size]?.bind Worker.initResult?).isSome) none
  unfold Orchestrator.enroll
  rw [h.pipeline]
  dsimp only
  split
  · exact hrun
  · exact ⟨hrun.pipeline, hrun.transforms, hrun.property⟩

theorem Upholds.prepareWorker (h : Upholds p ts (fun w => Q w ∧ w.Laid p) o) {k : WorkerKey}
    (hk : k ∈ p.copiesOf k.id) (bindings : Table String) :
    Upholds p ts (fun w => Q w ∧ w.Laid p) (o.prepareWorker k (p.wiring k) bindings).1 := by
  have hlasts := hQ.afterLayOut
  have hends := o.prepareWorker_ends k (p.wiring k) bindings
  have hbuilt : ∀ built, Upholds p ts (fun w => Q w ∧ w.Laid p) { o with built } := fun _ =>
    ⟨h.pipeline, h.transforms, h.property⟩
  have henrolled : ∀ {built : Table Nat} {r : Resolved σ} {n : Nat} {state : σ}
      {o₁ : Orchestrator σ} {result : Except TransformError Unit},
      o.transforms.find? k.id = some r → r.instantiate n = .ok state →
      ({ o with built } : Orchestrator σ).enroll k (p.wiring k) r.spec state = (o₁, result) →
      Upholds p ts (fun w => Q w ∧ w.Laid p) o₁ := by
    intro built r n state o₁ result hr hi he
    rw [h.transforms] at hr
    have hdone := (hbuilt built).enroll hts hQ hk hr hi
    rwa [he] at hdone
  generalize o.prepareWorker k (p.wiring k) bindings = x at hends ⊢
  cases hends
  case unknown => exact h
  case refused built _ _ _ _ _ => exact (hbuilt built).abandonAll hlasts _
  case initFailed hr hi he =>
    exact (((henrolled hr hi he).say hlasts.like _).abandon hlasts _).abandonAll hlasts _
  case hookFailed hr hi he _ =>
    exact (((henrolled hr hi he).called _ _).say hlasts.like _).abandonAll hlasts _
  case prepared hr hi he _ => exact (henrolled hr hi he).called _ _

theorem Upholds.prepareWorkers (h : Upholds p ts (fun w => Q w ∧ w.Laid p) o) {ks : List WorkerKey}
    {t : Topology} (ht : t.Keeps p ks) (hks : ∀ k ∈ ks, k ∈ p.copiesOf k.id)
    (bindings : Table String) :
    Upholds p ts (fun w => Q w ∧ w.Laid p) (o.prepareWorkers t bindings ks).1 := by
  induction ks generalizing o bindings t with
  | nil => exact h
  | cons k rest ih =>
    obtain ⟨hwiring, hrest⟩ := ht.take
    have h₁ := h.prepareWorker hts hQ (hks k List.mem_cons_self) bindings
    unfold Orchestrator.prepareWorkers
    dsimp only
    rw [hwiring]
    rcases hw : o.prepareWorker k (p.wiring k) bindings with ⟨o₁, e | bindings'⟩ <;> rw [hw] at h₁
    · exact h₁
    · exact ih h₁ hrest (fun k hk => hks k (List.mem_cons_of_mem _ hk)) bindings'

omit hts in
theorem Upholds.begun (h : Upholds p ts Q o) (bindings : Table String) :
    Upholds p ts (fun w => Q w ∧ w.Laid p) (o.begun bindings) := by
  have hrows : (o.begun bindings).world.shared.rowSets = p.rowSets.toArray := by
    rw [← h.pipeline, ← Topology.build_rowSets]
    rfl
  have hcounts : (o.begun bindings).world.shared.errorCounts =
      .replicate p.transforms.length 0 := by
    rw [← h.pipeline]
    rfl
  refine ⟨h.pipeline, h.transforms, hQ.laid o.world _ rfl hrows hcounts rfl h.property, ?_⟩
  unfold World.Laid
  rw [hcounts, Array.size_replicate]

theorem Upholds.prepare (h : Upholds p ts Q o) : Upholds p ts Q o.prepare.1 := by
  have hends := o.prepare_ends
  have hworkers : ∀ {b : Table String} {order : List String} {o₁ : Orchestrator σ}
      {result : Except ExecutionError Unit},
      (HopGraph.ofPipeline o.pipeline).topologicalOrder = some order →
      (o.begun b).prepareWorkers (Topology.build o.pipeline) b
        (order.flatMap o.pipeline.copiesOf) = (o₁, result) → Upholds p ts Q o₁ := by
    intro b order o₁ result hord hw
    rw [h.pipeline] at hord hw
    have hall := (h.begun hQ b).prepareWorkers hts hQ (Topology.keeps_build hord)
      Pipeline.copiesOf_of_mem_order b
    rw [hw] at hall
    exact hall.left
  generalize o.prepare = x at hends ⊢
  cases hends
  case misplaced => exact h
  case refused => exact (h.called _ _).say hQ.like _
  case cyclic b _ _ _ => exact (h.begun hQ b).left
  case failed _ _ hord hw => exact hworkers hord hw
  case prepared m _ _ hord hw =>
    have hsaid := (hworkers hord hw).say hQ.like m
    exact ⟨hsaid.pipeline, hsaid.transforms, hsaid.property⟩

omit hts hQ in
theorem Upholds.closeInjectors (hp : p.WellFormed) (hQ : World.Durable p admits Q)
    (h : Upholds p ts Q o) (claimed : List String) : Upholds p ts Q (o.closeInjectors claimed) := by
  unfold Orchestrator.closeInjectors
  dsimp only
  have hpositions : ∀ i ∈ (Topology.build o.pipeline).injectors.filterMap
      (fun x => if x.1 ∈ claimed then none else some x.2),
      ∃ t, p.channels[i]? = some (.injector t) := by
    rw [h.pipeline, Topology.build_injectors]
    intro i hi
    obtain ⟨⟨t, j⟩, hm, he⟩ := List.mem_filterMap.mp hi
    dsimp only at he
    split at he <;> cases he
    exact ⟨t, hp.mem_injectors.mp hm⟩
  generalize (Topology.build o.pipeline).injectors.filterMap _ = positions at hpositions ⊢
  refine h.world ?_
  have hall : ∀ (w : World σ), Q w →
      Q { w with shared := positions.foldl Shared.finish w.shared } := by
    induction positions with
    | nil => exact fun w hw => hw
    | cons i rest ih =>
      obtain ⟨t, ht⟩ := hpositions i List.mem_cons_self
      exact fun w hw => ih (fun j hj => hpositions j (List.mem_cons_of_mem _ hj)) _
        (hQ.finished w i t ht hw)
  exact hall o.world h.property

end Orchestrator

namespace Course

variable {p : Pipeline} {ts : TransformMap σ} {admits : Entry → Prop}
  {Q P : World σ → Prop} {c : Course σ}

/-- The one property holds before the workers are started, the other one while they run. -/
structure Upholds (p : Pipeline) (ts : TransformMap σ) (Q P : World σ → Prop)
    (c : Course σ) : Prop where
  resting : ¬ c.Running → c.orchestrator.Upholds p ts Q
  running : c.Running → c.orchestrator.Upholds p ts P
  producers : ∀ i ∈ c.producers, ∃ t, p.channels[i]? = some (.injector t)

theorem running_of_state {c' : Course σ} (h : c'.orchestrator.state = c.orchestrator.state) :
    c'.Running ↔ c.Running := by
  unfold Running
  rw [h]

theorem not_running_of_state {s : RunState} (h : c.orchestrator.state = s)
    (hs : ∀ since, s ≠ .running since) : ¬ c.Running := by
  rintro ⟨since, hr⟩
  exact hs since (h.symm.trans hr)

variable [Transform σ]

theorem Upholds.keep (hQ : World.Durable p admits Q) (hP : World.Durable p admits P)
    (h : c.Upholds p ts Q P) {c' : Course σ} (hr : c'.Running ↔ c.Running)
    (hfewer : ∀ i ∈ c'.producers, i ∈ c.producers)
    (hkeep : ∀ R : World σ → Prop, World.Durable p admits R → c.orchestrator.Upholds p ts R →
      c'.orchestrator.Upholds p ts R) : c'.Upholds p ts Q P :=
  ⟨fun hn => hkeep Q hQ (h.resting fun hc => hn (hr.mpr hc)),
    fun hn => hkeep P hP (h.running (hr.mp hn)), fun i hi => h.producers i (hfewer i hi)⟩

theorem trivial_early (p : Pipeline) (ts : TransformMap σ) : Early p ts fun _ => True where
  laid _ _ _ _ := trivial
  like _ _ _ _ := trivial
  enrolled _ _ _ _ _ _ _ _ _ _ := trivial
  stepped _ _ _ _ _ _ _ := trivial
  heard _ _ _ _ := trivial
  injected _ _ _ _ _ _ _ := trivial
  finished _ _ _ _ _ := trivial
  launched _ _ := trivial

section Perform

variable (hts : ∀ id r, ts.find? id = some r → p.transform? id = some r.spec)
  (hQ : World.Lasting p ts admits Q) (hP : World.Durable p admits P)
include hQ

include hts in
theorem Upholds.prepare (h : c.Upholds p ts Q P) : (c.perform .prepare).Upholds p ts Q P := by
  by_cases hidle : c.orchestrator.state = .idle
  · have hrest := h.resting (not_running_of_state hidle fun _ hs => by cases hs)
    have hprep := hrest.prepare hts hQ
    have hstate : ¬ (c.perform .prepare).Running := by
      rcases c.orchestrator.state_prepare with hs | hs
      · exact not_running_of_state hs fun _ hs => by cases hs
      · exact not_running_of_state (hs.trans hidle) fun _ hs => by cases hs
    exact ⟨fun _ => hprep, fun hr => absurd hr hstate, h.producers⟩
  · have hsame : c.perform .prepare = c := by
      simp only [Course.perform, Orchestrator.prepare, if_pos hidle]
    rwa [hsame]

theorem Upholds.start (hp : p.WellFormed) (hlike : ∀ w w' : World σ, w.Like w' → P w → P w')
    (hlaunch : ∀ w : World σ, Q w → P { w with workers := w.workers.map Worker.launch })
    (h : c.Upholds p ts Q P) : (c.perform .start).Upholds p ts Q P := by
  have hends := c.orchestrator.start_ends
  have hrest : ∀ {claimed}, c.orchestrator.state = .prepared claimed →
      c.orchestrator.Upholds p ts Q := fun hs =>
    h.resting (not_running_of_state hs fun _ hs => by cases hs)
  unfold Course.perform
  generalize c.orchestrator.start = x at hends ⊢
  cases hends
  case unprepared => exact h
  case misplaced => exact h
  case refused claimed message hs hh o₁ ho =>
    have hcalled := ((hrest hs).called .start
      (c.orchestrator.scene c.orchestrator.world.shared.bindings)).say hQ.like
        (.hookFailed c.orchestrator.pipeline.name HookPoint.start.title message)
    rw [← ho] at hcalled
    have hended : Orchestrator.Upholds p ts Q { o₁ with state := .finished } :=
      ⟨hcalled.pipeline, hcalled.transforms, hcalled.property⟩
    refine ⟨fun _ => (hended.closeInjectors hp hQ.toDurable []).abandonAll hQ.toEnduring _, ?_,
      h.producers⟩
    intro hr
    refine absurd hr (not_running_of_state (s := .finished) ?_ fun _ hs => by cases hs)
    exact (Orchestrator.sameRun_abandonAll _ _).state
  case started claimed m hs hh =>
    have hclosed := ((hrest hs).called .start
      (c.orchestrator.scene c.orchestrator.world.shared.bindings)).closeInjectors hp hQ.toDurable claimed
    generalize Orchestrator.closeInjectors _ claimed = o₁ at hclosed ⊢
    have hstarted : Orchestrator.Upholds p ts P o₁.launched :=
      ⟨hclosed.pipeline, hclosed.transforms, hlaunch _ hclosed.property⟩
    exact ⟨fun hn => absurd ⟨_, rfl⟩ hn, fun _ => hstarted.say hlike m, h.producers⟩

include hts hP in
theorem Upholds.perform_of_ne_start (hp : p.WellFormed) (h : c.Upholds p ts Q P) {e : Event} (hstart : e ≠ .start)
    (hadmits : ∀ i e', e = .inject i e' → admits e') : (c.perform e).Upholds p ts Q P := by
  rcases e with _ | id | ⟨id, l⟩ | _ | ⟨i, e⟩ | i | _ | micros | _ | i
  case prepare => exact h.prepare hts hQ
  case start => exact absurd rfl hstart
  case produce =>
    unfold Course.perform Orchestrator.rowProducer
    dsimp only
    rcases hs : c.orchestrator.state with _ | claimed | since | _ <;> dsimp only
    case prepared =>
      have hrest := h.resting (not_running_of_state hs fun _ hs => by cases hs)
      rcases c.orchestrator.pipeline.transform? id with _ | spec
      · exact h
      · rw [show (Topology.build c.orchestrator.pipeline).injectors.lookup id = p.injector? id by
          rw [hrest.pipeline, Topology.build_injectors, hp.lookup_injectors]]
        rcases hi : p.injector? id with _ | i
        · exact h
        · refine ⟨fun _ => ⟨hrest.pipeline, hrest.transforms, hrest.property⟩, fun hr => ?_,
            fun j hj => ?_⟩
          · exact absurd hr (not_running_of_state rfl fun _ hs => by cases hs)
          · rcases List.mem_cons.mp hj with rfl | hj
            · obtain ⟨hlt, he, -⟩ := List.idxOf?_eq_some_iff.mp hi
              exact ⟨id, by rw [List.getElem?_eq_getElem hlt, he]⟩
            · exact h.producers j hj
    all_goals exact h
  case listen =>
    unfold Course.perform Orchestrator.addListener
    dsimp only
    rcases hs : c.orchestrator.state with _ | claimed | since | _ <;> dsimp only
    case prepared =>
      have hrest := h.resting (not_running_of_state hs fun _ hs => by cases hs)
      split
      · have hheard := hQ.heard c.world id l hrest.property
        refine ⟨fun _ => ⟨hrest.pipeline, hrest.transforms, hheard⟩, fun hr => ?_, h.producers⟩
        exact absurd hr (not_running_of_state rfl fun _ hs => by cases hs)
      · exact h
    all_goals exact h
  case inject =>
    unfold Course.perform Orchestrator.offer
    dsimp only
    split
    · rename_i hm
      obtain ⟨t, ht⟩ := h.producers i hm
      split
      · exact h.keep hQ.toDurable hP (running_of_state rfl) (fun _ hj => hj) fun R hR hc =>
          hc.world (hR.injected c.world i t e ht (hadmits i e rfl) hc.property)
      all_goals exact h
    · exact h
  case finish =>
    unfold Course.perform
    dsimp only
    split
    · rename_i hm
      obtain ⟨t, ht⟩ := h.producers i hm
      exact h.keep hQ.toDurable hP (running_of_state rfl) (fun _ hj => List.mem_of_mem_erase hj)
        fun R hR hc => hc.world (hR.finished c.world i t ht hc.property)
    · exact h
  case stop =>
    obtain ⟨h1, h4, h2⟩ := c.shared.requestStop_fixed "orchestrator"
    have h3 := c.shared.reports_requestStop "orchestrator"
    exact h.keep hQ.toDurable hP (running_of_state rfl) (fun _ hj => hj) fun R hR hc =>
      hc.world (hR.like c.world _ ⟨rfl, h1, h2, h3 ▸ List.suffix_rfl, fun _ => h4⟩ hc.property)
  case pass =>
    exact h.keep hQ.toDurable hP (running_of_state rfl) (fun _ hj => hj) fun R hR hc =>
      hc.world (hR.like c.world _ ⟨rfl, rfl, rfl, List.suffix_rfl, id⟩ hc.property)
  case receive =>
    exact h.keep hQ.toDurable hP (running_of_state rfl) (fun _ hj => hj) fun R hR hc =>
      hc.world (hR.like c.world _ ⟨rfl, rfl, rfl, List.tail_suffix _, id⟩ hc.property)
  case step =>
    rcases hs : c.orchestrator.state with _ | claimed | since | _
    case running =>
      obtain ⟨hr, hstep⟩ := perform_running ⟨since, hs⟩ (.step i)
      have hc := h.running ⟨since, hs⟩
      refine ⟨fun hn => absurd hr hn, fun _ => ?_, fun j hj => ?_⟩
      · show (c.stepWorker i).orchestrator.Upholds p ts P
        unfold stepWorker
        rw [hs]
        dsimp only
        rcases hx : c.workers[i]? with _ | x
        · exact hc
        · have hstepped := hc.world (hP.stepped c.world i x hx hc.property)
          dsimp only
          rcases x.deed? c.shared with _ | d <;> exact hstepped
      · rcases hstep with ⟨_, _, hstep, -⟩ | ⟨_, hstep, -⟩
        · rw [hstep.producers] at hj
          exact h.producers j hj
        · exact h.producers j (hstep.fewer j hj)
    all_goals
      have hsame : c.perform (.step i) = c := by
        show c.stepWorker i = c
        unfold stepWorker
        rw [hs]
      rwa [hsame]

include hts hP in
theorem Upholds.perform (hp : p.WellFormed)
    (hlaunch : ∀ w : World σ, Q w → P { w with workers := w.workers.map Worker.launch })
    (h : c.Upholds p ts Q P) (e : Event) (hadmits : ∀ i e', e = .inject i e' → admits e') :
    (c.perform e).Upholds p ts Q P := by
  by_cases hstart : e = .start
  · subst hstart
    exact h.start hQ hp hP.like hlaunch
  · exact h.perform_of_ne_start hts hQ hP hp hstart hadmits

include hts in
theorem Upholds.resting_of_ne_start (hp : p.WellFormed) (h : c.Upholds p ts Q P) (hn : ¬ c.Running) {e : Event}
    (hstart : e ≠ .start) (hadmits : ∀ i e', e = .inject i e' → admits e') :
    ¬ (c.perform e).Running := by
  have hrest : c.Upholds p ts Q fun _ => False := ⟨h.resting, fun hr => absurd hr hn, h.producers⟩
  have hnever : World.Durable p admits fun _ : World σ => False :=
    ⟨fun _ _ _ hw => hw, fun _ _ _ _ hw => hw, fun _ _ _ _ _ _ hw => hw, fun _ _ _ _ hw => hw⟩
  exact fun hr => ((hrest.perform_of_ne_start hts hQ hnever hp hstart hadmits).running hr).property

end Perform

/-- **At any time.** A lasting property holds in all states of all runs in which the workers have not
been started, and a durable property that the start makes of it in all others. -/
theorem anytime {registry : Registry σ} {o : Orchestrator σ} {hooks : Hooks}
    {bindings : Table String} (hnew : Orchestrator.new p registry = .ok o)
    (hQ : World.Lasting p o.transforms admits Q) (hP : World.Durable p admits P)
    (hlaunch : ∀ w : World σ, Q w → P { w with workers := w.workers.map Worker.launch })
    (events : List Event) (hadmits : ∀ i e, Event.inject i e ∈ events → admits e) :
    ((begin o hooks bindings).run events).Upholds p o.transforms Q P := by
  obtain ⟨hv, hpipe, hidle, -⟩ := Orchestrator.new_ok hnew
  have hp := Pipeline.wellFormed_of_validationErrors hv
  obtain ⟨hworkers, hrows, hcounts, hreports⟩ := Orchestrator.bare_of_new hnew
  have hbegin : (begin o hooks bindings).Upholds p o.transforms Q P := by
    refine ⟨fun _ => ⟨hpipe, rfl, hQ.bare _ hworkers hrows hcounts hreports⟩, fun hr => ?_,
      fun i hi => by cases hi⟩
    exact absurd hr (not_running_of_state hidle fun _ hs => by cases hs)
  unfold run
  generalize begin o hooks bindings = c at hbegin ⊢
  induction events generalizing c with
  | nil => exact hbegin
  | cons e rest ih =>
    refine ih (fun i e' he => hadmits i e' (List.mem_cons_of_mem _ he)) (c.perform e) ?_
    refine hbegin.perform (fun _ _ h => (Orchestrator.resolved_of_new hnew h).1) hQ hP hp hlaunch e ?_
    rintro i e' rfl
    exact hadmits i e' List.mem_cons_self

/-- A lasting property that the start keeps holds in all states of all runs. -/
theorem always {registry : Registry σ} {o : Orchestrator σ} {hooks : Hooks}
    {bindings : Table String} (hnew : Orchestrator.new p registry = .ok o)
    (hQ : World.Lasting p o.transforms admits Q)
    (hlaunch : ∀ w : World σ, Q w → Q { w with workers := w.workers.map Worker.launch })
    (events : List Event) (hadmits : ∀ i e, Event.inject i e ∈ events → admits e) :
    Q ((begin o hooks bindings).run events).world := by
  have h : ((begin o hooks bindings).run events).Upholds p o.transforms Q Q :=
    anytime hnew hQ hQ.toDurable hlaunch events hadmits
  by_cases hr : ((begin o hooks bindings).run events).Running
  · exact (h.running hr).property
  · exact (h.resting hr).property

end Course

end Rowflow
