import Rowflow.Proofs.Course.Calls
import Rowflow.Proofs.Course.Grounds
import Rowflow.Proofs.Pipeline.Roster
import Rowflow.Proofs.Pipeline.Wiring
import Rowflow.Proofs.Transform.Resolution

/-!
# Preparation

Before its workers are started a run is prepared: row sets are laid out and workers are made, in the
topological order, and initialized one after the other. `Early Q` says that a property of worlds
holds as soon as the row sets are laid out and outlasts everything that comes before the start. A
preparation that succeeds has enrolled all workers, and such a property holds then (`prepare_spec`).
-/

namespace Rowflow

variable {σ : Type}

/-! ### Worlds -/

namespace World

variable [Transform σ]

theorem step_of_getElem? {w : World σ} {i : Nat} {x : Worker σ} (h : w.workers[i]? = some x) :
    w.step i = { w with
      shared := (x.step w.shared).1
      workers := w.workers.setIfInBounds i (x.step w.shared).2 } := by
  obtain ⟨shared, workers, turn, alarms⟩ := w
  simp only [step, h]

theorem step_of_none {w : World σ} {i : Nat} (h : w.workers[i]? = none) : w.step i = w := by
  obtain ⟨shared, workers, turn, alarms⟩ := w
  simp only [step, h]

omit [Transform σ] in
theorem keys_set {workers : Array (Worker σ)} {i : Nat} {x y : Worker σ} (hx : workers[i]? = some x)
    (hkey : y.key = x.key) : (workers.setIfInBounds i y).toList.map Worker.key =
      workers.toList.map Worker.key := by
  rw [Array.toList_setIfInBounds, List.map_set, hkey]
  have hlt : (workers.toList.map Worker.key)[i]? = some x.key := by simp [hx]
  obtain ⟨hlt, he⟩ := List.getElem?_eq_some_iff.mp hlt
  rw [← he]
  exact List.set_getElem_self hlt

theorem keys_step (w : World σ) (i : Nat) :
    (w.step i).workers.toList.map Worker.key = w.workers.toList.map Worker.key := by
  rcases hx : w.workers[i]? with _ | x
  · rw [step_of_none hx]
  · rw [step_of_getElem? hx]
    exact keys_set hx (x.step_effect w.shared).leads.key

theorem forall_step {P : Worker σ → Prop} {w : World σ} {i : Nat} (h : ∀ x ∈ w.workers, P x)
    (hstep : ∀ x, w.workers[i]? = some x → P x → P (x.step w.shared).2) :
    ∀ x ∈ (w.step i).workers, P x := by
  rcases hx : w.workers[i]? with _ | x
  · rwa [step_of_none hx]
  · rw [step_of_getElem? hx]
    intro y hy
    rcases Array.mem_or_eq_of_mem_setIfInBounds hy with hy | rfl
    · exact h y hy
    · exact hstep x hx (h x (Array.mem_of_getElem? hx))

omit [Transform σ] in
/-- If no two workers are called the same, a name tells the place. -/
theorem key_inj {workers : Array (Worker σ)} (hnodup : (workers.toList.map Worker.key).Nodup)
    {i j : Nat} {x y : Worker σ} (hx : workers[i]? = some x) (hy : workers[j]? = some y)
    (hk : x.key = y.key) : i = j := by
  have hx' : (workers.toList.map Worker.key)[i]? = some x.key := by simp [hx]
  have hy' : (workers.toList.map Worker.key)[j]? = some y.key := by simp [hy]
  obtain ⟨hlt, -⟩ := List.getElem?_eq_some_iff.mp hx'
  exact (List.getElem?_inj hlt hnodup).mp (hx'.trans (by rw [hy', hk]))

/-- Two worlds that differ in nothing that a worker may rely on but the stop flag, which may have been
raised. Reports may have been received. -/
structure Like (w w' : World σ) : Prop where
  workers : w'.workers = w.workers
  rowSets : w'.shared.rowSets = w.shared.rowSets
  errorCounts : w'.shared.errorCounts = w.shared.errorCounts
  reports : w'.shared.reports <:+ w.shared.reports
  stopped : w.shared.stopped = true → w'.shared.stopped = true

/-- Between two steps of workers nothing changes but the stop flag, which may be raised, the clock and
whose turn it is. -/
structure Ticks (w w' : World σ) : Prop where
  workers : w'.workers = w.workers
  shared : ∃ stopped clock, w'.shared = { w.shared with stopped, clock }
  stopped : w.shared.stopped = true → w'.shared.stopped = true

omit [Transform σ] in
theorem Ticks.like {w w' : World σ} (h : w.Ticks w') : w.Like w' := by
  obtain ⟨hworkers, ⟨stopped, clock, hshared⟩, hstopped⟩ := h
  have hreports : w'.shared.reports = w.shared.reports := by rw [hshared]
  refine ⟨hworkers, ?_, ?_, hreports ▸ List.suffix_rfl, hstopped⟩ <;> rw [hshared]

/-- What is kept by ticks and by steps of workers is kept while the run goes on. -/
theorem runUntil_induction {P : World σ → Prop} (tick : ∀ w w', w.Ticks w' → P w → P w')
    (step : ∀ w i, P w → P (w.step i)) (holds : World σ → Bool) (limit : Option Nat) (fuel : Nat)
    {w : World σ} (h : P w) : P (w.runUntil holds limit fuel) := by
  have hring : ∀ {w : World σ}, P w → P w.ring := by
    intro w h
    unfold ring
    split
    · exact tick w _ ⟨rfl, ⟨_, _, rfl⟩, fun _ => rfl⟩ h
    · exact h
  induction fuel generalizing w with
  | zero => exact h
  | succ fuel ih =>
    unfold runUntil
    split
    · exact h
    · unfold next
      dsimp only
      rcases w.ring.chosen? with _ | i
      · rcases (limit.toList ++ w.ring.events).min? with _ | t
        · exact hring h
        · exact ih (tick w.ring _ ⟨rfl, ⟨_, _, rfl⟩, id⟩ (hring h))
      · exact ih (tick (w.ring.step i) _ ⟨rfl, ⟨_, _, rfl⟩, id⟩ (step _ i (hring h)))

end World

/-! ### Handing out the wiring -/

theorem Context.new_key {p : Pipeline} {k : WorkerKey} {spec : TransformSpec}
    (hspec : p.transform? k.id = some spec) (wiring : Wiring) (slot : Nat) :
    (Context.new spec k.copy wiring slot).key = k := by
  obtain ⟨id, copy⟩ := k
  exact congrArg (WorkerKey.mk · copy) (Pipeline.transform?_mem hspec).2

namespace Topology

/-- The wiring of some workers, each of which is there once, has not been handed out. -/
structure Keeps (p : Pipeline) (ks : List WorkerKey) (t : Topology) : Prop where
  nodup : ks.Nodup
  there : ∀ k ∈ ks, t.wiring.lookup k = some (p.wiring k)

variable {p : Pipeline} {t : Topology} {k : WorkerKey}

theorem lookup_build (hk : k ∈ p.copiesOf k.id) : (build p).wiring.lookup k = some (p.wiring k) := by
  have hmem : k ∈ (build p).crew := by
    rw [build_rest.2.2]
    exact Pipeline.mem_workers_of_copiesOf hk
  obtain ⟨x, hx, hxk⟩ := List.mem_map.mp hmem
  have hsome : ((build p).wiring.lookup k).isSome := by
    rw [List.lookup_isSome_iff]
    exact ⟨x, hx, beq_iff_eq.mpr hxk.symm⟩
  obtain ⟨w, hw⟩ := Option.isSome_iff_exists.mp hsome
  rw [← build_wiringOf hk, wiringOf, hw, Option.getD_some]

theorem keeps_build {order : List String}
    (h : (HopGraph.ofPipeline p).topologicalOrder = some order) :
    (build p).Keeps p (order.flatMap p.copiesOf) where
  nodup := Pipeline.keys_nodup h
  there k hk := lookup_build (Pipeline.copiesOf_of_mem_order k hk)

theorem lookup_filter_ne {k' : WorkerKey} (h : k' ≠ k) (l : List (WorkerKey × Wiring)) :
    (l.filter (·.1 ≠ k)).lookup k' = l.lookup k' := by
  induction l with
  | nil => rfl
  | cons x rest ih =>
    rw [List.filter_cons, List.lookup_cons]
    by_cases hx : x.1 = k
    · rw [if_neg (by simpa using hx), ih, beq_eq_false_iff_ne.mpr (hx ▸ h)]
    · rw [if_pos (by simpa using hx), List.lookup_cons, ih]

/-- Each worker gets what was laid out for it, and the others can still get theirs. -/
theorem Keeps.take {ks : List WorkerKey} (h : t.Keeps p (k :: ks)) :
    (t.takeWiring k).1 = p.wiring k ∧ (t.takeWiring k).2.Keeps p ks := by
  obtain ⟨hfresh, hnodup⟩ := List.nodup_cons.mp h.nodup
  refine ⟨?_, hnodup, fun k' hk' => ?_⟩
  · unfold takeWiring wiringOf
    rw [h.there k List.mem_cons_self, Option.getD_some]
  · have hne : k' ≠ k := fun he => hfresh (he ▸ hk')
    rw [← h.there k' (List.mem_cons_of_mem _ hk')]
    exact lookup_filter_ne hne t.wiring

end Topology

/-! ### What outlasts the preparation -/

namespace Worker

/-- Whether a worker has not been started. -/
def IsEarly (x : Worker σ) : Prop := (∃ a, x.phase = .initializing a) ∨ ∃ r, x.phase = .initialized r

/-- The worker with a listener, if it belongs to the transform. -/
def hear (id : String) (l : Listener) (x : Worker σ) : Worker σ :=
  if x.key.id = id then
    { x with context := { x.context with listeners := x.context.listeners ++ [l] } }
  else x

theorem IsEarly.step [Transform σ] {x : Worker σ} (h : x.IsEarly) (s : Shared) :
    (x.step s).2.IsEarly := by
  obtain ⟨c, state, phase⟩ := x
  rcases h with ⟨a, rfl⟩ | ⟨r, rfl⟩
  · cases a
    case done r => exact Or.inr ⟨r, rfl⟩
    case broken => exact Or.inr ⟨_, rfl⟩
    all_goals
      simp only [Worker.step, perform_shared]
      exact Or.inl ⟨_, rfl⟩
  · exact Or.inr ⟨r, rfl⟩

end Worker

/-- A property of worlds that holds once the row sets of a pipeline are laid out, and that a
preparation keeps as long as nothing fails. -/
structure Nascent [Transform σ] (p : Pipeline) (ts : TransformMap σ) (Q : World σ → Prop) :
    Prop where
  laid : ∀ w : World σ, w.workers = #[] → w.shared.rowSets = p.rowSets.toArray →
    w.shared.errorCounts = .replicate p.transforms.length 0 → Q w
  like : ∀ w w' : World σ, w.Like w' → Q w → Q w'
  enrolled : ∀ (w : World σ) (k : WorkerKey) (r : Resolved σ) (n : Nat) (state : σ),
    ts.find? k.id = some r → p.transform? k.id = some r.spec → k ∈ p.copiesOf k.id →
    r.instantiate n = .ok state → Q w →
    Q { w with
      workers := w.workers.push (.new (.new r.spec k.copy (p.wiring k) (p.slot k.id)) state) }
  stepped : ∀ (w : World σ) (i : Nat) (x : Worker σ), w.workers[i]? = some x → x.IsEarly →
    x.context.listeners = [] → Q w → Q (w.step i)

/-- A property of worlds that holds once the row sets of a pipeline are laid out, and that
everything before the start of the workers keeps. -/
structure Early [Transform σ] (p : Pipeline) (ts : TransformMap σ) (Q : World σ → Prop) : Prop
    extends Nascent p ts Q where
  heard : ∀ (w : World σ) (id : String) (l : Listener), Q w →
    Q { w with workers := w.workers.map (Worker.hear id l) }
  injected : ∀ (w : World σ) (i : Nat) (t : String) (e : Entry),
    p.channels[i]? = some (.injector t) → w.shared.admission i = .room → Q w →
    Q { w with shared := w.shared.accept i e }
  finished : ∀ (w : World σ) (i : Nat) (t : String), p.channels[i]? = some (.injector t) → Q w →
    Q { w with shared := w.shared.finish i }
  launched : ∀ w : World σ, Q w → Q { w with workers := w.workers.map Worker.launch }

theorem Early.and [Transform σ] {p : Pipeline} {ts : TransformMap σ} {Q Q₁ : World σ → Prop}
    (h : Early p ts Q) (h₁ : Early p ts Q₁) : Early p ts fun w => Q w ∧ Q₁ w where
  laid w hw hr hc := ⟨h.laid w hw hr hc, h₁.laid w hw hr hc⟩
  like w w' hl hw := ⟨h.like w w' hl hw.1, h₁.like w w' hl hw.2⟩
  enrolled w k r n state hr hspec hk hi hw :=
    ⟨h.enrolled w k r n state hr hspec hk hi hw.1, h₁.enrolled w k r n state hr hspec hk hi hw.2⟩
  stepped w i x hi hx hl hw := ⟨h.stepped w i x hi hx hl hw.1, h₁.stepped w i x hi hx hl hw.2⟩
  heard w id l hw := ⟨h.heard w id l hw.1, h₁.heard w id l hw.2⟩
  injected w i t e hi ha hw := ⟨h.injected w i t e hi ha hw.1, h₁.injected w i t e hi ha hw.2⟩
  finished w i t hi hw := ⟨h.finished w i t hi hw.1, h₁.finished w i t hi hw.2⟩
  launched w hw := ⟨h.launched w hw.1, h₁.launched w hw.2⟩

/-- The workers of a world that have been enrolled, in order, none of them started. -/
structure World.Enrolled (w : World σ) (ks : List WorkerKey) : Prop where
  keys : w.workers.toList.map Worker.key = ks
  early : ∀ x ∈ w.workers, x.IsEarly

theorem World.Enrolled.step [Transform σ] {w : World σ} {ks : List WorkerKey} (h : w.Enrolled ks)
    (i : Nat) : (w.step i).Enrolled ks :=
  ⟨(w.keys_step i).trans h.keys, World.forall_step h.early fun _ _ hx => hx.step w.shared⟩

namespace Orchestrator

variable [Transform σ]

variable {p : Pipeline} {ts : TransformMap σ} {Q : World σ → Prop}

/-- What a preparation that has come so far ensures. Nobody listens to its workers yet. -/
structure Preparing (p : Pipeline) (ts : TransformMap σ) (Q : World σ → Prop)
    (ks : List WorkerKey) (o : Orchestrator σ) : Prop where
  pipeline : o.pipeline = p
  transforms : o.transforms = ts
  property : Q o.world
  enrolled : o.world.Enrolled ks
  unheard : ∀ x ∈ o.world.workers, x.context.listeners = []

theorem Preparing.runUntil (hQ : Nascent p ts Q) {ks : List WorkerKey} {o : Orchestrator σ}
    (h : Preparing p ts Q ks o) (holds : World σ → Bool) (limit : Option Nat) :
    Preparing p ts Q ks (o.runUntil holds limit) := by
  have hkeep := World.runUntil_induction
    (P := fun w => Q w ∧ w.Enrolled ks ∧ ∀ x ∈ w.workers, x.context.listeners = [])
    (fun w w' hl hw => ⟨hQ.like w w' hl.like hw.1, by
      refine ⟨⟨?_, ?_⟩, ?_⟩
      · rw [hl.workers]
        exact hw.2.1.keys
      · rw [hl.workers]
        exact hw.2.1.early
      · rw [hl.workers]
        exact hw.2.2⟩)
    (fun w i hw => by
      rcases hx : w.workers[i]? with _ | x
      · rwa [World.step_of_none hx]
      · have hm := Array.mem_of_getElem? hx
        exact ⟨hQ.stepped w i x hx (hw.2.1.early x hm) (hw.2.2 x hm) hw.1, hw.2.1.step i,
          World.forall_step hw.2.2 fun y _ hy =>
            (y.step_effect w.shared).leads.listeners.trans hy⟩)
    holds limit o.stamina (w := o.world) ⟨h.property, h.enrolled, h.unheard⟩
  exact ⟨h.pipeline, h.transforms, hkeep.1, hkeep.2.1, hkeep.2.2⟩

theorem enroll_spec (hQ : Nascent p ts Q) {ks : List WorkerKey} {k : WorkerKey} {r : Resolved σ}
    {n : Nat} {state : σ} {o : Orchestrator σ} (hr : ts.find? k.id = some r)
    (hspec : p.transform? k.id = some r.spec) (hk : k ∈ p.copiesOf k.id)
    (hi : r.instantiate n = .ok state) (h : Preparing p ts Q ks o) :
    Preparing p ts Q (ks ++ [k]) (o.enroll k (p.wiring k) r.spec state).1 := by
  have hadded : Preparing p ts Q (ks ++ [k])
      (o.addWorker (.new r.spec k.copy (p.wiring k) (p.slot k.id)) state) := by
    refine ⟨h.pipeline, h.transforms, ?_, ⟨?_, fun x hx => ?_⟩, fun x hx => ?_⟩
    · refine hQ.like _ _ ?_ (hQ.enrolled _ k r n state hr hspec hk hi h.property)
      exact ⟨rfl, rfl, rfl, List.suffix_rfl, id⟩
    · show (o.world.workers.push _).toList.map Worker.key = _
      rw [Array.toList_push, List.map_append, h.enrolled.keys]
      exact congrArg (ks ++ [·]) (Context.new_key hspec _ _)
    · rcases Array.mem_push.mp hx with hx | rfl
      · exact h.enrolled.early x hx
      · exact Or.inl ⟨_, rfl⟩
    · rcases Array.mem_push.mp hx with hx | rfl
      · exact h.unheard x hx
      · rfl
  have hrun := hadded.runUntil hQ
    (fun w => (w.workers[o.world.workers.size]?.bind Worker.initResult?).isSome) none
  unfold enroll
  rw [h.pipeline]
  dsimp only
  split
  · exact hrun
  · exact ⟨hrun.pipeline, hrun.transforms, hrun.property, hrun.enrolled, hrun.unheard⟩

theorem prepareWorker_spec (hQ : Nascent p ts Q)
    (hts : ∀ id r, ts.find? id = some r → p.transform? id = some r.spec)
    {ks : List WorkerKey} {k : WorkerKey} {o : Orchestrator σ} (hk : k ∈ p.copiesOf k.id)
    (bindings : Table String) (h : Preparing p ts Q ks o) :
    ∀ bindings', (o.prepareWorker k (p.wiring k) bindings).2 = .ok bindings' →
      Preparing p ts Q (ks ++ [k]) (o.prepareWorker k (p.wiring k) bindings).1 := by
  intro bindings' hok
  have hends := o.prepareWorker_ends k (p.wiring k) bindings
  generalize o.prepareWorker k (p.wiring k) bindings = x at hends hok ⊢
  cases hends
  case prepared built r n state o₁ b hr hi he hh =>
    rw [h.transforms] at hr
    have hbuilt : Preparing p ts Q ks { o with built } :=
      ⟨h.pipeline, h.transforms, h.property, h.enrolled, h.unheard⟩
    have henrolled := enroll_spec hQ hr (hts k.id r hr) hk hi hbuilt
    rw [he] at henrolled
    exact ⟨henrolled.pipeline, henrolled.transforms, henrolled.property, henrolled.enrolled,
      henrolled.unheard⟩
  all_goals cases hok

theorem prepareWorkers_spec (hQ : Nascent p ts Q)
    (hts : ∀ id r, ts.find? id = some r → p.transform? id = some r.spec)
    {ks : List WorkerKey} {t : Topology} (ht : t.Keeps p ks)
    (hks : ∀ k ∈ ks, k ∈ p.copiesOf k.id) {done : List WorkerKey}
    {o : Orchestrator σ} (bindings : Table String) (h : Preparing p ts Q done o)
    (hok : (o.prepareWorkers t bindings ks).2 = .ok ()) :
    Preparing p ts Q (done ++ ks) (o.prepareWorkers t bindings ks).1 := by
  induction ks generalizing done o bindings t with
  | nil =>
    rw [List.append_nil]
    exact h
  | cons k rest ih =>
    obtain ⟨hwiring, hrest⟩ := ht.take
    have hone := prepareWorker_spec hQ hts (hks k List.mem_cons_self) bindings h
    unfold prepareWorkers at hok ⊢
    dsimp only at hok ⊢
    rw [hwiring] at hok ⊢
    rcases hp : o.prepareWorker k (p.wiring k) bindings with ⟨o₁, e | b⟩ <;> rw [hp] at hok hone
    · cases hok
    · have hall := ih hrest (fun k hk => hks k (List.mem_cons_of_mem _ hk)) b (hone b rfl) hok
      rwa [List.append_assoc, List.singleton_append] at hall

/-- **A preparation** that succeeds has enrolled all workers in topological order. -/
theorem prepare_spec {o : Orchestrator σ} (hQ : Nascent o.pipeline o.transforms Q)
    (hts : ∀ id r, o.transforms.find? id = some r → o.pipeline.transform? id = some r.spec)
    (hok : o.prepare.2 = .ok ()) :
    o.prepare.1.state = .prepared [] ∧
      ∃ order, (HopGraph.ofPipeline o.pipeline).topologicalOrder = some order ∧
        Preparing o.pipeline o.transforms Q (order.flatMap o.pipeline.copiesOf) o.prepare.1 := by
  have hends := o.prepare_ends
  generalize o.prepare = x at hends hok ⊢
  cases hends
  case prepared b order o₁ m hs hh hord hw =>
    have hlaid : Preparing o.pipeline o.transforms Q [] (o.begun b) :=
      ⟨rfl, rfl, hQ.laid _ rfl (congrArg List.toArray Topology.build_rowSets) rfl,
        ⟨rfl, fun x hx => absurd hx (Array.not_mem_empty x)⟩,
        fun x hx => absurd hx (Array.not_mem_empty x)⟩
    have hall := prepareWorkers_spec hQ hts (Topology.keeps_build hord)
      Pipeline.copiesOf_of_mem_order b hlaid
    rw [hw] at hall
    have hprep := hall rfl
    exact ⟨rfl, order, hord, hprep.pipeline, hprep.transforms,
      hQ.like o₁.world _ ⟨rfl, rfl, rfl, List.suffix_rfl, id⟩ hprep.property,
      ⟨hprep.enrolled.keys, hprep.enrolled.early⟩, hprep.unheard⟩
  all_goals cases hok

end Orchestrator

end Rowflow
