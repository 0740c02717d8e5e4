import Rowflow.Proofs.Course.History
import Rowflow.Proofs.Course.Preparation

/-!
# From the beginning to the start, and on

After its preparation a run hands out producers and has listeners attached until it is started. What
a start ensures by itself is `Launched`; a property of worlds that is `Early` holds then as well.

`Course.of_running` is the induction over the rest of a run: what holds at the start and is kept by
a step of a worker (`Stepped`) and by whatever comes from outside (`Outside`) holds as long as the
workers run. `Course.of_running_noted` takes along what is noted of the workers that take steps.
-/

namespace Rowflow

variable {σ : Type}

namespace Course

/-- What a start ensures. -/
structure Launched (p : Pipeline) (c : Course σ) : Prop where
  history : c.history = []
  keys : ∃ order, (HopGraph.ofPipeline p).topologicalOrder = some order ∧
    c.workers.toList.map Worker.key = order.flatMap p.copiesOf
  starting : ∀ x ∈ c.workers, x.phase = .starting
  producers : ∀ i ∈ c.producers, ∃ t, p.channels[i]? = some (.injector t)
  injectors : ∀ i t, p.channels[i]? = some (.injector t) →
    c.shared.done i = true ∨ i ∈ c.producers

/-- A running worker takes a step. -/
structure Stepped [Transform σ] (c c' : Course σ) (i : Nat) (x : Worker σ) : Prop where
  worker : c.workers[i]? = some x
  shared : c'.shared = (x.step c.shared).1
  workers : c'.workers = c.workers.setIfInBounds i (x.step c.shared).2
  history : c'.history = grow x.key (x.deed? c.shared) c.history
  producers : c'.producers = c.producers

/-- Something else happens to running workers. As far as the row sets are concerned, it is a deed:
a producer gives an entry or closes its row set. -/
structure Outside (c c' : Course σ) (d : Option Deed) : Prop where
  workers : c'.workers = c.workers
  history : c'.history = c.history
  rowSets : c'.shared.rowSets = Deed.act? c.shared.rowSets d
  stopped : c.shared.stopped = true → c'.shared.stopped = true
  errorCounts : c'.shared.errorCounts = c.shared.errorCounts
  clock : c.shared.clock ≤ c'.shared.clock
  grounds : ∀ x ∈ d,
    (∃ i e, x = .gave i e ∧ i ∈ c.producers ∧ c.shared.admission i = .room) ∨
    ∃ i, x = .closed i ∧ i ∈ c.producers
  producers : ∀ i ∈ c.producers, i ∈ c'.producers ∨ d = some (.closed i)
  fewer : ∀ i ∈ c'.producers, i ∈ c.producers

theorem Outside.enabled {c c' : Course σ} {d : Option Deed} (h : c.Outside c' d) :
    ∀ x ∈ d, x.Enabled c.shared := by
  intro x hx
  rcases h.grounds x hx with ⟨i, e, rfl, -, ha⟩ | ⟨i, rfl, -⟩
  · exact ha
  · trivial

/-- The worker that takes a step when something happens, if the workers run. -/
def stepping? (c : Course σ) : Event → Option (Worker σ)
  | .step i =>
    match c.orchestrator.state with
    | .running _ => c.workers[i]?
    | _ => none
  | _ => none

theorem stepping?_of_running {c : Course σ} {i : Nat} (hr : c.Running) :
    c.stepping? (.step i) = c.workers[i]? := by
  obtain ⟨since, hs⟩ := hr
  simp only [stepping?, hs]

theorem stepping?_of_resting {c : Course σ} (hr : ¬ c.Running) (e : Event) :
    c.stepping? e = none := by
  cases e
  case step i =>
    unfold stepping?
    dsimp only
    split
    · rename_i since hs
      exact absurd ⟨since, hs⟩ hr
    · rfl
  all_goals rfl

variable [Transform σ]

/-- What is noted of the workers that take steps, in order, while the given things happen. -/
def noted {α : Type} (note : Worker σ → List α) : Course σ → List Event → List α
  | _, [] => []
  | c, e :: rest => ((c.stepping? e).map note).getD [] ++ noted note (c.perform e) rest

theorem stepWorker_spec {c : Course σ} {i : Nat} (hr : c.Running) :
    (c.workers[i]? = none ∧ c.stepWorker i = c) ∨ ∃ x, c.Stepped (c.stepWorker i) i x := by
  obtain ⟨since, hr⟩ := hr
  unfold stepWorker
  rw [hr]
  dsimp only
  rcases hx : c.workers[i]? with _ | x
  · exact Or.inl ⟨rfl, rfl⟩
  · right
    have hx' : c.world.workers[i]? = some x := hx
    dsimp only
    rw [World.step_of_getElem? hx']
    rcases hd : x.deed? c.shared with _ | d
    · exact ⟨x, hx, rfl, rfl, by rw [hd]; rfl, rfl⟩
    · exact ⟨x, hx, rfl, rfl, by rw [hd]; rfl, rfl⟩

variable {p : Pipeline} {ts : TransformMap σ} {Q : World σ → Prop}

/-- What holds of a run that is prepared. -/
structure Prepared (p : Pipeline) (ts : TransformMap σ) (Q : World σ → Prop)
    (claimed : List String) (c : Course σ) : Prop where
  pipeline : c.orchestrator.pipeline = p
  transforms : c.orchestrator.transforms = ts
  property : Q c.world
  enrolled : ∃ order, (HopGraph.ofPipeline p).topologicalOrder = some order ∧
    c.world.Enrolled (order.flatMap p.copiesOf)
  history : c.history = []
  producers : ∀ i ∈ c.producers, ∃ t, p.channels[i]? = some (.injector t)
  claims : ∀ i t, p.channels[i]? = some (.injector t) → t ∈ claimed →
    c.shared.done i = true ∨ i ∈ c.producers

/-- What holds of a run that has not been prepared. -/
structure Fresh (p : Pipeline) (ts : TransformMap σ) (c : Course σ) : Prop where
  pipeline : c.orchestrator.pipeline = p
  transforms : c.orchestrator.transforms = ts
  history : c.history = []
  producers : c.producers = []

/-- What holds of a run, by its state, if `P` holds while the workers run. -/
def Stage (p : Pipeline) (ts : TransformMap σ) (Q : World σ → Prop) (P : Course σ → Prop)
    (c : Course σ) : Prop :=
  match c.orchestrator.state with
  | .idle => c.Fresh p ts
  | .prepared claimed => c.Prepared p ts Q claimed
  | .running _ => P c
  | .finished => True

theorem finish_all {w : World σ} (hQ : Early p ts Q) (is : List Nat)
    (hi : ∀ i ∈ is, ∃ t, p.channels[i]? = some (.injector t)) (hw : Q w) :
    Q { w with shared := is.foldl Shared.finish w.shared } := by
  induction is generalizing w with
  | nil => exact hw
  | cons j rest ih =>
    obtain ⟨t, ht⟩ := hi j (by simp)
    exact ih (w := { w with shared := w.shared.finish j })
      (fun i h => hi i (List.mem_cons_of_mem _ h)) (hQ.finished w j t ht hw)

theorem Prepared.start (hp : p.WellFormed) (hQ : Early p ts Q) {P : Course σ → Prop}
    (hP : ∀ c : Course σ, c.Running → c.Launched p → Q c.world → P c) {c : Course σ}
    {claimed : List String} (hs : c.orchestrator.state = .prepared claimed)
    (h : c.Prepared p ts Q claimed) : Stage p ts Q P (c.perform .start) := by
  obtain rfl := h.pipeline
  have hends := c.orchestrator.start_ends
  unfold perform
  generalize c.orchestrator.start = x at hends ⊢
  cases hends
  case unprepared hs' =>
    rw [hs] at hs'
    cases hs'
  case misplaced hs' => exact absurd hs (hs' claimed)
  case refused claimed' message hs' hh o₁ ho =>
    have hfin : (({ o₁ with state := .finished } : Orchestrator σ).closeInjectors []
        |>.abandonAll c.orchestrator.world.workers.size).state = .finished :=
      (Orchestrator.sameRun_abandonAll _ _).state
    unfold Stage
    dsimp only
    rw [hfin]
    trivial
  case started claimed' m hs' hh =>
    rw [hs] at hs'
    cases hs'
    obtain ⟨order, hord, hkeys, hearly⟩ := h.enrolled
    have hdone := fun i => c.shared.done_finishAll
      ((Topology.build c.orchestrator.pipeline).injectors.filterMap fun x =>
        if x.1 ∈ claimed then none else some x.2) i
    have hq := finish_all hQ
      ((Topology.build c.orchestrator.pipeline).injectors.filterMap fun x =>
        if x.1 ∈ claimed then none else some x.2) (by
        intro i hi
        obtain ⟨⟨t, j⟩, hm, he⟩ := List.mem_filterMap.mp hi
        dsimp only at he
        split at he <;> cases he
        rw [Topology.build_injectors] at hm
        exact ⟨t, hp.mem_injectors.mp hm⟩) h.property
    have hlaunched := hQ.launched _ hq
    refine hP _ ⟨_, rfl⟩ ⟨h.history, ⟨order, hord, ?_⟩, ?_, h.producers, ?_⟩
      (hQ.like _ _ ?_ hlaunched)
    · rw [← hkeys]
      show (c.world.workers.map Worker.launch).toList.map Worker.key = _
      rw [Array.toList_map, List.map_map]
      rfl
    · intro x hx
      obtain ⟨y, -, rfl⟩ := Array.mem_map.mp hx
      rfl
    · intro i t hi
      by_cases ht : t ∈ claimed
      · rcases h.claims i t hi ht with hd | hm
        · exact Or.inl ((hdone i).mpr (Or.inl hd))
        · exact Or.inr hm
      · refine Or.inl ((hdone i).mpr (Or.inr (List.mem_filterMap.mpr ⟨(t, i), ?_, if_neg ht⟩)))
        rw [Topology.build_injectors]
        exact hp.mem_injectors.mpr hi
    · exact ⟨rfl, rfl, rfl, List.suffix_rfl, id⟩

theorem Prepared.perform (hp : p.WellFormed) (hQ : Early p ts Q) {P : Course σ → Prop}
    (hP : ∀ c : Course σ, c.Running → c.Launched p → Q c.world → P c) {c : Course σ}
    {claimed : List String} (hs : c.orchestrator.state = .prepared claimed)
    (h : c.Prepared p ts Q claimed) (e : Event) : Stage p ts Q P (c.perform e) := by
  have hstage : ∀ {c' : Course σ} {l}, c'.orchestrator.state = .prepared l →
      c'.Prepared p ts Q l → Stage p ts Q P c' := by
    intro c' l hs' h'
    unfold Stage
    rw [hs']
    exact h'
  -- flags, clocks and reports say nothing about what is prepared
  have hlike : ∀ s' : Shared, s'.rowSets = c.shared.rowSets →
      s'.errorCounts = c.shared.errorCounts → s'.reports <:+ c.shared.reports →
      (c.shared.stopped = true → s'.stopped = true) → Stage p ts Q P (c.setShared s') := by
    intro s' h1 h2 h3 h4
    refine hstage (l := claimed) hs ⟨h.pipeline, h.transforms,
      hQ.like c.world _ ⟨rfl, h1, h2, h3, h4⟩ h.property, ?_, h.history, h.producers,
      fun i t hi ht => ?_⟩
    · obtain ⟨order, hord, hk, he⟩ := h.enrolled
      exact ⟨order, hord, hk, he⟩
    · rcases h.claims i t hi ht with hd | hm
      · exact Or.inl ((Shared.done_congr h1).trans hd)
      · exact Or.inr hm
  rcases e with _ | id | ⟨id, l⟩ | _ | ⟨i, e⟩ | i | _ | micros | _ | i
  case prepare =>
    simp only [Course.perform, Orchestrator.prepare]
    rw [if_pos (by rw [hs]; intro h; cases h)]
    exact hstage hs h
  case produce =>
    unfold Course.perform Orchestrator.rowProducer
    dsimp only
    rw [hs]
    dsimp only
    rw [show c.orchestrator.pipeline.transform? id = p.transform? id by rw [h.pipeline],
      show (Topology.build c.orchestrator.pipeline).injectors.lookup id = p.injector? id by
        rw [h.pipeline, Topology.build_injectors, hp.lookup_injectors]]
    rcases p.transform? id with _ | spec
    · exact hstage hs h
    · rcases hi : p.injector? id with _ | i
      · exact hstage hs h
      · have hch : p.channels[i]? = some (.injector id) := by
          obtain ⟨hlt, he, -⟩ := List.idxOf?_eq_some_iff.mp hi
          rw [List.getElem?_eq_getElem hlt, he]
        refine hstage (l := id :: claimed) rfl ⟨h.pipeline, h.transforms, h.property,
          h.enrolled, h.history, fun j hj => ?_, fun j t hj ht => ?_⟩
        · rcases List.mem_cons.mp hj with rfl | hj
          · exact ⟨id, hch⟩
          · exact h.producers j hj
        · rcases List.mem_cons.mp ht with rfl | ht
          · rw [hp.channel_inj hj hch]
            exact Or.inr List.mem_cons_self
          · rcases h.claims j t hj ht with hd | hm
            · exact Or.inl hd
            · exact Or.inr (List.mem_cons_of_mem _ hm)
  case listen =>
    unfold Course.perform Orchestrator.addListener
    dsimp only
    rw [hs]
    dsimp only
    split
    · obtain ⟨order, hord, hkeys, hearly⟩ := h.enrolled
      refine hstage rfl ⟨h.pipeline, h.transforms, hQ.heard c.world id l h.property,
        ⟨order, hord, ?_, fun x hx => ?_⟩, h.history, h.producers, h.claims⟩
      · rw [← hkeys]
        show (c.world.workers.map (Worker.hear id l)).toList.map Worker.key = _
        rw [Array.toList_map, List.map_map]
        refine List.map_congr_left fun x _ => ?_
        unfold Worker.hear
        dsimp only [Function.comp_apply]
        split <;> rfl
      · obtain ⟨y, hy, rfl⟩ := Array.mem_map.mp hx
        have := hearly y hy
        split
        · exact this
        · exact this
    · exact hstage hs h
  case start => exact h.start hp hQ hP hs
  case inject =>
    unfold Course.perform
    dsimp only
    split
    · rename_i hm
      obtain ⟨t, ht⟩ := h.producers i hm
      unfold Orchestrator.offer
      dsimp only
      rcases ha : c.orchestrator.world.shared.admission i with _ | _ | _ | _ <;> dsimp only
      · refine hstage hs ⟨h.pipeline, h.transforms, hQ.injected c.world i t e ht ha h.property, ?_,
          h.history, h.producers, fun j t hj ht => ?_⟩
        · obtain ⟨order, hord, hk, he⟩ := h.enrolled
          exact ⟨order, hord, hk, he⟩
        · rcases h.claims j t hj ht with hd | hm
          · exact Or.inl ((c.shared.done_accept i j e).trans hd)
          · exact Or.inr hm
      all_goals exact hstage hs h
    · exact hstage hs h
  case finish =>
    unfold Course.perform
    dsimp only
    split
    · rename_i hm
      obtain ⟨t, ht⟩ := h.producers i hm
      refine hstage hs ⟨h.pipeline, h.transforms, hQ.finished c.world i t ht h.property, ?_,
        h.history, fun j hj => h.producers j (List.mem_of_mem_erase hj), fun j t hj ht => ?_⟩
      · obtain ⟨order, hord, hk, he⟩ := h.enrolled
        exact ⟨order, hord, hk, he⟩
      · have hdone := c.shared.done_finish i j
        rcases h.claims j t hj ht with hd | hm
        · exact Or.inl (hdone.mpr (Or.inl hd))
        · by_cases hji : j = i
          · subst hji
            exact Or.inl (hdone.mpr (Or.inr rfl))
          · exact Or.inr ((List.mem_erase_of_ne hji).mpr hm)
    · exact hstage hs h
  case stop =>
    obtain ⟨h1, h3, h2⟩ := c.shared.requestStop_fixed "orchestrator"
    refine hlike _ h1 h2 ?_ fun _ => h3
    rw [Shared.reports_requestStop]
    exact List.suffix_rfl
  case pass => exact hlike _ rfl rfl List.suffix_rfl id
  case receive => exact hlike _ rfl rfl (List.tail_suffix _) id
  case step =>
    unfold Course.perform stepWorker
    dsimp only
    rw [hs]
    exact hstage hs h

theorem Fresh.perform (hQ : Early p ts Q)
    (hts : ∀ id r, ts.find? id = some r → p.transform? id = some r.spec) {P : Course σ → Prop}
    {c : Course σ} (hs : c.orchestrator.state = .idle) (h : c.Fresh p ts) (e : Event) :
    Stage p ts Q P (c.perform e) := by
  have hstage : ∀ {c' : Course σ}, c'.orchestrator.state = .idle → c'.Fresh p ts →
      Stage p ts Q P c' := by
    intro c' hs' h'
    unfold Stage
    rw [hs']
    exact h'
  have hsame : ∀ o : Orchestrator σ, c.orchestrator.SameRun o →
      Stage p ts Q P { c with orchestrator := o } := fun o ho =>
    hstage (ho.state.trans hs) ⟨ho.pipeline.trans h.pipeline, ho.transforms.trans h.transforms,
      h.history, h.producers⟩
  rcases e with _ | id | ⟨id, l⟩ | _ | ⟨i, e⟩ | i | _ | micros | _ | i
  case prepare =>
    have hpipe := h.pipeline
    have ht := h.transforms
    subst hpipe ht
    rcases hp : c.orchestrator.prepare.2 with e | _
    · exact hsame _ (Orchestrator.sameRun_prepare hp)
    · obtain ⟨hprep, order, hord, ho⟩ := Orchestrator.prepare_spec hQ.toNascent hts hp
      unfold Stage Course.perform
      dsimp only
      rw [hprep]
      refine ⟨ho.pipeline, ho.transforms, ho.property, ⟨order, hord, ho.enrolled⟩, h.history, ?_, ?_⟩
      · intro i hi
        rw [h.producers] at hi
        cases hi
      · intro i t _ ht
        cases ht
  case produce =>
    unfold Course.perform Orchestrator.rowProducer
    dsimp only
    rw [hs]
    exact hsame _ (.refl _)
  case listen =>
    unfold Course.perform Orchestrator.addListener
    dsimp only
    rw [hs]
    exact hsame _ (.refl _)
  case start =>
    unfold Course.perform Orchestrator.start
    rw [hs]
    exact hsame _ (.refl _)
  case inject =>
    unfold Course.perform
    dsimp only
    rw [if_neg (by rw [h.producers]; exact List.not_mem_nil)]
    exact hstage hs h
  case finish =>
    unfold Course.perform
    dsimp only
    rw [if_neg (by rw [h.producers]; exact List.not_mem_nil)]
    exact hstage hs h
  case step =>
    unfold Course.perform stepWorker
    dsimp only
    rw [hs]
    exact hstage hs h
  all_goals exact hsame _ ⟨rfl, rfl, rfl⟩

/-- What happens to a run whose workers run: a worker takes a step, or it comes from outside, and then
the reports stay unless one is received. -/
theorem perform_running {c : Course σ} (hr : c.Running) (e : Event) :
    (c.perform e).Running ∧
      ((∃ i x, c.Stepped (c.perform e) i x ∧ c.stepping? e = some x) ∨
        ∃ d, c.Outside (c.perform e) d ∧
          (e ≠ .receive → (c.perform e).shared.reports = c.shared.reports) ∧
          c.stepping? e = none) := by
  obtain ⟨since, hs⟩ := hr
  have hquiet : ∀ c' : Course σ, c'.workers = c.workers → c'.history = c.history →
      c'.shared.rowSets = c.shared.rowSets → (c.shared.stopped = true → c'.shared.stopped = true) →
      c'.shared.errorCounts = c.shared.errorCounts → c.shared.clock ≤ c'.shared.clock →
      c'.producers = c.producers → c.Outside c' none := fun c' h1 h2 h3 h4 h5 h6 h7 =>
    ⟨h1, h2, h3, h4, h5, h6, fun x hx => by (cases hx), fun i hi => Or.inl (by rwa [h7]),
      fun i hi => by rwa [h7] at hi⟩
  have hstay : c.stepping? e = none → ∃ d, c.Outside c d ∧
      (e ≠ .receive → c.shared.reports = c.shared.reports) ∧ c.stepping? e = none := fun he =>
    ⟨none, hquiet c rfl rfl rfl id rfl (Nat.le_refl _) rfl, fun _ => rfl, he⟩
  rcases e with _ | id | ⟨id, l⟩ | _ | ⟨i, e⟩ | i | _ | micros | _ | i
  case prepare =>
    simp only [perform, Orchestrator.prepare]
    rw [if_pos (by rw [hs]; intro h; cases h)]
    exact ⟨⟨since, hs⟩, Or.inr (hstay rfl)⟩
  case produce =>
    unfold perform Orchestrator.rowProducer
    dsimp only
    rw [hs]
    exact ⟨⟨since, hs⟩, Or.inr (hstay rfl)⟩
  case listen =>
    unfold perform Orchestrator.addListener
    dsimp only
    rw [hs]
    exact ⟨⟨since, hs⟩, Or.inr (hstay rfl)⟩
  case start =>
    unfold perform Orchestrator.start
    rw [hs]
    exact ⟨⟨since, hs⟩, Or.inr (hstay rfl)⟩
  case inject =>
    unfold perform
    dsimp only
    split
    · rename_i hm
      unfold Orchestrator.offer
      dsimp only
      rcases ha : c.orchestrator.world.shared.admission i with _ | _ | _ | _ <;> dsimp only
      · refine ⟨⟨since, hs⟩, Or.inr ⟨some (.gave i e), ⟨rfl, rfl, rfl, id, rfl, Nat.le_refl _, ?_,
          fun j hj => Or.inl hj, fun j hj => hj⟩, fun _ => rfl, rfl⟩⟩
        rintro x ⟨⟩
        exact Or.inl ⟨i, e, rfl, hm, ha⟩
      all_goals exact ⟨⟨since, hs⟩, Or.inr (hstay rfl)⟩
    · exact ⟨⟨since, hs⟩, Or.inr (hstay rfl)⟩
  case finish =>
    unfold perform
    dsimp only
    split
    · rename_i hm
      refine ⟨⟨since, hs⟩, Or.inr ⟨some (.closed i), ⟨rfl, rfl, rfl, id, rfl, Nat.le_refl _, ?_, ?_,
        ?_⟩, fun _ => rfl, rfl⟩⟩
      · rintro x ⟨⟩
        exact Or.inr ⟨i, rfl, hm⟩
      · intro j hj
        by_cases hji : j = i
        · subst hji
          exact Or.inr rfl
        · exact Or.inl ((List.mem_erase_of_ne hji).mpr hj)
      · exact fun j hj => List.mem_of_mem_erase hj
    · exact ⟨⟨since, hs⟩, Or.inr (hstay rfl)⟩
  case stop =>
    obtain ⟨h1, h2, h3⟩ := c.shared.requestStop_fixed "orchestrator"
    exact ⟨⟨since, hs⟩, Or.inr ⟨none, hquiet _ rfl rfl h1 (fun _ => h2) h3
      (Nat.le_of_eq (c.shared.clock_requestStop _).symm) rfl, fun _ => c.shared.reports_requestStop _,
      rfl⟩⟩
  case pass =>
    exact ⟨⟨since, hs⟩, Or.inr ⟨none, hquiet _ rfl rfl rfl id rfl (Nat.le_add_right _ _) rfl,
      fun _ => rfl, rfl⟩⟩
  case receive =>
    exact ⟨⟨since, hs⟩, Or.inr ⟨none, hquiet _ rfl rfl rfl id rfl (Nat.le_refl _) rfl,
      fun hne => absurd rfl hne, rfl⟩⟩
  case step =>
    have hrun : (c.stepWorker i).Running := by
      unfold stepWorker
      rw [hs]
      dsimp only
      rcases c.workers[i]? with _ | x
      · exact ⟨since, hs⟩
      · dsimp only
        rcases x.deed? c.shared with _ | d <;> exact ⟨since, hs⟩
    refine ⟨hrun, ?_⟩
    have hstepping := stepping?_of_running (i := i) ⟨since, hs⟩
    rcases stepWorker_spec (i := i) ⟨since, hs⟩ with ⟨hx, h⟩ | ⟨x, h⟩
    · refine Or.inr ?_
      show ∃ d, c.Outside (c.stepWorker i) d ∧
        (_ → (c.stepWorker i).shared.reports = c.shared.reports) ∧ _
      rw [h]
      exact hstay (hstepping.trans hx)
    · exact Or.inl ⟨i, x, h, hstepping.trans h.worker⟩

theorem perform_finished {c : Course σ} (hs : c.orchestrator.state = .finished) (e : Event) :
    (c.perform e).orchestrator.state = .finished := by
  rcases e with _ | id | ⟨id, l⟩ | _ | ⟨i, e⟩ | i | _ | micros | _ | i
  case prepare =>
    simp only [perform, Orchestrator.prepare]
    rw [if_pos (by rw [hs]; intro h; cases h)]
    exact hs
  case produce =>
    unfold perform Orchestrator.rowProducer
    dsimp only
    rw [hs]
    exact hs
  case listen =>
    unfold perform Orchestrator.addListener
    dsimp only
    rw [hs]
    exact hs
  case start =>
    unfold perform Orchestrator.start
    rw [hs]
    exact hs
  case inject =>
    unfold perform Orchestrator.offer
    dsimp only
    split
    · split <;> exact hs
    · exact hs
  case finish =>
    unfold perform
    dsimp only
    split <;> exact hs
  case step =>
    unfold perform stepWorker
    dsimp only
    rw [hs]
    exact hs
  all_goals exact hs

/-- **Induction over all stages of a run**, together with what is noted of the workers that take steps:
before the start the run is fresh or prepared, and what a start ensures, and steps of workers and
whatever comes from outside keep, holds as long as the workers run. -/
theorem staged_noted {registry : Registry σ} {o : Orchestrator σ} {hooks : Hooks}
    {bindings : Table String} (hnew : Orchestrator.new p registry = .ok o)
    (hQ : Early p o.transforms Q) {α : Type} (note : Worker σ → List α) {P : List α → Course σ → Prop}
    (start : ∀ c : Course σ, c.Running → c.Launched p → Q c.world → P [] c)
    (outside : ∀ (notes : List α) (c c' : Course σ) (d : Option Deed),
      c.Outside c' d → P notes c → P notes c')
    (step : ∀ (notes : List α) (c c' : Course σ) (i : Nat) (x : Worker σ),
      c.Stepped c' i x → P notes c → P (notes ++ note x) c')
    (events : List Event) :
    Stage p o.transforms Q (P ((Course.begin o hooks bindings).noted note events))
      ((Course.begin o hooks bindings).run events) := by
  obtain ⟨hv, hpipe, hidle, -⟩ := Orchestrator.new_ok hnew
  have hp := Pipeline.wellFormed_of_validationErrors hv
  -- before the start nothing has been noted
  have hall : ∀ (events : List Event) (c : Course σ) (notes : List α),
      Stage p o.transforms Q (P notes) c → (¬ c.Running → notes = []) →
      Stage p o.transforms Q (P (notes ++ c.noted note events)) (c.run events) := by
    intro events
    induction events with
    | nil =>
      intro c notes hc _
      rw [noted, List.append_nil]
      exact hc
    | cons e rest ih =>
      intro c notes hc hnotes
      rw [noted, ← List.append_assoc]
      refine ih (c.perform e) (notes ++ ((c.stepping? e).map note).getD []) ?_ fun hn => ?_
      · by_cases hr : c.Running
        · obtain ⟨since, hs⟩ := hr
          obtain ⟨⟨since', hs'⟩, hstep⟩ := perform_running ⟨since, hs⟩ e
          unfold Stage at hc ⊢
          rw [hs] at hc
          rw [hs']
          rcases hstep with ⟨i, x, h, hx⟩ | ⟨d, h, -, hx⟩ <;> rw [hx]
          · exact step notes _ _ i x h hc
          · rw [Option.map_none, Option.getD_none, List.append_nil]
            exact outside notes _ _ d h hc
        · obtain rfl := hnotes hr
          rw [stepping?_of_resting hr]
          rcases hs : c.orchestrator.state with _ | claimed | since | _
          case running => exact absurd ⟨since, hs⟩ hr
          all_goals
            unfold Stage at hc
            rw [hs] at hc
            dsimp only at hc
          · exact hc.perform hQ (fun _ _ h => (Orchestrator.resolved_of_new hnew h).1) hs e
          · exact hc.perform hp hQ start hs e
          · unfold Stage
            rw [perform_finished hs e]
            trivial
      · have hr : ¬ c.Running := fun hr => hn (perform_running hr e).1
        rw [hnotes hr, stepping?_of_resting hr]
        rfl
  have hbegin : Stage p o.transforms Q (P []) (Course.begin o hooks bindings) := by
    unfold Stage begin
    dsimp only
    rw [hidle]
    exact ⟨hpipe, rfl, rfl, rfl⟩
  exact hall events _ [] hbegin fun _ => rfl

/-- **Induction over a run**, together with what is noted of the workers that take steps: what a start
ensures, and steps of workers and whatever comes from outside keep, holds as long as the workers run. -/
theorem of_running_noted {registry : Registry σ} {o : Orchestrator σ} {hooks : Hooks}
    {bindings : Table String} (hnew : Orchestrator.new p registry = .ok o)
    (hQ : Early p o.transforms Q) {α : Type} (note : Worker σ → List α) {P : List α → Course σ → Prop}
    (start : ∀ c : Course σ, c.Running → c.Launched p → Q c.world → P [] c)
    (outside : ∀ (notes : List α) (c c' : Course σ) (d : Option Deed),
      c.Outside c' d → P notes c → P notes c')
    (step : ∀ (notes : List α) (c c' : Course σ) (i : Nat) (x : Worker σ),
      c.Stepped c' i x → P notes c → P (notes ++ note x) c')
    (events : List Event) (hr : ((Course.begin o hooks bindings).run events).Running) :
    P ((Course.begin o hooks bindings).noted note events)
      ((Course.begin o hooks bindings).run events) := by
  obtain ⟨since, hs⟩ := hr
  have hend : Stage p o.transforms Q (P ((Course.begin o hooks bindings).noted note events))
      ((Course.begin o hooks bindings).run events) :=
    staged_noted hnew hQ note start outside step events
  unfold Stage at hend
  rw [hs] at hend
  exact hend

/-- **Induction over a run.** What a start ensures, and steps of workers and whatever comes from
outside keep, holds as long as the workers run. -/
theorem of_running {registry : Registry σ} {o : Orchestrator σ} {hooks : Hooks}
    {bindings : Table String} (hnew : Orchestrator.new p registry = .ok o)
    (hQ : Early p o.transforms Q) {P : Course σ → Prop}
    (start : ∀ c : Course σ, c.Running → c.Launched p → Q c.world → P c)
    (outside : ∀ (c c' : Course σ) (d : Option Deed), c.Outside c' d → P c → P c')
    (step : ∀ (c c' : Course σ) (i : Nat) (x : Worker σ), c.Stepped c' i x → P c → P c')
    (events : List Event) (hr : ((Course.begin o hooks bindings).run events).Running) :
    P ((Course.begin o hooks bindings).run events) :=
  of_running_noted hnew hQ (fun _ => ([] : List Unit)) (P := fun _ => P) start (fun _ => outside)
    (fun _ => step) events hr

end Course

end Rowflow
