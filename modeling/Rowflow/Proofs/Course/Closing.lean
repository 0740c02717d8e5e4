import Rowflow.Proofs.Course.CleanEnd
import Rowflow.Proofs.Course.Refusals

/-!
# Who closes a row set

Every row set of a pipeline has one writer, a worker or a producer, and gets its end mark from nobody
else. A worker does so only after it has left the loop of calls (`Worker.Tends`), and a producer only
when it is finished or dropped; what nobody has claimed is closed by the start. So as long as a worker
is in that loop, all that it writes to is open, and it is refused by a row set for no other reason than
a stop.

- `Course.tended`: the invariant, for all stages of all runs.
- `Course.closed_by_writers`: what becomes of the end marks, and of those who write.
-/

namespace Rowflow

variable {σ : Type}

/-! ### Refusals -/

/-- Whether the error says that a row set has its end mark. -/
def TransformError.isClosed : TransformError → Bool
  | .rowSet error | .route (.rowSet error) => !error.isStop
  | _ => false

theorem Context.Purpose.isClosed_failure (p : Purpose) (e : RowSetError) :
    (p.failure e).isClosed = !e.isStop := by
  cases p <;> rfl

theorem Context.done_of_closed {s : Shared} {del : Delivery} {err : TransformError}
    (h : deliveryDeed? s del = some (.refused err)) (hc : err.isClosed = true) :
    ∃ i ∈ del.pending, s.done i = true := by
  cases undeliverable_of_refused h
  case closed i rest pending done =>
    exact ⟨i, by rw [pending]; exact List.mem_cons_self, done⟩
  case stopped =>
    rw [Purpose.isClosed_failure] at hc
    cases hc

/-- **A closed row set refuses** only what is on its way into it. -/
theorem Activity.done_of_closed {α : Type} {a : Activity σ α} {s : Shared} {c : Context} (state : σ)
    {err : TransformError} (h : a.deed? s c = some (.refused err)) (hc : err.isClosed = true) :
    ∃ del ∈ a.delivery?, ∃ i ∈ del.pending, s.done i = true := by
  rcases a with plan | ⟨stage, next⟩ | ⟨del, next⟩ | _ | _ | _
  case run =>
    cases plan
    case write e next =>
      rcases c.startWrite_cases e with ⟨-, hw⟩ | ⟨-, ⟨-, hw⟩ | ⟨-, -, hw⟩ | ⟨t, i, -, -, hw⟩⟩ <;>
        simp only [deed?, hw] at h <;> cases h
      cases hc
    case writeTo target e next =>
      rcases c.startWriteTo_cases target e with ⟨-, hw⟩ | ⟨-, ⟨-, hw⟩ | ⟨t, i, -, hw⟩⟩ <;>
        simp only [deed?, hw] at h <;> cases h <;> cases hc
    case divert e why next =>
      rcases c.startDivert_cases s e why with ⟨-, hd⟩ | ⟨route, maximum, next, -, -, hd⟩ |
        ⟨route, -, -, hd⟩ | ⟨route, count, -, -, hd⟩ <;> simp only [deed?, hd] at h <;> cases h <;>
          cases hc
    all_goals cases h
  case reading =>
    have hstep := (stepRead_spec ⟨s, c, state⟩ stage next).2
    rw [h] at hstep
    cases hstep
  case writing => exact ⟨del, rfl, Context.done_of_closed h hc⟩
  all_goals cases h

namespace Worker

variable {x : Worker σ} {s : Shared}

theorem pending_of_delivery {del : Context.Delivery} (h : del ∈ x.phase.delivery?) :
    del.pending ⊆ x.pending := by
  have hpending : ∀ {α : Type} {a : Activity σ α}, del ∈ a.delivery? → del.pending ⊆ a.pending := by
    intro α a ha
    cases a
    case writing =>
      cases ha
      exact List.Subset.refl _
    all_goals cases ha
  obtain ⟨c, state, phase⟩ := x
  cases phase
  case initializing => exact hpending h
  case working => exact hpending h
  case diverting => exact hpending h
  case disposing => exact hpending h
  all_goals cases h

/-- **A worker whose row sets are open** is not told that one is closed. -/
theorem not_isClosed (haim : x.Aims) (hopen : ∀ i ∈ x.context.written, s.done i = false)
    {err : TransformError} (h : x.deed? s = some (.refused err)) : err.isClosed = false := by
  rw [← Bool.not_eq_true]
  intro hc
  obtain ⟨del, hdel, i, hi, hdone⟩ : ∃ del ∈ x.phase.delivery?, ∃ i ∈ del.pending, s.done i = true :=
    Phase.delivery_of_doing (P := fun o => ∃ del ∈ o, ∃ i ∈ del.pending, s.done i = true)
      (deed?_operation h trivial) fun ha => Activity.done_of_closed x.state ha hc
  rw [hopen i (haim i (pending_of_delivery hdel hi))] at hdone
  cases hdone

end Worker

/-! ### In the loop of calls and after it -/

/-- Whether the worker has been started and has not left the loop of calls. -/
def Phase.Calls : Phase σ → Prop
  | .starting | .checking | .working _ | .judging _ | .diverting _ _ | .failing _ | .crashed _ => True
  | _ => False

/-- Whether the worker has left the loop of calls. -/
def Phase.IsOut : Phase σ → Prop
  | .closing _ _ | .disposing _ _ | .reporting _ _ | .sending _ | .ended => True
  | _ => False

theorem Phase.not_calls_of_isOut {phase : Phase σ} (h : phase.IsOut) : ¬ phase.Calls := by
  intro hcalls
  cases phase
  case closing => exact hcalls
  case disposing => exact hcalls
  case reporting => exact hcalls
  case sending => exact hcalls
  case ended => exact hcalls
  all_goals exact h

namespace Worker

variable {p : Pipeline} {s s' : Shared} {h h' : List (WorkerKey × Deed)} {x : Worker σ}

/-- What holds of every running worker: as long as it is in the loop of calls all that it writes to is
open, and when it is not it has left. -/
structure Tends (p : Pipeline) (s : Shared) (h : List (WorkerKey × Deed)) (x : Worker σ) :
    Prop where
  rooted : x.context.Rooted p
  aims : x.Aims
  stands : (x.phase.Calls ∧ ∀ i ∈ x.context.written, s.done i = false) ∨
    x.phase.IsOut ∧ ∃ status, (x.key, Deed.left status) ∈ h

theorem out_of_closed {d : Deed} {i : Nat} (hd : x.deed? s = some d) (hc : d = .closed i) :
    ∃ fate rest, x.phase = .closing fate (i :: rest) := by
  subst hc
  have hleads := deed?_leads hd
  generalize x.phase = phase at hleads
  cases hleads
  case operation kind => exact absurd kind id
  case closed fate rest => exact ⟨fate, rest, rfl⟩

theorem Tends.frame (hx : x.Tends p s h) {d : Option Deed} (hact : s'.rowSets = Deed.act? s.rowSets d)
    (hsub : ∀ y ∈ h, y ∈ h') (hopen : ∀ i ∈ x.context.written, d ≠ some (.closed i)) :
    x.Tends p s' h' := by
  refine ⟨hx.rooted, hx.aims, ?_⟩
  rcases hx.stands with ⟨hcalls, hwritten⟩ | ⟨hout, status, hleft⟩
  · refine Or.inl ⟨hcalls, fun i hi => ?_⟩
    rw [← Bool.not_eq_true, Shared.done_act hact i, hwritten i hi]
    simpa using hopen i hi
  · exact Or.inr ⟨hout, status, hsub _ hleft⟩

variable [Transform σ]

theorem step_calls (hx : x.phase.Calls) (s : Shared) : (x.step s).2.phase.Calls ∨
    (x.step s).2.phase.IsOut ∧ ∃ status, x.deed? s = some (.left status) := by
  have hmoves := x.step_moves s
  generalize x.phase = phase, x.deed? s = d, (x.step s).1 = s', (x.step s).2 = y at hx hmoves ⊢
  cases hmoves
  case stops => exact Or.inr ⟨trivial, _, rfl⟩
  case exhausted => exact Or.inr ⟨trivial, _, rfl⟩
  case cut => exact Or.inr ⟨trivial, _, rfl⟩
  case interrupted => exact Or.inr ⟨trivial, _, rfl⟩
  case fails => exact Or.inr ⟨trivial, _, rfl⟩
  case collapses => exact Or.inr ⟨trivial, _, rfl⟩
  all_goals first | exact Or.inl trivial | exact absurd hx id

theorem step_isOut (hx : x.phase.IsOut) (s : Shared) : (x.step s).2.phase.IsOut := by
  have hmoves := x.step_moves s
  generalize x.phase = phase, x.deed? s = d, (x.step s).1 = s', (x.step s).2 = y at hx hmoves ⊢
  cases hmoves
  case disposed fate => cases fate <;> trivial
  case undisposed fate _ => cases fate <;> trivial
  all_goals trivial

/-- **A step of the worker itself** closes nothing before the worker has left. -/
theorem Tends.step (hx : x.Tends p s h) :
    (x.step s).2.Tends p (x.step s).1 (Course.grow x.key (x.deed? s) h) := by
  have heffect := x.step_effect s
  have hkey : (x.step s).2.key = x.key := heffect.leads.key
  refine ⟨hx.rooted.leads heffect.leads, x.step_aims hx.aims, ?_⟩
  rw [hkey]
  rcases hx.stands with ⟨hcalls, hwritten⟩ | ⟨hout, status, hleft⟩
  · rcases step_calls hcalls s with hstill | ⟨hout, status, hd⟩
    · refine Or.inl ⟨hstill, fun i hi => ?_⟩
      rw [heffect.leads.written] at hi
      rw [← Bool.not_eq_true, Shared.done_act heffect.rowSets i, hwritten i hi]
      rintro (hf | hd)
      · cases hf
      · obtain ⟨fate, rest, hphase⟩ := out_of_closed hd rfl
        rw [hphase] at hcalls
        exact hcalls
    · exact Or.inr ⟨hout, status, Course.mem_grow.mpr (Or.inl ⟨rfl, hd⟩)⟩
  · exact Or.inr ⟨step_isOut hout s, status, Course.mem_grow_of_mem hleft⟩

end Worker

/-! ### Stages of a run -/

namespace Course

variable {p : Pipeline} {c c' : Course σ}

/-- What holds of a running course. -/
structure Tended (p : Pipeline) (c : Course σ) : Prop where
  crew : c.Crew p
  tends : ∀ x ∈ c.workers, x.Tends p c.shared c.history
  producers : ∀ i ∈ c.producers, ∃ t, p.channels[i]? = some (.injector t)

theorem Launched.tended (hp : p.WellFormed) (h : c.Launched p) (hw : c.world.Unspoilt p) :
    c.Tended p where
  crew := h.crew hp
  tends x hx := by
    obtain ⟨hwired, haims⟩ := hw.wired x hx
    refine ⟨hwired.toRooted, haims, Or.inl ⟨?_, fun i hi => ?_⟩⟩
    · rw [h.starting x hx]
      trivial
    · obtain ⟨ch, hch, hk⟩ := (hwired.written hp).mp hi
      exact hw.opened i ch _ hch hk
  producers := h.producers

theorem Outside.tended (hp : p.WellFormed) {d : Option Deed} (h : c.Outside c' d)
    (hc : c.Tended p) : c'.Tended p where
  crew := h.crew hc.crew
  tends x hx := by
    rw [h.workers] at hx
    have hxc := hc.tends x hx
    refine hxc.frame h.rowSets (fun y hy => by rwa [h.history]) fun i hi hd => ?_
    -- a producer closes only what it writes to itself
    obtain ⟨ch, hch, hk⟩ := (hxc.rooted.written hp).mp hi
    rcases h.grounds _ hd with ⟨j, e, hj, -⟩ | ⟨j, hj, hm⟩ <;> cases hj
    obtain ⟨t, ht⟩ := hc.producers i hm
    rw [hch] at ht
    cases ht
    cases hk
  producers i hi := hc.producers i (h.fewer i hi)

variable [Transform σ]

theorem Stepped.tended (hp : p.WellFormed) {j : Nat} {x : Worker σ} (h : c.Stepped c' j x)
    (hc : c.Tended p) : c'.Tended p where
  crew := h.crew hc.crew
  tends y hy := by
    have hx := hc.tends x h.mem
    rw [h.history]
    rcases h.cases hc.crew hy with rfl | ⟨hy, hne⟩
    · rw [h.shared]
      exact hx.step
    · have hyc := hc.tends y hy
      refine hyc.frame h.effect.rowSets (fun z hz => mem_grow_of_mem hz) fun i hi hd => ?_
      -- two workers never write to one row set
      obtain ⟨ch, hch, hk⟩ := (hyc.rooted.written hp).mp hi
      obtain ⟨ch', hch', hk'⟩ := (hx.rooted.written hp).mp (Worker.deed?_grounds hx.aims hd)
      rw [hch] at hch'
      cases hch'
      rw [hk] at hk'
      exact hne (Option.some.inj hk').symm
  producers i hi := by
    rw [h.producers] at hi
    exact hc.producers i hi

/-- **In all stages** of all runs nothing is closed that is still written to. -/
theorem tended {registry : Registry σ} {o : Orchestrator σ} {hooks : Hooks} {bindings : Table String}
    (hnew : Orchestrator.new p registry = .ok o) (events : List Event) :
    Stage p o.transforms (World.Unspoilt p) (Tended p) ((begin o hooks bindings).run events) := by
  have hp := Pipeline.wellFormed_of_validationErrors (Orchestrator.new_ok hnew).1
  exact staged_noted hnew (World.Unspoilt.early o.transforms) (fun _ => ([] : List Unit))
    (P := fun _ => Tended p) (fun c _ hl hw => hl.tended hp hw)
    (fun _ c c' d h hc => h.tended hp hc) (fun _ c c' i x h hc => h.tended hp hc) events

/-! ### End marks -/

/-- By what a row set may get its end mark: by a step of the worker that writes to it, which has left
the loop of calls, by the end of its producer, or by the start if nobody has claimed it. -/
inductive Closes (p : Pipeline) (c : Course σ) (i : Nat) : Event → Prop where
  | writer (j : Nat) (x : Worker σ) (ch : Channel) (fate : Fate) (rest : List Nat)
      (status : WorkerStatus) (worker : c.workers[j]? = some x) (channel : p.channels[i]? = some ch)
      (writes : ch.writer? = some x.key) (phase : x.phase = .closing fate (i :: rest))
      (left : (x.key, Deed.left status) ∈ c.history) : Closes p c i (.step j)
  | producer (t : String) (channel : p.channels[i]? = some (.injector t))
      (held : i ∈ c.producers) : Closes p c i (.finish i)
  | unclaimed (t : String) (claimed : List String) (channel : p.channels[i]? = some (.injector t))
      (state : c.orchestrator.state = .prepared claimed) (free : t ∉ claimed) : Closes p c i .start

/-- Apart from steps, preparations and starts, only the end of a producer sets an end mark. -/
theorem done_perform {e : Event} (hprepare : e ≠ .prepare) (hstart : e ≠ .start)
    (hstep : ∀ j, e ≠ .step j) (i : Nat) : (c.perform e).shared.done i = true ↔
      c.shared.done i = true ∨ e = .finish i ∧ i ∈ c.producers := by
  have hsame : ∀ {c' : Course σ}, c'.shared.rowSets = c.shared.rowSets → (∀ j, e ≠ .finish j) →
      (c'.shared.done i = true ↔ c.shared.done i = true ∨ e = .finish i ∧ i ∈ c.producers) := by
    intro c' hrows hne
    rw [Shared.done_congr hrows]
    exact ⟨Or.inl, fun h => h.resolve_right fun h => hne i h.1⟩
  rcases e with _ | id | ⟨id, l⟩ | _ | ⟨j, e⟩ | j | _ | micros | _ | j
  case prepare => exact absurd rfl hprepare
  case start => exact absurd rfl hstart
  case step => exact absurd rfl (hstep j)
  case produce =>
    refine hsame ?_ fun _ h => by cases h
    unfold perform Orchestrator.rowProducer
    rcases c.orchestrator.state with _ | claimed | since | _ <;> dsimp only
    rcases c.orchestrator.pipeline.transform? id with _ | spec
    · rfl
    · rcases (Topology.build c.orchestrator.pipeline).injectors.lookup id with _ | j <;> rfl
  case listen =>
    refine hsame ?_ fun _ h => by cases h
    unfold perform Orchestrator.addListener
    rcases c.orchestrator.state with _ | claimed | since | _ <;> dsimp only
    split <;> rfl
  case inject =>
    have haccept := c.shared.done_accept j i e
    unfold perform Orchestrator.offer
    dsimp only
    split
    · rcases c.orchestrator.world.shared.admission j with _ | _ | _ | _ <;> dsimp only
      · show (c.shared.accept j e).done i = true ↔ _
        rw [haccept]
        exact ⟨Or.inl, fun h => h.resolve_right fun h => by cases h.1⟩
      all_goals exact hsame rfl fun _ h => by cases h
    · exact hsame rfl fun _ h => by cases h
  case finish =>
    unfold perform
    dsimp only
    split
    · rename_i hm
      show (c.shared.finish j).done i = true ↔ _
      rw [Shared.done_finish]
      refine or_congr_right ⟨?_, ?_⟩
      · rintro rfl
        exact ⟨rfl, hm⟩
      · rintro ⟨h, -⟩
        cases h
        rfl
    · rename_i hm
      refine ⟨Or.inl, fun h => h.resolve_right ?_⟩
      rintro ⟨h, hi⟩
      cases h
      exact hm hi
  case stop =>
    exact hsame (c.shared.requestStop_fixed "orchestrator").1 fun _ h => by cases h
  case pass => exact hsame rfl fun _ h => by cases h
  case receive => exact hsame rfl fun _ h => by cases h

theorem raised_of_ne {s s' : Shared} {i : Nat} {P : Prop}
    (hiff : s'.done i = true ↔ s.done i = true ∨ P) (hne : s'.done i ≠ s.done i) :
    s.done i = false ∧ P := by
  by_cases hd : s.done i = true
  · rw [hd] at hne
    exact absurd (hiff.mpr (Or.inl hd)) hne
  · rw [Bool.not_eq_true] at hd
    rw [hd, ne_eq, Bool.not_eq_false] at hne
    refine ⟨hd, (hiff.mp hne).resolve_left ?_⟩
    rw [hd]
    exact Bool.false_ne_true

theorem Prepared.closes (hp : p.WellFormed) {ts : TransformMap σ} {Q : World σ → Prop} {claimed : List String}
    (h : c.Prepared p ts Q claimed) (hs : c.orchestrator.state = .prepared claimed) {e : Event}
    (hfinished : (c.perform e).orchestrator.state ≠ .finished) {i : Nat}
    (hi : (c.perform e).shared.done i ≠ c.shared.done i) :
    c.shared.done i = false ∧ c.Closes p i e := by
  have hsame : ∀ {c' : Course σ}, c.perform e = c' → c'.shared.rowSets = c.shared.rowSets →
      c.shared.done i = false ∧ c.Closes p i e := by
    intro c' he hrows
    rw [he, Shared.done_congr hrows] at hi
    exact absurd rfl hi
  by_cases hprepare : e = .prepare
  · subst hprepare
    refine hsame rfl ?_
    simp only [Course.perform, Orchestrator.prepare]
    rw [if_pos fun h => by cases hs.symm.trans h]
  by_cases hstart : e = .start
  · subst hstart
    have hends := c.orchestrator.start_ends
    unfold Course.perform at hi hfinished
    generalize c.orchestrator.start = x at hends hi hfinished
    cases hends
    case unprepared hs' =>
      rw [hs] at hs'
      cases hs'
    case misplaced hs' => exact absurd hs (hs' claimed)
    case refused => exact absurd (Orchestrator.sameRun_abandonAll _ _).state hfinished
    case started claimed' m hs' hh =>
      rw [hs] at hs'
      cases hs'
      obtain ⟨hopen, hm⟩ := raised_of_ne (c.shared.done_finishAll _ i) hi
      obtain ⟨⟨t, j⟩, hm, he⟩ := List.mem_filterMap.mp hm
      dsimp only at he
      split at he
      · cases he
      · rename_i hfree
        cases he
        rw [show (Topology.build _).injectors = p.injectors by
          rw [Topology.build_injectors]; exact congrArg Pipeline.injectors h.pipeline] at hm
        exact ⟨hopen, .unclaimed t claimed (hp.mem_injectors.mp hm) hs hfree⟩
  by_cases hstep : ∃ j, e = .step j
  · obtain ⟨j, rfl⟩ := hstep
    have hstay : c.perform (.step j) = c := by
      unfold Course.perform stepWorker
      dsimp only
      rw [hs]
    exact hsame hstay rfl
  · obtain ⟨hopen, rfl, hm⟩ :=
      raised_of_ne (done_perform hprepare hstart (fun j hj => hstep ⟨j, hj⟩) i) hi
    obtain ⟨t, ht⟩ := h.producers i hm
    exact ⟨hopen, .producer t ht hm⟩

theorem Tended.closes (hp : p.WellFormed) (h : c.Tended p) (hr : c.Running) {e : Event} {i : Nat}
    (hi : (c.perform e).shared.done i ≠ c.shared.done i) :
    c.shared.done i = false ∧ c.Closes p i e := by
  have hsame : c.perform e = c → c.shared.done i = false ∧ c.Closes p i e := fun he => by
    rw [he] at hi
    exact absurd rfl hi
  have hrunning := hr
  obtain ⟨since, hs⟩ := hr
  by_cases hprepare : e = .prepare
  · subst hprepare
    refine hsame ?_
    simp only [Course.perform, Orchestrator.prepare]
    rw [if_pos fun h => by cases hs.symm.trans h]
  by_cases hstart : e = .start
  · subst hstart
    refine hsame ?_
    unfold Course.perform Orchestrator.start
    rw [hs]
  by_cases hstep : ∃ j, e = .step j
  · obtain ⟨j, rfl⟩ := hstep
    rcases stepWorker_spec (i := j) hrunning with ⟨-, hn⟩ | ⟨x, hx⟩
    · exact hsame hn
    · obtain ⟨hopen, hd⟩ := raised_of_ne (Shared.done_act hx.effect.rowSets i) hi
      have htends := h.tends x hx.mem
      obtain ⟨fate, rest, hphase⟩ := Worker.out_of_closed hd rfl
      obtain ⟨ch, hch, hk⟩ := (htends.rooted.written hp).mp (Worker.deed?_grounds htends.aims hd)
      rcases htends.stands with ⟨hcalls, -⟩ | ⟨-, status, hleft⟩
      · rw [hphase] at hcalls
        exact absurd hcalls id
      · exact ⟨hopen, .writer j x ch fate rest status hx.worker hch hk hphase hleft⟩
  · obtain ⟨hopen, rfl, hm⟩ :=
      raised_of_ne (done_perform hprepare hstart (fun j hj => hstep ⟨j, hj⟩) i) hi
    obtain ⟨t, ht⟩ := h.producers i hm
    exact ⟨hopen, .producer t ht hm⟩

/-- Row sets are closed by their writers only, after the last write. -/
structure WellClosed (p : Pipeline) (c : Course σ) : Prop where
  /-- No operation in the loop of calls is refused since a row set is closed. -/
  admitted : c.Running → ∀ x ∈ c.workers, x.phase.Calls →
    ∀ err, x.deed? c.shared = some (.refused err) → err.isClosed = false
  /-- Whoever writes to a row set that is closed has left the loop of calls. -/
  left : c.Running → ∀ i ch k, p.channels[i]? = some ch → ch.writer? = some k →
    c.shared.done i = true → ∃ status, (k, Deed.left status) ∈ c.history
  /-- An end mark is set by one who may, and never taken back. -/
  marks : c.orchestrator.state ≠ .idle → ∀ e, (c.perform e).orchestrator.state ≠ .finished →
    ∀ i, (c.perform e).shared.done i ≠ c.shared.done i → c.shared.done i = false ∧ c.Closes p i e

/-- **Row sets are closed only by their writers, after their last write.** In every state of every
run, as long as neither the preparation nor the start has failed: no operation of a call, and no
diversion by the runtime, is refused by a closed row set, the end mark of the row set of a hop or of
failing rows is set by the worker that writes to it when it has left the loop of calls, and that of a
row set for injected rows when its producer is finished or dropped, or by the start if nobody has
claimed it. -/
theorem closed_by_writers {registry : Registry σ} {o : Orchestrator σ} (hooks : Hooks)
    (bindings : Table String) (hnew : Orchestrator.new p registry = .ok o) (events : List Event) :
    ((begin o hooks bindings).run events).WellClosed p := by
  have hp := Pipeline.wellFormed_of_validationErrors (Orchestrator.new_ok hnew).1
  have hstage : Stage p o.transforms (World.Unspoilt p) (Tended p)
      ((begin o hooks bindings).run events) := tended hnew events
  generalize (begin o hooks bindings).run events = c at hstage
  have hrunning : c.Running → c.Tended p := by
    rintro ⟨since, hs⟩
    unfold Stage at hstage
    rwa [hs] at hstage
  refine ⟨fun hr x hx hcalls err herr => ?_, fun hr i ch k hch hk hdone => ?_,
    fun hidle e hfinished i hi => ?_⟩
  · have htends := (hrunning hr).tends x hx
    rcases htends.stands with ⟨-, hopen⟩ | ⟨hout, -⟩
    · exact Worker.not_isClosed htends.aims hopen herr
    · exact absurd hcalls (Phase.not_calls_of_isOut hout)
  · have htended := hrunning hr
    obtain ⟨x, hx, rfl⟩ := htended.crew.exists_worker
      (hp.edge_of_writer (List.mem_of_getElem? hch) hk).2
    have htends := htended.tends x hx
    rcases htends.stands with ⟨-, hopen⟩ | ⟨-, hleft⟩
    · rw [hopen i ((htends.rooted.written hp).mpr ⟨ch, hch, hk⟩)] at hdone
      cases hdone
    · exact hleft
  · rcases hs : c.orchestrator.state with _ | claimed | since | _
    · exact absurd hs hidle
    · unfold Stage at hstage
      rw [hs] at hstage
      exact hstage.closes hp hs hfinished hi
    · exact (hrunning ⟨since, hs⟩).closes hp ⟨since, hs⟩ hi
    · exact absurd (perform_finished hs e) hfinished

/-- The relay after its run: the row set of its hop is closed, since the first worker has left. -/
theorem closed_by_writers_relay : Relay.finished.shared.done 0 = true ∧
    ∃ status, (⟨"first", 0⟩, Deed.left status) ∈ Relay.finished.history :=
  ⟨by decide +kernel,
    (closed_by_writers Hooks.none .empty Relay.new_ok Relay.events).left Relay.running 0
      (.hop ⟨"first", 0⟩ "second") ⟨"first", 0⟩ (by decide +kernel) rfl (by decide +kernel)⟩

end Course

end Rowflow
