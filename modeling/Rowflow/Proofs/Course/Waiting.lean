import Rowflow.Proofs.Course.Reports
import Rowflow.Transform.Scripted

/-!
# Waiting for the reports

While somebody waits for a run, its workers go on, and so does everything else. A `Waiting` is a run
with the vigil of whoever waits for it, and a move is a step of the vigil or something else that
happens. So the lists of moves are all the ways in which reports, stop and clock can come together.

What has been sent has been received or is in the queue (`Waiting.Sound`). When the vigil is over, the
result has what has been received, and nothing else: `reports_kept` says this of every report and
`exists_lost` that a report in the queue is lost when the deadline comes first.
-/

namespace Rowflow

variable {σ : Type}

/-! ### The vigil -/

/-- What a step of a vigil can do. -/
inductive Vigil.Steps (s : Shared) (v : Vigil) : Shared → Vigil → Prop where
  /-- Nothing is received. -/
  | onward (c' : Collection) (watch' : Watch) (outstanding : c'.outstanding = v.collection.outstanding)
      (received : c'.received = v.collection.received)
      (deadline : c'.deadline = v.collection.deadline ∨ s.stopped = true)
      (ended : watch' = .ended → (v.watch = .ended ∧ c' = v.collection) ∨
        (c'.outstanding = [] ∨ ∃ d, c'.deadline = some d ∧ d ≤ s.clock)) :
      Steps s v s ⟨c', watch'⟩
  /-- The oldest report is received. -/
  | received (r : Summary) (rest : List Summary) (found : s.reports = r :: rest) :
      Steps s v { s with reports := rest } ⟨v.collection.receive r, .looking⟩

/-- **A step of a vigil.** -/
theorem Vigil.step_spec (timeout : Nat) (s : Shared) (v : Vigil) :
    Steps s v (v.step timeout s).1 (v.step timeout s).2 := by
  obtain ⟨c, watch⟩ := v
  have hstay : ∀ {watch'}, watch' ≠ .ended → Steps s ⟨c, watch⟩ s ⟨c, watch'⟩ := fun hne =>
    .onward c _ rfl rfl (Or.inl rfl) fun hended => absurd hended hne
  unfold step
  rcases watch with _ | _ | limit | _ <;> dsimp only
  case looking =>
    split
    · rename_i hempty
      exact .onward c _ rfl rfl (Or.inl rfl) fun _ => Or.inr (Or.inl (List.isEmpty_iff.mp hempty))
    · unfold Collection.look
      split
      · split
        · rename_i hs
          exact .onward _ _ rfl rfl (Or.inr hs) fun hended => by cases hended
        · exact hstay fun hended => by cases hended
      · exact hstay fun hended => by cases hended
  case deciding =>
    unfold Collection.decide
    rcases hd : c.deadline with _ | d
    · exact hstay fun hended => by cases hended
    · dsimp only
      by_cases hle : d ≤ s.clock
      · rw [if_pos hle]
        exact .onward c _ rfl rfl (Or.inl rfl) fun _ => Or.inr (Or.inr ⟨d, hd, hle⟩)
      · rw [if_neg hle]
        exact hstay fun hended => by cases hended
  case receiving =>
    rcases hq : s.reports with _ | ⟨r, rest⟩
    · refine hstay fun hended => ?_
      split at hended <;> cases hended
    · exact .received r rest hq
  case ended => exact .onward c _ rfl rfl (Or.inl rfl) fun _ => Or.inl ⟨rfl, rfl⟩

namespace Orchestrator

variable [Transform σ] {P : World σ → Prop}

/-- What is kept as long as workers and episodes are the same, and by steps of workers, is kept by
whoever collects reports; and nothing else changes. -/
theorem collect_induction
    (keep : ∀ w w' : World σ, w'.workers = w.workers → w'.shared.episodes = w.shared.episodes →
      P w → P w') (step : ∀ w i, P w → P (w.step i)) (fuel : Nat) (o : Orchestrator σ) (v : Vigil)
    (h : P o.world) : ∃ w, P w ∧ (collect fuel o v).1 = { o with world := w } := by
  induction fuel generalizing o v with
  | zero => exact ⟨o.world, h, rfl⟩
  | succ fuel ih =>
    have hattend : ∀ o : Orchestrator σ, P o.world →
        ∃ w, P w ∧ (collect fuel (o.attend v).1 (o.attend v).2).1 = { o with world := w } := by
      intro o h
      refine ih (o.attend v).1 _ (keep o.world _ rfl ?_ h)
      have hstep := Vigil.step_spec (o.pipeline.engine.shutdownTimeout * 1000) o.world.shared v
      show (v.step (o.pipeline.engine.shutdownTimeout * 1000) o.world.shared).1.episodes = _
      generalize (v.step _ o.world.shared).1 = s' at hstep ⊢
      generalize (v.step _ o.world.shared).2 = v' at hstep
      cases hstep <;> rfl
    unfold collect
    rcases v.watch with _ | _ | limit | _ <;> dsimp only
    · exact hattend o h
    · exact hattend o h
    · refine hattend (o.runUntil _ (some limit)) (World.runUntil_induction (fun w w' ht hw => ?_)
        step _ (some limit) o.stamina h)
      obtain ⟨hworkers, ⟨stopped, clock, hshared⟩, -⟩ := ht
      exact keep w w' hworkers (by rw [hshared]) hw
    · exact ⟨o.world, h, rfl⟩

omit [Transform σ] in
theorem say_all {α : Type} (m : α → Log.Message) (l : List α) (o : Orchestrator σ) :
    ∃ s, s.episodes = o.world.shared.episodes ∧
      l.foldl (fun o a => o.say (m a)) o = { o with world := { o.world with shared := s } } := by
  induction l generalizing o with
  | nil => exact ⟨o.world.shared, rfl, rfl⟩
  | cons a rest ih =>
    obtain ⟨s, hs, heq⟩ := ih (o.say (m a))
    exact ⟨s, hs, heq⟩

end Orchestrator

/-- A run with the vigil of whoever waits for it. -/
structure Waiting (σ : Type) where
  course : Course σ
  vigil : Vigil

namespace Waiting

/-- What may happen while somebody waits. -/
inductive Move where
  /-- A step of the vigil. -/
  | watch
  /-- Something else. -/
  | happens (e : Event)

/-- The beginning of a vigil. -/
def begin (c : Course σ) : Waiting σ := ⟨c, c.orchestrator.vigil⟩

/-- What a move does. Reports go to whoever waits and to nobody else. -/
def perform [Transform σ] (w : Waiting σ) : Move → Waiting σ
  | .watch =>
    let (o, v) := w.course.orchestrator.attend w.vigil
    ⟨{ w.course with orchestrator := o }, v⟩
  | .happens .receive => w
  | .happens e => { w with course := w.course.perform e }

/-- What a list of moves does. -/
def run [Transform σ] (w : Waiting σ) (moves : List Move) : Waiting σ := moves.foldl perform w

/-- What is known of every worker, in the order of the workers. -/
def reports (w : Waiting σ) : List Summary := w.course.orchestrator.reportsOf w.vigil.collection

/-- What the run comes to. -/
def result (w : Waiting σ) : Except Panic RunResult :=
  w.course.orchestrator.resultOf w.vigil.collection

/-- What holds while somebody waits: what has been sent has been received or is in the queue, and
reports are given up when the deadline, set by a stop, has passed. -/
structure Sound (p : Pipeline) (w : Waiting σ) : Prop where
  running : w.course.Running
  crew : w.course.Crew p
  mailed : w.course.Mailed
  all : w.vigil.collection.received.reverse ++ w.course.shared.reports =
    Course.posted w.course.history
  outstanding : ∀ k, k ∈ w.vigil.collection.outstanding ↔
    k ∈ w.course.workers.toList.map Worker.key ∧
      k ∉ w.vigil.collection.received.map (·.worker)
  deadline : ∀ d, w.vigil.collection.deadline = some d → w.course.shared.stopped = true
  ended : w.vigil.watch = .ended → w.vigil.collection.outstanding = [] ∨
    ∃ d, w.vigil.collection.deadline = some d ∧ d ≤ w.course.shared.clock

variable {p : Pipeline} {w : Waiting σ}

theorem Sound.begin {c : Course σ} (hr : c.Running) (hc : c.Crew p) (hm : c.Mailed)
    (hq : c.shared.reports = Course.posted c.history) : (begin c).Sound p where
  running := hr
  crew := hc
  mailed := hm
  all := hq
  outstanding k := by simp [Waiting.begin, Orchestrator.vigil, Course.workers, Course.world]
  deadline d hd := by cases hd
  ended h := by cases h

section Moves

variable [Transform σ]

/-- As far as the run is concerned, a step of the vigil is something from outside. -/
theorem outside_watch (w : Waiting σ) : w.course.Outside (w.perform .watch).course none := by
  have hstep := Vigil.step_spec (w.course.orchestrator.pipeline.engine.shutdownTimeout * 1000)
    w.course.shared w.vigil
  show w.course.Outside (w.course.setShared (w.vigil.step _ w.course.shared).1) none
  generalize (w.vigil.step _ w.course.shared).1 = s' at hstep ⊢
  generalize (w.vigil.step _ w.course.shared).2 = v' at hstep
  cases hstep <;>
    exact ⟨rfl, rfl, rfl, id, rfl, Nat.le_refl _, fun _ h => (by cases h), fun _ => Or.inl, fun _ => id⟩

theorem perform_happens (w : Waiting σ) {e : Event} (he : e ≠ .receive) :
    w.perform (.happens e) = { w with course := w.course.perform e } := by
  cases e
  case receive => exact absurd rfl he
  all_goals rfl

theorem perform_course (hr : w.course.Running) (move : Move) :
    (w.perform move).course.Running ∧
      ((∃ i x, w.course.Stepped (w.perform move).course i x) ∨
        ∃ d, w.course.Outside (w.perform move).course d) := by
  cases move with
  | watch => exact ⟨hr, Or.inr ⟨none, w.outside_watch⟩⟩
  | happens e =>
    by_cases he : e = .receive
    · subst he
      exact ⟨hr, Or.inr ⟨none, rfl, rfl, rfl, id, rfl, Nat.le_refl _, fun _ h => (by cases h),
        fun _ => Or.inl, fun _ => id⟩⟩
    · obtain ⟨hr', hstep⟩ := Course.perform_running hr e
      rw [w.perform_happens he]
      exact ⟨hr', hstep.imp (fun ⟨i, x, hx, _⟩ => ⟨i, x, hx⟩) fun ⟨d, ho, _⟩ => ⟨d, ho⟩⟩

/-- **Induction over a run that is waited for.** -/
theorem of_waiting {registry : Registry σ} {o : Orchestrator σ} {hooks : Hooks}
    {bindings : Table String} (hnew : Orchestrator.new p registry = .ok o)
    {Q : World σ → Prop} (hQ : Early p o.transforms Q) {P : Course σ → Prop}
    (start : ∀ c : Course σ, c.Running → c.Launched p → Q c.world → P c)
    (outside : ∀ (c c' : Course σ) (d : Option Deed), c.Outside c' d → P c → P c')
    (step : ∀ (c c' : Course σ) (i : Nat) (x : Worker σ), c.Stepped c' i x → P c → P c')
    (events : List Event) (hr : ((Course.begin o hooks bindings).run events).Running)
    (moves : List Move) :
    P ((begin ((Course.begin o hooks bindings).run events)).run moves).course := by
  have hbegin := Course.of_running hnew hQ start outside step events hr
  suffices h : ∀ w : Waiting σ, w.course.Running → P w.course → P (w.run moves).course from
    h _ hr hbegin
  unfold run
  induction moves with
  | nil => exact fun w _ hw => hw
  | cons move rest ih =>
    intro w hr hw
    obtain ⟨hr', ⟨i, x, h⟩ | ⟨d, h⟩⟩ := perform_course hr move
    · exact ih _ hr' (step _ _ i x h hw)
    · exact ih _ hr' (outside _ _ d h hw)

theorem Sound.watch (h : w.Sound p) : (w.perform .watch).Sound p := by
  have hmove : w.perform .watch =
      ⟨w.course.setShared
        (w.vigil.step (w.course.orchestrator.pipeline.engine.shutdownTimeout * 1000)
          w.course.shared).1,
        (w.vigil.step (w.course.orchestrator.pipeline.engine.shutdownTimeout * 1000)
          w.course.shared).2⟩ := rfl
  have hstep := Vigil.step_spec (w.course.orchestrator.pipeline.engine.shutdownTimeout * 1000)
    w.course.shared w.vigil
  rw [hmove]
  generalize (w.vigil.step _ w.course.shared).1 = s' at hstep ⊢
  generalize (w.vigil.step _ w.course.shared).2 = v' at hstep ⊢
  cases hstep
  case onward c' watch' outstanding received deadline ended =>
    refine ⟨h.running, h.crew.of_keys rfl, h.mailed.congr rfl rfl, ?_, ?_, fun d hd => ?_,
      fun hended => ?_⟩
    · dsimp only
      rw [received]
      exact h.all
    · dsimp only
      rw [outstanding, received]
      exact h.outstanding
    · rcases deadline with hsame | hs
      · exact h.deadline d (hsame.symm.trans hd)
      · exact hs
    · rcases ended hended with ⟨hbefore, rfl⟩ | hnow
      · exact h.ended hbefore
      · exact hnow
  case received r rest found =>
    refine ⟨h.running, h.crew.of_keys rfl, h.mailed.congr rfl rfl, ?_, fun k => ?_, h.deadline,
      fun hended => by cases hended⟩
    · show (r :: w.vigil.collection.received).reverse ++ rest = Course.posted w.course.history
      rw [← h.all, found, List.reverse_cons, List.append_assoc, List.singleton_append]
    · show k ∈ w.vigil.collection.outstanding.filter _ ↔
        _ ∧ k ∉ (r :: w.vigil.collection.received).map _
      rw [List.mem_filter, h.outstanding, List.map_cons, List.mem_cons, not_or, decide_eq_true_iff]
      tauto

omit [Transform σ] in
theorem Sound.goesOn (h : w.Sound p) {c' : Course σ} (hr : c'.Running) (hc : c'.Crew p)
    (hm : c'.Mailed)
    (hkeys : c'.workers.toList.map Worker.key = w.course.workers.toList.map Worker.key)
    (hstop : w.course.shared.stopped = true → c'.shared.stopped = true)
    (hclock : w.course.shared.clock ≤ c'.shared.clock)
    (hall : w.vigil.collection.received.reverse ++ c'.shared.reports = Course.posted c'.history) :
    Sound p { w with course := c' } := by
  refine ⟨hr, hc, hm, hall, ?_, fun d hd => hstop (h.deadline d hd), fun hended => ?_⟩
  · dsimp only
    rw [hkeys]
    exact h.outstanding
  · exact (h.ended hended).imp_right fun ⟨d, hd, hle⟩ => ⟨d, hd, Nat.le_trans hle hclock⟩

theorem Sound.happens (h : w.Sound p) (e : Event) : (w.perform (.happens e)).Sound p := by
  by_cases he : e = .receive
  · subst he
    exact h
  · rw [w.perform_happens he]
    obtain ⟨hr, ⟨i, x, hx, -⟩ | ⟨d, ho, hsame, -⟩⟩ := Course.perform_running h.running e
    · refine h.goesOn hr (hx.crew h.crew) (hx.mailed h.crew h.mailed) hx.keys hx.effect.stopped
        (Nat.le_of_eq hx.effect.clock.symm) ?_
      -- what the worker sends is behind all other reports
      rw [hx.effect.reports, hx.history, Course.posted_grow, ← h.all]
      rcases x.deed? w.course.shared with _ | d
      · rfl
      · cases d
        case sent => exact (List.append_assoc _ _ _).symm
        all_goals rfl
    · refine h.goesOn hr (ho.crew h.crew) (h.mailed.congr ho.workers ho.history) (by rw [ho.workers])
        ho.stopped ho.clock ?_
      rw [hsame he, ho.history]
      exact h.all

theorem Sound.run (h : w.Sound p) (moves : List Move) : (w.run moves).Sound p := by
  unfold Waiting.run
  induction moves generalizing w with
  | nil => exact h
  | cons move rest ih =>
    cases move with
    | watch => exact ih h.watch
    | happens e => exact ih (h.happens e)

theorem sound {registry : Registry σ} {o : Orchestrator σ} {hooks : Hooks}
    {bindings : Table String} (hnew : Orchestrator.new p registry = .ok o) {events : List Event}
    (hfirst : ∀ e ∈ events, e ≠ .receive)
    (hr : ((Course.begin o hooks bindings).run events).Running) (moves : List Move) :
    ((begin ((Course.begin o hooks bindings).run events)).run moves).Sound p := by
  obtain ⟨hc, hm⟩ := Course.mailed hnew events hr
  exact (Sound.begin hr hc hm (Course.reports_eq_posted hnew hfirst hr)).run moves

end Moves

/-! ### The result -/

theorem worker_reportOf (c : Collection) (k : WorkerKey) : (c.reportOf k).worker = k := by
  unfold Collection.reportOf
  rcases hr : c.received.find? (·.worker = k) with _ | r <;> rw [hr]
  · rfl
  · simpa using List.find?_some hr

theorem reports_eq (w : Waiting σ) :
    w.reports = w.course.workers.toList.map (w.vigil.collection.reportOf ·.key) := rfl

theorem carries_result (w : Waiting σ) : RunResult.Carries w.reports w.result :=
  RunResult.carries_ofReports w.course.orchestrator.pipeline.name w.reports w.course.shared.stopped

theorem sums_of_result (w : Waiting σ) {r : RunResult} (hr : w.result = .ok r) :
    r.Sums w.reports w.course.shared.stopped := by
  rcases RunResult.ofReports_cases w.course.orchestrator.pipeline.name w.reports
    w.course.shared.stopped with ⟨r', hr', hsums⟩ | ⟨-, hnone⟩
  · cases hr.symm.trans hr'
    exact hsums
  · cases hr.symm.trans hnone

/-- What the result says of a worker that has been heard of. -/
theorem Sound.reportOf_received (h : w.Sound p) {r : Summary}
    (hr : r ∈ w.vigil.collection.received) : w.vigil.collection.reportOf r.worker = r := by
  have hnodup : (w.vigil.collection.received.map (·.worker)).Nodup := by
    have := h.mailed.nodup
    rw [← h.all, List.map_append, List.map_reverse] at this
    exact List.nodup_reverse.mp (List.nodup_append.mp this).1
  have hfind : w.vigil.collection.received.find? (·.worker = r.worker) = some r := by
    generalize w.vigil.collection.received = l at hr hnodup
    induction l with
    | nil => cases hr
    | cons x rest ih =>
      rw [List.map_cons, List.nodup_cons] at hnodup
      rcases List.mem_cons.mp hr with rfl | hr
      · exact List.find?_cons_of_pos (by simp)
      · rw [List.find?_cons_of_neg, ih hr hnodup.2]
        intro heq
        exact hnodup.1 (List.mem_map.mpr ⟨r, hr, (by simpa using heq : x.worker = r.worker).symm⟩)
  unfold Collection.reportOf
  rw [hfind]
  rfl

theorem reportOf_missing {c : Collection} {k : WorkerKey} (h : k ∉ c.received.map (·.worker)) :
    c.reportOf k = .abandoned k := by
  unfold Collection.reportOf
  rw [List.find?_eq_none.mpr fun r hr heq => h (List.mem_map.mpr ⟨r, hr, by simpa using heq⟩)]
  rfl

/-- What the result of a vigil says that is over: one report for every worker, namely what has been
received from it, and that it has been given up if nothing has been received. -/
structure Kept (w : Waiting σ) : Prop where
  /-- The result has all reports; there is none if their errors do not fit into a word. -/
  result : RunResult.Carries w.reports w.result
  /-- Every worker has one report. -/
  workers : w.reports.map (·.worker) = w.course.workers.toList.map Worker.key
  /-- A report that has been sent and is no longer in the queue is there unchanged. -/
  kept : ∀ k summary, (k, Deed.sent summary) ∈ w.course.history →
    summary ∉ w.course.shared.reports → summary ∈ w.reports
  /-- All others stand for workers that have sent nothing but what is still in the queue. -/
  others : ∀ r ∈ w.reports,
    ((r.worker, Deed.sent r) ∈ w.course.history ∧ r ∉ w.course.shared.reports) ∨
    (r = .abandoned r.worker ∧ ∀ summary, (r.worker, Deed.sent summary) ∈ w.course.history →
      summary ∈ w.course.shared.reports)
  /-- Reports are left in the queue only when the deadline, set by a stop, has passed. -/
  late : w.course.shared.reports ≠ [] → w.course.shared.stopped = true ∧
    ∃ d, w.vigil.collection.deadline = some d ∧ d ≤ w.course.shared.clock

theorem Sound.apart (h : w.Sound p) {r r' : Summary} (hr : r ∈ w.vigil.collection.received)
    (hr' : r' ∈ w.course.shared.reports) : r.worker ≠ r'.worker := by
  have hnodup := h.mailed.nodup
  rw [← h.all, List.map_append] at hnodup
  exact (List.nodup_append.mp hnodup).2.2 _
    (List.mem_map.mpr ⟨r, List.mem_reverse.mpr hr, rfl⟩) _ (List.mem_map.mpr ⟨r', hr', rfl⟩)

/-- What has been sent has been received or is in the queue. -/
theorem Sound.mem_of_sent (h : w.Sound p) {k : WorkerKey} {summary : Summary}
    (hs : (k, Deed.sent summary) ∈ w.course.history) :
    summary ∈ w.vigil.collection.received ∨ summary ∈ w.course.shared.reports := by
  have hm := Course.mem_posted.mpr ⟨k, hs⟩
  rw [← h.all, List.mem_append, List.mem_reverse] at hm
  exact hm

theorem Sound.sent_of_received (h : w.Sound p) {r : Summary}
    (hr : r ∈ w.vigil.collection.received) : (r.worker, Deed.sent r) ∈ w.course.history := by
  have hm : r ∈ Course.posted w.course.history := by
    rw [← h.all]
    exact List.mem_append_left _ (List.mem_reverse.mpr hr)
  obtain ⟨k, hs⟩ := Course.mem_posted.mp hm
  rwa [(h.mailed.own k r hs).1]

theorem Sound.kept (h : w.Sound p) (hended : w.vigil.watch = .ended) : w.Kept where
  result := w.carries_result
  workers := by
    rw [reports_eq, List.map_map]
    exact List.map_congr_left fun x _ => worker_reportOf w.vigil.collection x.key
  kept k summary hs hq := by
    have hr := (h.mem_of_sent hs).resolve_right hq
    obtain ⟨hown, hk⟩ := h.mailed.own k summary hs
    obtain ⟨x, hx, hxk⟩ := List.mem_map.mp hk
    rw [reports_eq]
    refine List.mem_map.mpr ⟨x, hx, ?_⟩
    rw [hxk, ← hown, h.reportOf_received hr]
  others r hr := by
    rw [reports_eq] at hr
    obtain ⟨x, -, rfl⟩ := List.mem_map.mp hr
    by_cases hx : x.key ∈ w.vigil.collection.received.map (·.worker)
    · obtain ⟨r, hr, hk⟩ := List.mem_map.mp hx
      rw [← hk, h.reportOf_received hr]
      exact Or.inl ⟨h.sent_of_received hr, fun hq => h.apart hr hq rfl⟩
    · rw [reportOf_missing hx]
      refine Or.inr ⟨rfl, fun summary hs => (h.mem_of_sent hs).resolve_left fun hr => hx ?_⟩
      exact List.mem_map.mpr ⟨summary, hr, (h.mailed.own _ _ hs).1⟩
  late hq := by
    obtain ⟨r, hr⟩ := List.exists_mem_of_ne_nil _ hq
    have hm : r ∈ Course.posted w.course.history := by
      rw [← h.all]
      exact List.mem_append_right _ hr
    obtain ⟨k, hs⟩ := Course.mem_posted.mp hm
    obtain ⟨hown, hk⟩ := h.mailed.own k r hs
    -- the worker whose report is in the queue is still missed
    have hmissed : r.worker ∈ w.vigil.collection.outstanding := by
      refine (h.outstanding _).mpr ⟨hown ▸ hk, fun hx => ?_⟩
      obtain ⟨r', hr', he⟩ := List.mem_map.mp hx
      exact h.apart hr' hr he
    rcases h.ended hended with hnone | ⟨d, hd, hle⟩
    · rw [hnone] at hmissed
      cases hmissed
    · exact ⟨h.deadline d hd, d, hd, hle⟩

/-- **What has been received is kept.** Whoever waits for a run, and however reports, stops and time
come together: when the vigil is over, every report that has been sent is in the result unchanged, but
for those that are still in the queue, and only workers without a report, or with one in the queue,
are given up. -/
theorem reports_kept [Transform σ] {registry : Registry σ} {o : Orchestrator σ} (hooks : Hooks)
    (bindings : Table String) (hnew : Orchestrator.new p registry = .ok o) {events : List Event}
    (hfirst : ∀ e ∈ events, e ≠ .receive)
    (hr : ((Course.begin o hooks bindings).run events).Running) {moves : List Move}
    (hended : ((begin ((Course.begin o hooks bindings).run events)).run moves).vigil.watch = .ended) :
    ((begin ((Course.begin o hooks bindings).run events)).run moves).Kept :=
  (sound hnew hfirst hr moves).kept hended

/-! ### A worker that fails -/

namespace Failing

/-- Two scripted transforms, and no time to wait for their ends. -/
def pipeline : Pipeline where
  engine := { shutdownMillis := some 0 }
  transforms := [{ id := "a", type := "script" }, { id := "b", type := "script" }]

/-- The first transform fails, the second one has nothing to do. -/
def scripts : Table Script := .ofList [("a", { calls := [[.fail (.fatal "boom")]] })]

/-- The run of the two. -/
def orchestrator : Orchestrator (Builtin ⊕ Scripted) where
  pipeline := pipeline
  transforms := ((Registry.withScripts scripts).resolve pipeline).toOption.getD .empty
  world := { shared := { pipeline := pipeline.name, poll := 50000 } }
  built := .ofList (pipeline.ids.map (·, 1))

theorem new_ok : Orchestrator.new pipeline (.withScripts scripts) = .ok orchestrator := rfl

/-- Its workers are started. -/
def events : List Event := [.prepare, .start]

theorem unreceived : ∀ e ∈ events, e ≠ .receive := by
  intro e he
  simp only [events, List.mem_cons, List.not_mem_nil, or_false] at he
  rcases he with rfl | rfl <;> exact fun h => by cases h

/-- The run when its workers have been started. -/
def started : Course (Builtin ⊕ Scripted) :=
  (Course.begin orchestrator Hooks.none .empty).run events

theorem running : started.Running := ⟨_, rfl⟩

/-- The first worker fails and reports, which stops the run, before anybody looks. -/
def moves : List Move := List.replicate 15 (.happens (.step 0)) ++ [.watch, .watch]

/-- The end of the vigil. -/
def waiting : Waiting (Builtin ⊕ Scripted) := (begin started).run moves

theorem ended : waiting.vigil.watch = .ended := by decide +kernel

/-- What the first worker reports. -/
def report : Summary := { worker := ⟨"a", 0⟩, status := .errored, error := some "boom" }

end Failing

/-- The report of the first worker is in the queue when it is given up. -/
theorem reports_kept_failing : Failing.waiting.Kept ∧
    Failing.waiting.course.shared.reports = [Failing.report] ∧
    .abandoned ⟨"a", 0⟩ ∈ Failing.waiting.reports :=
  ⟨reports_kept Hooks.none .empty Failing.new_ok Failing.unreceived Failing.running Failing.ended,
    by decide +kernel, by decide +kernel⟩

/-- It is not so that every report that has been sent is in the result. -/
theorem exists_lost : ¬ ∀ (p : Pipeline) (scripts : Table Script)
    (o : Orchestrator (Builtin ⊕ Scripted)) (hooks : Hooks) (bindings : Table String)
    (events : List Event) (moves : List Move) (k : WorkerKey) (summary : Summary) (r : RunResult),
    Orchestrator.new p (.withScripts scripts) = .ok o → (∀ e ∈ events, e ≠ .receive) →
    ((Course.begin o hooks bindings).run events).Running →
    ((begin ((Course.begin o hooks bindings).run events)).run moves).vigil.watch = .ended →
    (k, Deed.sent summary) ∈
      ((begin ((Course.begin o hooks bindings).run events)).run moves).course.history →
    ((begin ((Course.begin o hooks bindings).run events)).run moves).result = .ok r →
    summary ∈ r.reports := by
  intro h
  have hlost : Failing.report ∉ Failing.waiting.reports := by decide +kernel
  have hfits : errorsIn Failing.waiting.reports < 2 ^ 64 := by decide +kernel
  have hsent : (⟨"a", 0⟩, Deed.sent Failing.report) ∈ Failing.waiting.course.history := by
    decide +kernel
  obtain ⟨r, hr, hreports⟩ := Failing.waiting.carries_result.exists_ok hfits
  refine hlost ?_
  rw [← hreports]
  exact h _ _ _ Hooks.none .empty _ _ _ _ r Failing.new_ok Failing.unreceived Failing.running
    Failing.ended hsent hr

end Waiting

end Rowflow
