import Rowflow.Proofs.Diversion.Ceiling
import Rowflow.Proofs.Diversion.Tally

/-!
# What a run comes to

The status of a run is computed from reports: it is stopped if the stop flag is up or some worker did
not end by itself, and otherwise the errors in the reports, added up, tell whether there were any. When
all workers have reported, that sum is the number of errors that the rows in the error row sets stand
for, so the status tells whether rows have been diverted (`outcome`). But there is no status if the sum
does not fit into a word: whoever waits breaks down over it (`exists_without_result`).
-/

namespace Rowflow

variable {σ : Type} {p : Pipeline}

namespace Waiting

variable {w : Waiting σ}

/-- What the result of a run says in which all workers have reported. -/
structure Settled (p : Pipeline) (w : Waiting σ) : Prop where
  /-- The reports are those of the workers. -/
  own : ∀ s ∈ w.reports, (s.worker, Deed.sent s) ∈ w.course.history
  /-- The result has all reports. There is none only if their errors do not fit into a word. -/
  result : RunResult.Carries w.reports w.result
  /-- In a run that has not been stopped those are the errors that the rows in the error row sets stand
  for. -/
  errors : w.course.shared.stopped ≠ true → errorsIn w.reports = w.course.shared.weight p.errorSets
  stopped : ∀ r, w.result = .ok r → (r.status = .stopped ↔
    w.course.shared.stopped = true ∨ ∃ s ∈ w.reports, s.status ≠ .done)
  /-- There were errors if and only if an error row set has accepted a row. -/
  failed : ∀ r, w.result = .ok r → r.status ≠ .stopped →
    (r.status = .finishedWithErrors ↔ ∃ i ∈ p.errorSets, w.course.shared.accepted i ≠ [])
  finished : ∀ r, w.result = .ok r → r.status ≠ .stopped →
    (r.status = .finished ↔ ∀ i ∈ p.errorSets, w.course.shared.accepted i = [])

theorem Sound.mem_received (h : w.Sound p) (hall : w.vigil.collection.outstanding = [])
    {x : Worker σ} (hx : x ∈ w.course.workers) :
    w.vigil.collection.reportOf x.key ∈ w.vigil.collection.received ∧
      (w.vigil.collection.reportOf x.key).worker = x.key := by
  have hheard : x.key ∈ w.vigil.collection.received.map (·.worker) := by
    by_contra hmissed
    have hout := (h.outstanding x.key).mpr
      ⟨List.mem_map.mpr ⟨x, Array.mem_toList_iff.mpr hx, rfl⟩, hmissed⟩
    rw [hall] at hout
    cases hout
  obtain ⟨r, hr, hk⟩ := List.mem_map.mp hheard
  rw [← hk, h.reportOf_received hr]
  exact ⟨hr, rfl⟩

/-- In a run that is not stopped, and in one whose workers do not break down over diverted rows, the
reports have what the workers have counted, and that agrees with the rows in the error row sets. -/
theorem Sound.agree (h : w.Sound p) (heven : w.course.Even p)
    (hall : w.vigil.collection.outstanding = [])
    (hquiet : w.course.shared.stopped ≠ true ∨ w.course.Calm) :
    w.course.world.Even p ∧ ∀ g : Gauge,
      (w.reports.map fun r => (g.count r.counters).toNat).sum = w.course.world.tally g := by
  have hsent : ∀ x ∈ w.course.workers,
      (x.key, Deed.sent (w.vigil.collection.reportOf x.key)) ∈ w.course.history := by
    intro x hx
    obtain ⟨hr, hk⟩ := h.mem_received hall hx
    have hs := h.sent_of_received hr
    rwa [hk] at hs
  -- all workers have ended, so none of them is about to stop the run
  have hcollapsing : ¬ ∃ x ∈ w.course.workers, x.phase.Collapsing := by
    rintro ⟨x, hx, hc⟩
    have hlive : x.hasEnded = false := by
      unfold Worker.hasEnded
      generalize x.phase = phase at hc ⊢
      cases hc <;> rfl
    exact (heven.workers x hx).mails.unsent hlive _ (hsent x hx)
  refine ⟨heven.even.resolve_left fun ⟨hloud, hstop⟩ => ?_, fun g => ?_⟩
  · rcases hquiet with hstill | hcalm
    · exact hstop.elim hstill hcollapsing
    · exact hloud hcalm
  · unfold World.tally
    rw [reports_eq, List.map_map]
    congr 1
    refine List.map_congr_left fun x hx => ?_
    have hx := Array.mem_toList_iff.mp hx
    have hcounters := ((heven.workers x hx).sent _ (hsent x hx)).resolve_left fun ⟨hloud, hstop⟩ =>
      hquiet.elim (fun hstill => hstill hstop) fun hcalm => hloud (hcalm x hx)
    exact congrArg (fun counters => (g.count counters).toNat) hcounters

theorem Sound.errorsIn_reports (h : w.Sound p) (heven : w.course.Even p)
    (hall : w.vigil.collection.outstanding = [])
    (hquiet : w.course.shared.stopped ≠ true ∨ w.course.Calm) :
    errorsIn w.reports = w.course.shared.weight p.errorSets := by
  obtain ⟨hagree, hreports⟩ := h.agree heven hall hquiet
  exact (hreports .errors).trans (hagree .errors).symm

theorem Sound.settled (h : w.Sound p) (heven : w.course.Even p)
    (hall : w.vigil.collection.outstanding = []) : w.Settled p := by
  have herrors : w.course.shared.stopped ≠ true →
      errorsIn w.reports = w.course.shared.weight p.errorSets :=
    fun hstill => h.errorsIn_reports heven hall (Or.inl hstill)
  have hrows := heven.weighty.weight_eq_zero
  have hsums : ∀ r, w.result = .ok r → r.Sums w.reports w.course.shared.stopped :=
    fun _ hr => w.sums_of_result hr
  have hzero : ∀ r, w.result = .ok r → r.status ≠ .stopped →
      (errorsIn w.reports = 0 ↔ ∀ i ∈ p.errorSets, w.course.shared.accepted i = []) := by
    intro r hr hne
    rw [herrors fun hs => hne ((hsums r hr).stopped.mpr (Or.inl hs))]
    exact hrows
  refine ⟨fun s hs => ?_, w.carries_result, herrors, fun r hr => (hsums r hr).stopped,
    fun r hr hne => ?_, fun r hr hne => ((hsums r hr).finished hne).trans (hzero r hr hne)⟩
  · rw [reports_eq] at hs
    obtain ⟨x, hx, rfl⟩ := List.mem_map.mp hs
    exact h.sent_of_received (h.mem_received hall (Array.mem_toList_iff.mp hx)).1
  · refine ((hsums r hr).failed hne).trans ((not_congr (hzero r hr hne)).trans ?_)
    simp only [not_forall, exists_prop]

/-- **The status of a run.** Whatever the transforms do, and however their steps come together: when all
workers have reported, the result is that the run was stopped if and only if the stop flag is up or
some worker did not end with status `Done`, and otherwise that there were errors if and only if an error
row set has accepted a row. There is no result only if the errors do not fit into a word. -/
theorem outcome [Transform σ] {registry : Registry σ} {o : Orchestrator σ} (hooks : Hooks)
    (bindings : Table String) (hnew : Orchestrator.new p registry = .ok o) {events : List Event}
    (hfirst : ∀ e ∈ events, e ≠ .receive)
    (hr : ((Course.begin o hooks bindings).run events).Running) {moves : List Move}
    (hall : ((begin ((Course.begin o hooks bindings).run events)).run
      moves).vigil.collection.outstanding = []) :
    ((begin ((Course.begin o hooks bindings).run events)).run moves).Settled p := by
  have hp := Pipeline.wellFormed_of_validationErrors (Orchestrator.new_ok hnew).1
  have heven := of_waiting hnew (World.Tallied.early hp o.transforms)
    (fun c _ hl hw => hl.even hp hw) (fun c c' d h hc => h.even hc)
    (fun c c' i x h hc => h.even hp hc) events hr moves
  exact (sound hnew hfirst hr moves).settled heven hall

/-! ### Two halves -/

namespace Halves

/-- Two scripted transforms that handle errors without a maximum, and one that takes the failing
rows. -/
def pipeline : Pipeline where
  transforms := [
    { id := "a", type := "script", errorHandling := some { target := "r" } },
    { id := "b", type := "script", errorHandling := some { target := "r" } },
    { id := "r", type := "dummy" }]

/-- Each of them diverts a row, for half as many errors as make a word overflow. -/
def scripts : Table Script :=
  .ofList [("a", Course.Diverting.script [9223372036854775808]),
    ("b", Course.Diverting.script [9223372036854775808])]

/-- The run of the transforms. -/
def orchestrator : Orchestrator (Builtin ⊕ Scripted) where
  pipeline := pipeline
  transforms := ((Registry.withScripts scripts).resolve pipeline).toOption.getD .empty
  world := { shared := { pipeline := pipeline.name, poll := 50000 } }
  built := .ofList (pipeline.ids.map (·, 1))

theorem new_ok : Orchestrator.new pipeline (.withScripts scripts) = .ok orchestrator := rfl

/-- The run when its workers have been started. -/
def started : Course (Builtin ⊕ Scripted) :=
  (Course.begin orchestrator Hooks.none .empty).run Failing.events

theorem running : started.Running := ⟨_, rfl⟩

/-- The workers of the given positions come to their ends, and then the reports are received. -/
def moves (workers : List Nat) : List Move :=
  workers.flatMap (fun i => List.replicate 48 (.happens (.step i))) ++ List.replicate 10 .watch

/-- The end of the run. -/
def waiting : Waiting (Builtin ⊕ Scripted) := (begin started).run (moves [0, 1, 2])

theorem ended : waiting.vigil.watch = .ended ∧ waiting.vigil.collection.outstanding = [] :=
  ⟨by decide +kernel, by decide +kernel⟩

theorem heavy : 2 ^ 64 ≤ errorsIn waiting.reports := by decide +kernel

end Halves

/-- All workers of the run report that they are done, and there is no result. -/
theorem outcome_halves : Halves.waiting.Settled Halves.pipeline ∧
    (∀ s ∈ Halves.waiting.reports, s.status = .done) ∧
    Halves.waiting.course.shared.weight Halves.pipeline.errorSets = 2 ^ 64 :=
  ⟨outcome Hooks.none .empty Halves.new_ok Failing.unreceived Halves.running (by decide +kernel),
    by decide +kernel, by decide +kernel⟩

/-- It is not so that every run in which all workers report that they are done, and which is not stopped,
has a result that tells whether an error row set has accepted a row. -/
theorem exists_without_result : ¬ ∀ (p : Pipeline) (scripts : Table Script)
    (o : Orchestrator (Builtin ⊕ Scripted)) (hooks : Hooks) (bindings : Table String)
    (events : List Event) (moves : List Move) (w : Waiting (Builtin ⊕ Scripted)),
    Orchestrator.new p (.withScripts scripts) = .ok o → (∀ e ∈ events, e ≠ .receive) →
    ((Course.begin o hooks bindings).run events).Running →
    w = (begin ((Course.begin o hooks bindings).run events)).run moves →
    w.vigil.watch = .ended → w.vigil.collection.outstanding = [] →
    w.course.shared.stopped = false → (∀ s ∈ w.reports, s.status = .done) →
    ∃ r, w.result = .ok r ∧
      (r.status = .finishedWithErrors ↔ ∃ i ∈ p.errorSets, w.course.shared.accepted i ≠ []) := by
  intro h
  obtain ⟨r, hr, -⟩ := h _ _ _ Hooks.none .empty _ _ Halves.waiting Halves.new_ok Failing.unreceived
    Halves.running rfl Halves.ended.1 Halves.ended.2 (by decide +kernel) (by decide +kernel)
  have hcarries := hr ▸ Halves.waiting.carries_result
  cases hcarries
  case fits hlt _ => exact absurd hlt (Nat.not_lt.mpr Halves.heavy)

end Waiting

end Rowflow
