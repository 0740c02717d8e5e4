import Rowflow.Proofs.Course.Waiting

/-!
# The order of a result

The entries of a result stand in the order in which the workers were made: by the topological order of
their transforms, then by their copies (`Waiting.result_order`). This is the order of declaration only
if the transforms are declared in topological order (`Pipeline.Lists.declared`), and
`Waiting.exists_undeclared` is a run in which they are not.
-/

namespace Rowflow

variable {σ : Type}

/-! ### What keeps the workers -/

namespace Orchestrator

variable [Transform σ]

theorem keys_collect (fuel : Nat) (o : Orchestrator σ) (v : Vigil) :
    (collect fuel o v).1.keys = o.keys := by
  have hkeep : ∀ w w' : World σ, w'.workers = w.workers →
      w'.shared.episodes = w.shared.episodes → w.workers.toList.map Worker.key = o.keys →
      w'.workers.toList.map Worker.key = o.keys := by
    intro w w' hworkers _ hw
    rwa [hworkers]
  obtain ⟨w, hw, heq⟩ :=
    collect_induction hkeep (fun w i hw => (w.keys_step i).trans hw) fuel o v rfl
  rw [heq]
  exact hw

omit [Transform σ] in
theorem keys_say_all {α : Type} (m : α → Log.Message) (l : List α) (o : Orchestrator σ) :
    (l.foldl (fun o a => o.say (m a)) o).keys = o.keys := by
  obtain ⟨s, -, heq⟩ := say_all m l o
  rw [heq]
  rfl

omit [Transform σ] in
theorem workers_reportsOf (o : Orchestrator σ) (c : Collection) :
    (o.reportsOf c).map (·.worker) = o.keys := by
  show (o.world.workers.toList.map (c.reportOf ·.key)).map (·.worker) = _
  rw [List.map_map]
  exact List.map_congr_left fun x _ => Waiting.worker_reportOf c x.key

/-- Whoever waits for a run that has been started gets a result with one entry for each worker, unless
the errors of all workers do not fit into a word. -/
theorem wait_running {o : Orchestrator σ} {since : Nat} (h : o.state = .running since) :
    ∃ reports result, RunResult.Carries reports result ∧ reports.map (·.worker) = o.keys ∧
      o.wait.2 = result.map .ok := by
  unfold wait
  rw [h]
  dsimp only
  rcases hc : collect patience { o with state := .finished } o.vigil with ⟨o₁, c⟩
  have hkeys : o₁.keys = o.keys := by
    have hcollected := keys_collect patience { o with state := .finished } o.vigil
    rwa [hc] at hcollected
  dsimp only
  have hsaid : ∀ o₂ : Orchestrator σ, o₂.keys = o₁.keys →
      (o₂.reportsOf c).map (·.worker) = o.keys := fun o₂ h₂ =>
    (workers_reportsOf o₂ c).trans (h₂.trans hkeys)
  generalize ho₂ : c.missing.foldl _ o₁ = o₂
  have hreports := hsaid o₂ (ho₂ ▸ keys_say_all _ _ _)
  refine ⟨o₂.reportsOf c, o₂.resultOf c, RunResult.carries_ofReports _ _ _, hreports, ?_⟩
  rcases RunResult.ofReports_cases o₂.pipeline.name (o₂.reportsOf c) o₂.world.shared.stopped with
    ⟨r, hr, hsums⟩ | ⟨-, hr⟩
  · have hresult : o₂.resultOf c = .ok r := hr
    obtain ⟨n, hn, -⟩ := hsums.diverted
    rw [hresult]
    dsimp only [completion]
    rw [hn]
    rfl
  · have hresult : o₂.resultOf c = .error .overflow := hr
    rw [hresult]
    rfl

end Orchestrator

/-! ### The order of a result -/

namespace Waiting

variable {p : Pipeline} [Transform σ]

/-- **The order of a result.** Whoever waits for a run, and in whatever order workers report or are given
up: the result has one entry for each worker, by the topological order of the transforms and then by
copies. There is no result if the errors of all workers do not fit into a word. -/
theorem result_order {registry : Registry σ} {o : Orchestrator σ} (hooks : Hooks)
    (bindings : Table String) (hnew : Orchestrator.new p registry = .ok o) {events : List Event}
    (hr : ((Course.begin o hooks bindings).run events).Running) :
    (∀ moves, ∃ reports, p.Lists (reports.map (·.worker)) ∧ RunResult.Carries reports
      ((begin ((Course.begin o hooks bindings).run events)).run moves).result) ∧
    ∃ reports result, p.Lists (reports.map (·.worker)) ∧ RunResult.Carries reports result ∧
      ((Course.begin o hooks bindings).run events).orchestrator.wait.2 = result.map .ok := by
  have hp := Pipeline.wellFormed_of_validationErrors (Orchestrator.new_ok hnew).1
  have hlists : ∀ moves, p.Lists ((begin ((Course.begin o hooks bindings).run events)).run
      moves).course.orchestrator.keys := by
    refine of_waiting (P := fun c => p.Lists c.orchestrator.keys) hnew
      (Course.trivial_early p o.transforms) (fun c _ hl _ => ?_) (fun c c' d h hc => ?_)
      (fun c c' i x h hc => ?_) events hr
    · obtain ⟨order, hord, hkeys⟩ := hl.keys
      have hsame : c.orchestrator.keys = order.flatMap p.copiesOf := hkeys
      exact hsame ▸ hp.lists hord
    · have hsame : c'.orchestrator.keys = c.orchestrator.keys :=
        congrArg (·.toList.map Worker.key) h.workers
      exact hsame ▸ hc
    · have hsame : c'.orchestrator.keys = c.orchestrator.keys := h.keys
      exact hsame ▸ hc
  refine ⟨fun moves => ⟨_, ?_, carries_result _⟩, ?_⟩
  · rw [reports, Orchestrator.workers_reportsOf]
    exact hlists moves
  · obtain ⟨since, hs⟩ := hr
    obtain ⟨reports, result, hcarries, hkeys, hwait⟩ := Orchestrator.wait_running hs
    exact ⟨reports, result, hkeys ▸ hlists [], hcarries, hwait⟩

/-! ### A pipeline that is declared from its end -/

namespace Backward

/-- Rows pass from the transform declared last to the one declared first. -/
def pipeline : Pipeline where
  transforms := [{ id := "b", type := "dummy" }, { id := "a", type := "dummy" }]
  hops := [{ origin := "a", target := "b" }]

/-- The built-in transforms. -/
def registry : Registry Builtin := .builtins id

/-- The run of the two. -/
def orchestrator : Orchestrator Builtin where
  pipeline := pipeline
  transforms := (registry.resolve pipeline).toOption.getD .empty
  world := { shared := { pipeline := pipeline.name, poll := 50000 } }
  built := .ofList (pipeline.ids.map (·, 1))

theorem new_ok : Orchestrator.new pipeline registry = .ok orchestrator := rfl

/-- The run when its workers have been started. -/
def started : Course Builtin := (Course.begin orchestrator Hooks.none .empty).run [.prepare, .start]

theorem running : started.Running := ⟨_, rfl⟩

end Backward

/-- The run of the two comes to a result. -/
theorem result_order_backward : Backward.started.Running ∧
    ∃ reports result, Backward.pipeline.Lists (reports.map (·.worker)) ∧
      RunResult.Carries reports result ∧
      Backward.started.orchestrator.wait.2 = result.map .ok :=
  ⟨Backward.running, (result_order Hooks.none .empty Backward.new_ok Backward.running).2⟩

/-- It is not so that the entries of a result are always in the order of declaration. -/
theorem exists_undeclared : ¬ ∀ (p : Pipeline) (o : Orchestrator Builtin) (hooks : Hooks)
    (bindings : Table String) (events : List Event) (moves : List Move) (r : RunResult),
    Orchestrator.new p (.builtins id) = .ok o →
    ((Course.begin o hooks bindings).run events).Running →
    ((begin ((Course.begin o hooks bindings).run events)).run moves).result = .ok r →
    r.reports.map (·.worker) = p.workers := by
  intro h
  have hfits : errorsIn (begin Backward.started).reports < 2 ^ 64 := by decide +kernel
  obtain ⟨r, hr, hreports⟩ := (begin Backward.started).carries_result.exists_ok hfits
  have hdeclared := h _ _ Hooks.none .empty _ [] r Backward.new_ok Backward.running hr
  rw [hreports] at hdeclared
  revert hdeclared
  decide +kernel

end Waiting

end Rowflow
