import Rowflow.Proofs.Course.Attempt
import Rowflow.Proofs.Course.HookOrder
import Rowflow.Proofs.Course.Waiting

/-!
# Turns

Whoever has an orchestrator may call it in any order, also out of turn, and may go on after a failure.
A turn is an event, a wait for the end, or a step of a worker that is still at work when the wait is
over. `Orchestrator.Moves` lists what a turn can do to an orchestrator. While its workers are at work,
they are past their initialization, which was successful (`World.Underway`).
-/

namespace Rowflow

variable {σ : Type}

/-- What may happen to an orchestrator. -/
inductive Turn where
  | event (e : Event)
  /-- Somebody waits for the end of the run. -/
  | wait
  /-- A worker that has been given up goes on. -/
  | linger (worker : Nat)

namespace Course

variable [Transform σ]

/-- What a turn does. -/
def take (c : Course σ) : Turn → Course σ
  | .event e => c.perform e
  | .wait => { c with orchestrator := c.orchestrator.wait.1 }
  | .linger i =>
    match c.orchestrator.state with
    | .finished => c.setWorld (c.world.step i)
    | _ => c

/-- What a list of turns does. -/
def play (c : Course σ) (turns : List Turn) : Course σ := turns.foldl take c

end Course

namespace Orchestrator

/-- The workers are at work, or have been. -/
def HasStarted (o : Orchestrator σ) : Prop := o.state = .finished ∨ ∃ since, o.state = .running since

/-- What a turn can do to an orchestrator. -/
inductive Moves [Transform σ] (o : Orchestrator σ) : Orchestrator σ → Prop where
  | stays : Moves o o
  | prepares : Moves o o.prepare.1
  | starts : Moves o o.start.1
  | waits : Moves o o.wait.1
  | claims {claimed : List String} (id : String) (hs : o.state = .prepared claimed) :
    Moves o { o with state := .prepared (id :: claimed) }
  | hears {claimed : List String} (id : String) (l : Listener) (hs : o.state = .prepared claimed) :
    Moves o { o with world := { o.world with workers := o.world.workers.map (Worker.hear id l) } }
  | shares (s : Shared) (episodes : s.episodes = o.world.shared.episodes)
    (size : s.rowSets.size = o.world.shared.rowSets.size)
    (done : ∀ i, o.world.shared.done i = true → s.done i = true) :
    Moves o { o with world := { o.world with shared := s } }
  | steps (i : Nat) (hs : o.HasStarted) : Moves o { o with world := o.world.step i }

variable [Transform σ]

theorem moves_perform (c : Course σ) (e : Event) : c.orchestrator.Moves (c.perform e).orchestrator := by
  rcases e with _ | id | ⟨id, l⟩ | _ | ⟨i, e⟩ | i | _ | micros | _ | i
  case prepare => exact .prepares
  case produce =>
    unfold Course.perform rowProducer
    dsimp only
    rcases hs : c.orchestrator.state with _ | claimed | since | _ <;> dsimp only
    case prepared =>
      rcases c.orchestrator.pipeline.transform? id with _ | spec
      · exact .stays
      · rcases (Topology.build c.orchestrator.pipeline).injectors.lookup id with _ | i
        · exact .stays
        · exact .claims id hs
    all_goals exact .stays
  case listen =>
    unfold Course.perform addListener
    dsimp only
    rcases hs : c.orchestrator.state with _ | claimed | since | _ <;> dsimp only
    case prepared =>
      split
      · rw [← hs]
        exact .hears id l hs
      · exact .stays
    all_goals exact .stays
  case start => exact .starts
  case inject =>
    unfold Course.perform offer
    dsimp only
    split
    · split
      · exact .shares _ rfl Array.size_modify fun j hj => (Shared.done_accept _ i j e).trans hj
      all_goals exact .stays
    · exact .stays
  case finish =>
    unfold Course.perform
    dsimp only
    split
    · exact .shares (c.shared.finish i) rfl Array.size_modify fun j hj =>
        (c.shared.done_finish i j).mpr (Or.inl hj)
    · exact .stays
  case stop =>
    obtain ⟨hrows, -, -⟩ := c.shared.requestStop_fixed "orchestrator"
    exact .shares (c.shared.requestStop "orchestrator") (c.shared.episodes_requestStop _)
      (by rw [hrows]; rfl) fun j hj => (Shared.done_congr hrows).trans hj
  case pass => exact .shares _ rfl rfl fun j hj => hj
  case receive => exact .shares _ rfl rfl fun j hj => hj
  case step =>
    unfold Course.perform Course.stepWorker
    dsimp only
    rcases hs : c.orchestrator.state with _ | claimed | since | _ <;> dsimp only
    case running =>
      rcases c.workers[i]? with _ | x <;> dsimp only
      · exact .stays
      · have hmoved : c.orchestrator.Moves { c.orchestrator with world := c.world.step i } :=
          .steps i (Or.inr ⟨since, hs⟩)
        rcases x.deed? c.shared with _ | d <;> exact hmoved
    all_goals exact .stays

/-- **A turn** does to the orchestrator one of the things that are listed. -/
theorem moves_take (c : Course σ) (turn : Turn) :
    c.orchestrator.Moves (c.take turn).orchestrator := by
  rcases turn with e | _ | i
  case event => exact moves_perform c e
  case wait => exact .waits
  case linger =>
    unfold Course.take
    rcases hs : c.orchestrator.state with _ | claimed | since | _ <;> dsimp only
    case finished => exact .steps i (Or.inl hs)
    all_goals exact .stays

/-- What holds at the beginning and is kept by everything that a turn can do holds at any time. -/
theorem of_moves {P : Orchestrator σ → Prop} (hkeep : ∀ o o', o.Moves o' → P o → P o') (turns : List Turn)
    {c : Course σ} (h : P c.orchestrator) : P (c.play turns).orchestrator := by
  unfold Course.play
  induction turns generalizing c with
  | nil => exact h
  | cons turn rest ih => exact ih (hkeep _ _ (moves_take c turn) h)

end Orchestrator

/-! ### Workers that have been started -/

/-- The initialization is over. -/
def Phase.Past : Phase σ → Prop
  | .initializing _ => False
  | _ => True

theorem outcome_append {x : Worker σ} (h : x.phase.Past) (es : List Episode) :
    outcome (x.episode?.toList ++ es) = outcome es := by
  obtain ⟨c, state, phase⟩ := x
  rcases phase with a | r | _ | _ | a | r | ⟨m, a⟩ | m | ⟨fate, rest⟩ | ⟨fate, a⟩ | ⟨status, error⟩ |
    p | summary | _
  case initializing => exact h.elim
  case closing => rcases rest with _ | ⟨i, rest⟩ <;> rfl
  all_goals rfl

theorem Worker.past_step [Transform σ] {x : Worker σ} (h : x.phase.Past) (s : Shared) :
    (x.step s).2.phase.Past := by
  have hmoves := x.step_moves s
  generalize x.deed? s = d, (x.step s).1 = s', (x.step s).2 = y at hmoves ⊢
  obtain ⟨c, state, phase⟩ := x
  cases hmoves
  case initializing => exact h.elim
  case disposed fate => cases fate <;> trivial
  case undisposed fate _ => cases fate <;> trivial
  all_goals trivial

/-- All workers are past their initialization, and all initializations were successful. -/
structure World.Underway (p : Pipeline) (w : World σ) : Prop where
  past : ∀ x ∈ w.workers, x.phase.Past
  outcomes : ∀ k ∈ p.workers, outcome (lifeOf k w.shared.episodes) = some (.ok ())

namespace World.Underway

variable {p : Pipeline} {w w' : World σ}

theorem keep (h : w.Underway p) (hworkers : w'.workers = w.workers)
    (hepisodes : w'.shared.episodes = w.shared.episodes) : w'.Underway p :=
  ⟨by rw [hworkers]; exact h.past, by rw [hepisodes]; exact h.outcomes⟩

theorem step [Transform σ] (h : w.Underway p) (i : Nat) : (w.step i).Underway p := by
  refine ⟨World.forall_step h.past fun _ _ hx => Worker.past_step hx w.shared, fun k hk => ?_⟩
  rcases hx : w.workers[i]? with _ | x
  · rw [World.step_of_none hx]
    exact h.outcomes k hk
  · rw [World.step_of_getElem? hx]
    show outcome (lifeOf k (x.step w.shared).1.episodes) = _
    rw [x.step_episodes]
    by_cases hkey : x.key = k
    · subst hkey
      rw [lifeOf_append_self, outcome_append (h.past x (Array.mem_of_getElem? hx))]
      exact h.outcomes _ hk
    · rw [lifeOf_append_of_ne hkey]
      exact h.outcomes k hk

end World.Underway

namespace Orchestrator

variable [Transform σ]

omit [Transform σ] in
/-- After a message and a call of the hooks, whatever they answer, the workers are where they were. -/
theorem callHook_keep {P : World σ → Prop}
    (keep : ∀ w w' : World σ, w'.workers = w.workers → w'.shared.episodes = w.shared.episodes →
      P w → P w') {o : Orchestrator σ} (h : P o.world) {m : Log.Message} {point : HookPoint}
    {scene : HookScene} {called : Orchestrator σ × Table String × Except ExecutionError Unit}
    (hcall : (o.say m).callHook point scene = called) (hscene : scene.worker = none) :
    ∃ w scene', P w ∧ scene'.worker = none ∧
      called.1 = { o with calls := ⟨point, scene'⟩ :: o.calls, world := w } := by
  subst hcall
  rcases (o.say m).callHook_cases point scene with ⟨b, message, -, hc⟩ | ⟨b, -, hc⟩ <;> rw [hc]
  · refine ⟨(((o.say m).called point scene).say _).world, scene, ?_, hscene, rfl⟩
    exact keep o.world _ rfl rfl h
  · refine ⟨((o.say m).called point scene).world, scene, ?_, hscene, rfl⟩
    exact keep o.world _ rfl rfl h

/-- **A wait** ends the run, whatever its workers do meanwhile. It calls the hooks once more, unless
whoever waits breaks down. -/
theorem wait_induction {P : World σ → Prop}
    (keep : ∀ w w' : World σ, w'.workers = w.workers → w'.shared.episodes = w.shared.episodes →
      P w → P w') (step : ∀ w i, P w → P (w.step i)) {o : Orchestrator σ} {since : Nat}
    (hs : o.state = .running since) (h : P o.world) :
    ∃ w, P w ∧ (o.wait.1 = { o with state := .finished, world := w } ∨
      ∃ scene, scene.worker = none ∧ o.wait.1 =
        { o with state := .finished, calls := ⟨.finished, scene⟩ :: o.calls, world := w }) := by
  obtain ⟨w, hw, hcollected⟩ :=
    collect_induction keep step patience { o with state := .finished } o.vigil h
  unfold wait
  rw [hs]
  dsimp only
  rcases hc : collect patience { o with state := .finished } o.vigil with ⟨o₁, c⟩
  rw [hc] at hcollected
  dsimp only at hcollected ⊢
  obtain ⟨s, hsaid, hall⟩ := say_all (fun k : WorkerKey =>
    .workerTimedOut k.id k.copy (Duration.ofMillis o₁.pipeline.engine.shutdownTimeout)) c.missing o₁
  rw [hall]
  subst hcollected
  have hkept : P { w with shared := s } := keep w _ rfl hsaid hw
  split
  · exact ⟨_, hkept, Or.inl rfl⟩
  · split
    · exact ⟨_, hkept, Or.inl rfl⟩
    · generalize hcall : callHook _ HookPoint.finished _ = called
      obtain ⟨w', scene, hw', hscene, heq⟩ := callHook_keep
        (o := { o with state := .finished, world := { w with shared := s } }) keep hkept hcall rfl
      exact ⟨w', hw', Or.inr ⟨scene, hscene, heq⟩⟩

end Orchestrator

end Rowflow
