import Mathlib.Tactic.Common
import Rowflow.Proofs.Course.Attempt
import Rowflow.Proofs.Course.Closing

/-!
# Prompt cancellation

Once the stop flag is up, no worker begins another call, and a worker in a read that has passed its
check of the flag takes one more row at most: the next read of the call finds the flag up. What a worker
may still do is therefore bounded by where it stands when the flag rises (`Worker.Winds`), whatever
happens around it in between. It ends with status `Done` only if it had already left with it
(`Worker.Parts`).

- `Worker.winds_goThrough`: one worker in any surroundings, initialization and disposal included.
- `Course.prompt_cancellation`: all workers of all runs.
-/

namespace Rowflow

variable {σ : Type}

/-! ### Deeds -/

namespace Deed

/-- Whether the deed is that a row is taken. -/
def isTook : Deed → Bool
  | took _ _ => true
  | _ => false

/-- Whether the deed is that a call ends with an answer. -/
def isAnswered : Deed → Bool
  | answered _ => true
  | _ => false

/-- The last call has ended with the answer that there is nothing more to do, the check of the stop flag
after it has been passed, and no call has begun since. -/
def PartedDone (ds : List Deed) : Prop :=
  ∃ later older, ds = later ++ left .done :: answered (.ok false) :: older ∧ began ∉ later

theorem IsOperation.isAnswered {d : Deed} (h : d.IsOperation) : d.isAnswered = false := by
  cases d
  case answered => exact absurd h id
  all_goals rfl

end Deed

/-! ### Where a worker stands when the flag rises -/

/-- How many rows an activity takes at most once the stop flag is up: one if it is in a read and has
passed the check of the flag. -/
def Activity.rowsLeft {α : Type} : Activity σ α → Nat
  | .reading .check _ => 0
  | .reading _ _ => 1
  | _ => 0

/-- How many rows a worker takes at most once the stop flag is up. -/
def Phase.rowsLeft (phase : Phase σ) : Nat := phase.doing 0 Activity.rowsLeft

/-- How many calls of a worker are answered at most once the stop flag is up. -/
def Phase.callsLeft : Phase σ → Nat
  | .working _ => 1
  | _ => 0

namespace Activity

variable {α : Type}

theorem rowsLeft_le_one (a : Activity σ α) : a.rowsLeft ≤ 1 := by
  unfold rowsLeft
  split <;> decide

theorem rowsLeft_startDelivery (d : Desk σ) (r : Except TransformError Context.Delivery)
    (next : Except TransformError Unit → Plan σ α) : (startDelivery d r next).2.rowsLeft = 0 := by
  rcases r with err | del <;> rfl

/-- Taking a row ends the read. -/
theorem ReadStep.rowsLeft {s s' : Shared} {c c' : Context} {next : Option Entry → Plan σ α}
    {deed : Option Deed} {a : Activity σ α} (h : ReadStep s c next deed s' c' a) :
    deed.toList.countP Deed.isTook + a.rowsLeft ≤ 1 := by
  cases h
  case on stage _ _ => exact (Nat.zero_add _).symm ▸ rowsLeft_le_one _
  case dry => exact Nat.zero_le 1
  case row => exact Nat.le_refl 1
  case broken => exact Nat.le_refl 1

/-- **One step of an activity**, the stop flag being up: it takes no more rows than were left. -/
theorem step_stopped {d : Desk σ} (hs : d.shared.stopped = true) (a : Activity σ α) :
    (a.deed? d.shared d.context).toList.countP Deed.isTook + (a.step d).2.rowsLeft ≤ a.rowsLeft := by
  have hrefusal : ∀ {β : Type} (r : Except TransformError β),
      (Deed.ofRefusal r).toList.countP Deed.isTook = 0 := by
    rintro β (err | b) <;> rfl
  obtain ⟨s, c, state⟩ := d
  rcases a with plan | ⟨stage, next⟩ | ⟨del, next⟩ | ⟨deadline, next⟩ | _ | _
  case run =>
    cases plan
    case write e next =>
      simp only [deed?, step, stepPlan, hrefusal, rowsLeft_startDelivery]
      exact Nat.le_refl 0
    case writeTo target e next =>
      simp only [deed?, step, stepPlan, hrefusal, rowsLeft_startDelivery]
      exact Nat.le_refl 0
    case divert e why next =>
      simp only [deed?, step, stepPlan]
      rcases (c.startDivert s e why).2.2 with p | r
      · exact Nat.zero_le _
      · simp only [Except.toOption, Option.bind_some, hrefusal, startDiversion, rowsLeft_startDelivery]
        exact Nat.le_refl 0
    case await m next =>
      simp only [step, stepPlan]
      split <;> exact Nat.le_refl 0
    all_goals exact Nat.le_refl 0
  case reading =>
    rcases stage with _ | left | deadline
    case check =>
      simp only [deed?, step, stepRead]
      rw [if_pos hs, if_pos hs]
      exact Nat.le_refl 0
    all_goals exact (stepRead_spec ⟨s, c, state⟩ _ next).2.rowsLeft
  case writing =>
    have hdeed : (Context.deliveryDeed? s del).toList.countP Deed.isTook = 0 := by
      unfold Context.deliveryDeed?
      split
      · rfl
      · split <;> rfl
    simp only [deed?, step, hdeed]
    rcases c.deliver s del with ⟨s', c', del' | r | p⟩ <;> exact Nat.le_refl 0
  case resting =>
    simp only [step]
    split <;> exact Nat.le_refl 0
  all_goals exact Nat.le_refl 0

end Activity

namespace Worker

/-- The deeds of a worker since the stop flag is up, the last one first, take no more rows and answer no
more calls than were left, and no call begins. -/
structure Winds (x : Worker σ) (ds : List Deed) (y : Worker σ) : Prop where
  rows : ds.countP Deed.isTook + y.phase.rowsLeft ≤ x.phase.rowsLeft
  calls : ds.countP Deed.isAnswered + y.phase.callsLeft ≤ x.phase.callsLeft
  begun : Deed.began ∉ ds
  undone : Deed.left .done ∉ ds

theorem rowsLeft_le_one (x : Worker σ) : x.phase.rowsLeft ≤ 1 := by
  obtain ⟨c, state, phase⟩ := x
  cases phase
  case initializing a => exact a.rowsLeft_le_one
  case working a => exact a.rowsLeft_le_one
  case diverting m a => exact a.rowsLeft_le_one
  case disposing fate a => exact a.rowsLeft_le_one
  all_goals exact Nat.zero_le 1

theorem callsLeft_le_one (x : Worker σ) : x.phase.callsLeft ≤ 1 := by
  unfold Phase.callsLeft
  split <;> decide

theorem Winds.refl (x : Worker σ) : x.Winds [] x :=
  ⟨Nat.le_of_eq (Nat.zero_add _), Nat.le_of_eq (Nat.zero_add _), List.not_mem_nil, List.not_mem_nil⟩

theorem Winds.le_one {x y : Worker σ} {ds : List Deed} (h : x.Winds ds y) :
    ds.countP Deed.isTook ≤ 1 ∧ ds.countP Deed.isAnswered ≤ 1 :=
  ⟨Nat.le_trans (Nat.le_of_add_right_le h.rows) x.rowsLeft_le_one,
    Nat.le_trans (Nat.le_of_add_right_le h.calls) x.callsLeft_le_one⟩

variable [Transform σ] {s : Shared}

/-- **One step of a worker**, the stop flag being up. -/
theorem step_stopped (hs : s.stopped = true) (x : Worker σ) :
    (x.deed? s).toList.countP Deed.isTook + (x.step s).2.phase.rowsLeft ≤ x.phase.rowsLeft ∧
      (x.deed? s).toList.countP Deed.isAnswered + (x.step s).2.phase.callsLeft ≤
        x.phase.callsLeft := by
  have hmoves := x.step_moves s
  generalize x.deed? s = d, (x.step s).1 = s', (x.step s).2 = y at hmoves ⊢
  obtain ⟨c, state, phase⟩ := x
  have hnone : (0 : Nat) ≤ 0 ∧ (0 : Nat) ≤ 0 := ⟨Nat.le_refl 0, Nat.le_refl 0⟩
  have hquiet : ∀ {α : Type} (a : Activity σ α),
      (a.deed? s c).toList.countP Deed.isAnswered = 0 := by
    intro α a
    rcases hd : a.deed? s c with _ | d
    · rfl
    · rw [Option.toList_some, List.countP_singleton,
        (Activity.deed?_isOperation state hd).isAnswered]
      rfl
  have hactive : ∀ {α : Type} (a : Activity σ α) (calls : Nat),
      (a.deed? s c).toList.countP Deed.isTook + (a.step ⟨s, c, state⟩).2.rowsLeft ≤ a.rowsLeft ∧
        (a.deed? s c).toList.countP Deed.isAnswered + calls ≤ calls := by
    intro α a calls
    rw [hquiet, Nat.zero_add]
    exact ⟨Activity.step_stopped (d := ⟨s, c, state⟩) hs a, Nat.le_refl calls⟩
  cases hmoves
  case initializing a _ => exact hactive a 0
  case working a _ => exact hactive a 1
  case diverting a _ => exact hactive a 0
  case disposing a _ => exact hactive a 0
  case begins flag =>
    rw [hs] at flag
    cases flag
  case answers => exact ⟨Nat.le_refl 0, Nat.le_refl 1⟩
  case panics => exact ⟨Nat.le_refl 0, Nat.zero_le 1⟩
  case disposed fate => cases fate <;> exact hnone
  case undisposed fate _ => cases fate <;> exact hnone
  all_goals exact hnone

theorem Winds.step {x y : Worker σ} {ds : List Deed} (h : x.Winds ds y) (hs : s.stopped = true) :
    x.Winds ((y.deed? s).toList ++ ds) (y.step s).2 := by
  obtain ⟨hrows, hcalls⟩ := y.step_stopped hs
  have hnot : ∀ d : Deed, (y.deed? s = some d → s.stopped = false) → d ∉ ds →
      d ∉ (y.deed? s).toList ++ ds := by
    intro d hd hn hm
    rcases List.mem_append.mp hm with hm | hm
    · rw [hd (Option.mem_toList.mp hm)] at hs
      cases hs
    · exact hn hm
  refine ⟨?_, ?_, hnot _ (fun hd => ?_) h.begun, hnot _ (fun hd => ?_) h.undone⟩
  · have hbefore := h.rows
    rw [List.countP_append]
    omega
  · have hbefore := h.calls
    rw [List.countP_append]
    omega
  all_goals
    have hleads := deed?_leads hd
    generalize y.phase = phase at hleads
    cases hleads
    case operation kind => exact absurd kind id
    all_goals first | assumption | exact absurd rfl ‹_›

/-- A worker that takes steps, each of them in another shared state, and its deeds, the last one
first. -/
def goThrough (x : Worker σ) (states : List Shared) : Worker σ × List Deed :=
  states.foldl (fun (y, ds) s => ((y.step s).2, (y.deed? s).toList ++ ds)) (x, [])

/-- **In any surroundings** a worker winds down once the stop flag is up. -/
theorem winds_goThrough (x : Worker σ) {states : List Shared}
    (hs : ∀ s ∈ states, s.stopped = true) :
    x.Winds (x.goThrough states).2 (x.goThrough states).1 := by
  have hall : ∀ (states : List Shared) (y : Worker σ) (ds : List Deed),
      (∀ s ∈ states, s.stopped = true) → x.Winds ds y →
      x.Winds (states.foldl (fun (y, ds) s => ((y.step s).2, (y.deed? s).toList ++ ds)) (y, ds)).2
        (states.foldl (fun (y, ds) s => ((y.step s).2, (y.deed? s).toList ++ ds)) (y, ds)).1 := by
    intro states
    induction states with
    | nil => exact fun y ds _ h => h
    | cons s rest ih =>
      intro y ds hs h
      exact ih _ _ (fun s' hs' => hs s' (List.mem_cons_of_mem _ hs'))
        (h.step (hs s List.mem_cons_self))
  exact hall states x [] hs (.refl x)

end Worker

/-! ### With which status a worker leaves -/

/-- The status with which a worker leaves, unless it has never been started. -/
def Fate.status? : Fate → Option WorkerStatus
  | .ran status _ => some status
  | .abandoned => none

/-- The status with which a worker has left. -/
def Phase.status? : Phase σ → Option WorkerStatus
  | .closing fate _ | .disposing fate _ => fate.status?
  | .reporting status _ => some status
  | .sending summary => some summary.status
  | _ => none

/-- The answer that a worker has to judge. -/
def Phase.judged? : Phase σ → Option (Except TransformError Bool)
  | .judging r => some r
  | _ => none

/-- The status with which a worker leaves by a deed. -/
def Deed.status? : Deed → Option WorkerStatus
  | .left status => some status
  | _ => none

/-- The answer with which a call ends by a deed. -/
def Deed.answer? : Deed → Option (Except TransformError Bool)
  | .answered r => some r
  | _ => none

theorem Deed.eq_left {d : Option Deed} {status : WorkerStatus}
    (h : d.bind Deed.status? = some status) : d = some (.left status) := by
  rcases d with _ | d
  · cases h
  · cases d <;> cases h
    rfl

theorem Deed.eq_answered {d : Option Deed} {r : Except TransformError Bool}
    (h : d.bind Deed.answer? = some r) : d = some (.answered r) := by
  rcases d with _ | d
  · cases h
  · cases d <;> cases h
    rfl

theorem Phase.status?_of_calls {phase : Phase σ} (h : phase.Calls) : phase.status? = none := by
  cases phase
  case closing => exact absurd h id
  case disposing => exact absurd h id
  case reporting => exact absurd h id
  case sending => exact absurd h id
  all_goals rfl

namespace Worker

/-- What the deeds of a worker, the last one first, say of how it leaves: in the loop of calls it has
not left, after that its status is the one with which it has left, and it has left with `Done` only
after a call that has answered that there is nothing more to do. -/
structure Parts (ds : List Deed) (x : Worker σ) : Prop where
  stays : x.phase.Calls → ∀ status, Deed.left status ∉ ds
  judged : ∀ r, x.phase = .judging r → ∃ older, ds = .answered r :: older
  status : ∀ status, x.phase.status? = some status → Deed.left status ∈ ds
  sent : ∀ summary, Deed.sent summary ∈ ds → Deed.left summary.status ∈ ds
  done : Deed.left .done ∈ ds → Deed.PartedDone ds

theorem parts_starting {x : Worker σ} (h : x.phase = .starting) : x.Parts [] where
  stays _ _ := List.not_mem_nil
  judged r hr := by rw [h] at hr; cases hr
  status st hst := by rw [h] at hst; cases hst
  sent _ hm := absurd hm List.not_mem_nil
  done hm := absurd hm List.not_mem_nil

variable [Transform σ] {x : Worker σ} {s : Shared}

/-- What a step makes of the status: it stays, a worker that leaves takes it on, and a worker that is
gone has none. -/
inductive Parting : Option WorkerStatus → Option WorkerStatus → Option WorkerStatus → Prop where
  | keeps (before : Option WorkerStatus) : Parting before none before
  | leaves (before : Option WorkerStatus) (status : WorkerStatus) :
      Parting before (some status) (some status)
  | ends (before : Option WorkerStatus) : Parting before none none

/-- A worker takes on the status with which it leaves, and judges a call when it has been answered. -/
theorem step_parting (x : Worker σ) (s : Shared) :
    Parting x.phase.status? ((x.deed? s).bind Deed.status?) (x.step s).2.phase.status? ∧
      (x.step s).2.phase.judged? = (x.deed? s).bind Deed.answer? := by
  have hmoves := x.step_moves s
  generalize x.phase = phase, x.deed? s = d, (x.step s).1 = s', (x.step s).2 = y at hmoves ⊢
  have hquiet : ∀ {α : Type} (a : Activity σ α) (before : Option WorkerStatus),
      Parting before ((a.deed? s x.context).bind Deed.status?) before ∧
        none = (a.deed? s x.context).bind Deed.answer? := by
    intro α a before
    rcases hd : a.deed? s x.context with _ | d
    · exact ⟨.keeps before, rfl⟩
    · have hkind := Activity.deed?_isOperation x.state hd
      cases d
      case left => exact absurd hkind id
      case answered => exact absurd hkind id
      all_goals exact ⟨.keeps before, rfl⟩
  cases hmoves
  case initializing a _ => exact hquiet a none
  case working a _ => exact hquiet a none
  case diverting a _ => exact hquiet a none
  case disposing fate a _ => exact hquiet a fate.status?
  case stops => exact ⟨.leaves none _, rfl⟩
  case exhausted => exact ⟨.leaves none _, rfl⟩
  case cut => exact ⟨.leaves none _, rfl⟩
  case interrupted => exact ⟨.leaves none _, rfl⟩
  case fails => exact ⟨.leaves none _, rfl⟩
  case collapses => exact ⟨.leaves none _, rfl⟩
  case sends => exact ⟨.ends _, rfl⟩
  case disposed fate => cases fate <;> exact ⟨.keeps _, rfl⟩
  case undisposed fate _ => cases fate <;> exact ⟨.keeps _, rfl⟩
  all_goals exact ⟨.keeps _, rfl⟩

theorem calls_of_step (hrun : x.phase.Calls ∨ x.phase.IsOut) (h : (x.step s).2.phase.Calls) :
    x.phase.Calls :=
  hrun.resolve_right fun hout => Phase.not_calls_of_isOut (step_isOut hout s) h

theorem Parts.step {ds : List Deed} (h : x.Parts ds) (hrun : x.phase.Calls ∨ x.phase.IsOut)
    (s : Shared) : (x.step s).2.Parts ((x.deed? s).toList ++ ds) := by
  obtain ⟨hparting, hjudged⟩ := x.step_parting s
  have hmem : ∀ {d : Deed}, d ∈ (x.deed? s).toList ++ ds → x.deed? s = some d ∨ d ∈ ds := fun hm =>
    (List.mem_append.mp hm).imp_left Option.mem_toList.mp
  have hold : ∀ {d : Deed}, d ∈ ds → d ∈ (x.deed? s).toList ++ ds := List.mem_append_right _
  refine ⟨fun hcalls st hm => ?_, fun r hr => ?_, fun st hst => ?_, fun summary hm => ?_,
    fun hm => ?_⟩
  · rcases hmem hm with hd | hm
    · rw [hd, Phase.status?_of_calls hcalls] at hparting
      cases hparting
    · exact h.stays (calls_of_step hrun hcalls) st hm
  · rw [Deed.eq_answered (hjudged.symm.trans (congrArg Phase.judged? hr))]
    exact ⟨ds, rfl⟩
  · rw [hst] at hparting
    generalize hd : (x.deed? s).bind Deed.status? = left at hparting
    generalize hbefore : x.phase.status? = before at hparting
    cases hparting
    case keeps => exact hold (h.status st hbefore)
    case leaves =>
      rw [Deed.eq_left hd]
      exact List.mem_cons_self
  · rcases hmem hm with hd | hm
    · refine hold (h.status _ ?_)
      have hleads := deed?_leads hd
      generalize x.phase = phase at hleads ⊢
      cases hleads
      case operation kind => exact absurd kind id
      case sent => rfl
    · exact hold (h.sent summary hm)
  · rcases hmem hm with hd | hm
    · have hphase : x.phase = .judging (.ok false) := by
        have hleads := deed?_leads hd
        generalize x.phase = phase at hleads
        cases hleads
        case operation kind => exact absurd kind id
        case finished => rfl
        case left hne => exact absurd rfl hne
      obtain ⟨older, rfl⟩ := h.judged _ hphase
      rw [hd]
      exact ⟨[], older, rfl, List.not_mem_nil⟩
    · obtain ⟨later, older, hds, hbegan⟩ := h.done hm
      refine ⟨(x.deed? s).toList ++ later, older, by rw [hds, List.append_assoc], fun hm' => ?_⟩
      rcases List.mem_append.mp hm' with hd | hm'
      · -- a worker that begins a call has not left
        have hleads := deed?_leads (Option.mem_toList.mp hd)
        have hstays := h.stays
        generalize x.phase = phase at hleads hstays
        cases hleads
        case operation kind => exact absurd kind id
        case began => exact hstays trivial _ hm
      · exact hbegan hm'

end Worker

/-! ### A stop stays -/

namespace World

variable [Transform σ] {w : World σ}

theorem stopped_step (h : w.shared.stopped = true) (i : Nat) :
    (w.step i).shared.stopped = true := by
  rcases hx : w.workers[i]? with _ | x
  · rwa [step_of_none hx]
  · rw [step_of_getElem? hx]
    exact (x.step_effect w.shared).stopped h

theorem stopped_runUntil (h : w.shared.stopped = true) (holds : World σ → Bool)
    (limit : Option Nat) (fuel : Nat) : (w.runUntil holds limit fuel).shared.stopped = true :=
  runUntil_induction (P := fun w => w.shared.stopped = true) (fun _ _ ht h => ht.stopped h)
    (fun _ i h => stopped_step h i) holds limit fuel h

end World

namespace Orchestrator

variable [Transform σ] {o : Orchestrator σ}

theorem stopped_abandon (h : o.world.shared.stopped = true) (i : Nat) :
    (o.abandon i).world.shared.stopped = true :=
  World.stopped_runUntil (w := o.dismissed i) h _ none o.stamina

theorem stopped_abandonAll (h : o.world.shared.stopped = true) (n : Nat) :
    (o.abandonAll n).world.shared.stopped = true := by
  unfold abandonAll
  induction List.range n generalizing o with
  | nil => exact h
  | cons i rest ih => exact ih (stopped_abandon h i)

theorem stopped_prepareWorker (h : o.world.shared.stopped = true) (k : WorkerKey) (wiring : Wiring)
    (bindings : Table String) :
    (o.prepareWorker k wiring bindings).1.world.shared.stopped = true := by
  have hends := o.prepareWorker_ends k wiring bindings
  have henrolled : ∀ {built : Table Nat} {r : Resolved σ} {state : σ} {o₁ : Orchestrator σ}
      {result : Except TransformError Unit},
      ({ o with built } : Orchestrator σ).enroll k wiring r.spec state = (o₁, result) →
      o₁.world.shared.stopped = true := by
    intro built r state o₁ result he
    obtain rfl : (({ o with built } : Orchestrator σ).enroll k wiring r.spec state).1 = o₁ :=
      congrArg Prod.fst he
    have hadded : (({ o with built } : Orchestrator σ).addWorker
        (.new r.spec k.copy wiring (o.pipeline.slot k.id)) state).world.shared.stopped = true := h
    unfold enroll
    dsimp only
    split <;> exact World.stopped_runUntil hadded _ none _
  generalize o.prepareWorker k wiring bindings = x at hends ⊢
  cases hends
  case unknown => exact h
  case refused built _ _ _ _ _ => exact stopped_abandonAll (o := { o with built }) h _
  case initFailed o₁ e _ _ he =>
    have hstopped := henrolled he
    exact stopped_abandonAll (stopped_abandon (o := o₁.say _) hstopped _) _
  case hookFailed o₁ _ _ _ he _ =>
    have hstopped := henrolled he
    exact stopped_abandonAll (o := (o₁.called _ _).say _) hstopped _
  case prepared he _ =>
    have hstopped := henrolled he
    exact hstopped

theorem stopped_prepareWorkers (h : o.world.shared.stopped = true) (t : Topology)
    (bindings : Table String) (ks : List WorkerKey) :
    (o.prepareWorkers t bindings ks).1.world.shared.stopped = true := by
  induction ks generalizing o t bindings with
  | nil => exact h
  | cons k rest ih =>
    have hone := stopped_prepareWorker h k (t.takeWiring k).1 bindings
    unfold prepareWorkers
    dsimp only
    rcases hp : o.prepareWorker k (t.takeWiring k).1 bindings with ⟨o₁, e | b⟩ <;> rw [hp] at hone
    · exact hone
    · exact ih hone _ b

theorem stopped_prepare (h : o.world.shared.stopped = true) :
    o.prepare.1.world.shared.stopped = true := by
  have hends := o.prepare_ends
  generalize o.prepare = x at hends ⊢
  cases hends
  case misplaced => exact h
  case refused => exact h
  case cyclic => exact h
  case failed b order o₁ e hs hh hord hw =>
    have hworkers := stopped_prepareWorkers (o := o.begun b) h (Topology.build o.pipeline) b
      (order.flatMap o.pipeline.copiesOf)
    rwa [hw] at hworkers
  case prepared b order o₁ m hs hh hord hw =>
    have hworkers := stopped_prepareWorkers (o := o.begun b) h (Topology.build o.pipeline) b
      (order.flatMap o.pipeline.copiesOf)
    rwa [hw] at hworkers

omit [Transform σ] in
theorem stopped_closeInjectors (h : o.world.shared.stopped = true) (claimed : List String) :
    (o.closeInjectors claimed).world.shared.stopped = true := by
  have hall : ∀ (is : List Nat) (s : Shared), (is.foldl Shared.finish s).stopped = s.stopped := by
    intro is
    induction is with
    | nil => exact fun _ => rfl
    | cons i rest ih => exact fun s => ih (s.finish i)
  exact (hall _ _).trans h

theorem stopped_start (h : o.world.shared.stopped = true) :
    o.start.1.world.shared.stopped = true := by
  have hends := o.start_ends
  generalize o.start = x at hends ⊢
  cases hends
  case unprepared => exact h
  case misplaced => exact h
  case refused o₁ ho =>
    have hstopped : ({ o₁ with state := .finished } : Orchestrator σ).world.shared.stopped = true := by
      rw [ho]
      exact h
    exact stopped_abandonAll (stopped_closeInjectors hstopped []) _
  case started claimed m hs hh => exact stopped_closeInjectors (o := o.called _ _) h claimed

end Orchestrator

namespace Course

variable {p : Pipeline} {c c' : Course σ}

variable [Transform σ]

/-- **A stop cannot be withdrawn.** -/
theorem stopped_perform (h : c.shared.stopped = true) (e : Event) :
    (c.perform e).shared.stopped = true := by
  rcases e with _ | id | ⟨id, l⟩ | _ | ⟨i, e⟩ | i | _ | micros | _ | i
  case prepare => exact Orchestrator.stopped_prepare h
  case start => exact Orchestrator.stopped_start h
  case produce =>
    unfold perform Orchestrator.rowProducer
    rcases c.orchestrator.state with _ | claimed | since | _ <;> dsimp only
    case prepared =>
      rcases c.orchestrator.pipeline.transform? id with _ | spec
      · exact h
      · rcases (Topology.build c.orchestrator.pipeline).injectors.lookup id with _ | j <;> exact h
    all_goals exact h
  case listen =>
    unfold perform Orchestrator.addListener
    rcases c.orchestrator.state with _ | claimed | since | _ <;> dsimp only
    case prepared => split <;> exact h
    all_goals exact h
  case inject =>
    unfold perform Orchestrator.offer
    dsimp only
    split
    · rcases c.orchestrator.world.shared.admission i with _ | _ | _ | _ <;> exact h
    · exact h
  case finish =>
    unfold perform
    dsimp only
    split <;> exact h
  case stop => exact (c.shared.requestStop_fixed "orchestrator").2.1
  case pass => exact h
  case receive => exact h
  case step =>
    rcases hs : c.orchestrator.state with _ | claimed | since | _
    case running =>
      rcases stepWorker_spec (i := i) ⟨since, hs⟩ with ⟨-, hn⟩ | ⟨x, hx⟩
      · show (c.stepWorker i).shared.stopped = true
        rwa [hn]
      · exact hx.effect.stopped h
    all_goals
      unfold perform stepWorker
      rw [hs]
      exact h

theorem history_perform (hr : ¬ c.Running) (e : Event) : (c.perform e).history = c.history := by
  rcases e with _ | id | ⟨id, l⟩ | _ | ⟨i, e⟩ | i | _ | micros | _ | i
  case produce =>
    unfold perform
    dsimp only
    split <;> rfl
  case inject =>
    unfold perform
    dsimp only
    split <;> rfl
  case finish =>
    unfold perform
    dsimp only
    split <;> rfl
  case step =>
    unfold perform stepWorker
    rcases hs : c.orchestrator.state with _ | claimed | since | _
    case running => exact absurd ⟨since, hs⟩ hr
    all_goals rfl
  all_goals rfl

/-! ### Runs -/

/-- What holds of a running course, however its workers leave. -/
structure Parting (p : Pipeline) (c : Course σ) : Prop where
  crew : c.Crew p
  phases : ∀ x ∈ c.workers, x.phase.Calls ∨ x.phase.IsOut
  parts : ∀ x ∈ c.workers, x.Parts (deedsOf x.key c.history)

omit [Transform σ] in
theorem Launched.parting (hp : p.WellFormed) (h : c.Launched p) : c.Parting p where
  crew := h.crew hp
  phases x hx := by
    rw [h.starting x hx]
    exact Or.inl trivial
  parts x hx := by
    rw [h.history]
    exact Worker.parts_starting (h.starting x hx)

omit [Transform σ] in
theorem Outside.parting {d : Option Deed} (h : c.Outside c' d) (hc : c.Parting p) : c'.Parting p where
  crew := h.crew hc.crew
  phases := by
    rw [h.workers]
    exact hc.phases
  parts := by
    rw [h.workers, h.history]
    exact hc.parts

theorem Stepped.parting {i : Nat} {x : Worker σ} (h : c.Stepped c' i x) (hc : c.Parting p) :
    c'.Parting p where
  crew := h.crew hc.crew
  phases y hy := by
    rcases h.cases hc.crew hy with rfl | ⟨hy, -⟩
    · rcases hc.phases x h.mem with hcalls | hout
      · exact (Worker.step_calls hcalls c.shared).imp_right And.left
      · exact Or.inr (Worker.step_isOut hout c.shared)
    · exact hc.phases y hy
  parts y hy := by
    rw [h.history]
    rcases h.cases hc.crew hy with rfl | ⟨hy, hne⟩
    · rw [show (x.step c.shared).2.key = x.key from (x.step_effect c.shared).leads.key, deedsOf_grow]
      exact (hc.parts x h.mem).step (hc.phases x h.mem) c.shared
    · rw [deedsOf_grow_of_ne hne]
      exact hc.parts y hy

theorem parting {registry : Registry σ} {o : Orchestrator σ} {hooks : Hooks} {bindings : Table String}
    (hnew : Orchestrator.new p registry = .ok o) (events : List Event)
    (hr : ((begin o hooks bindings).run events).Running) :
    ((begin o hooks bindings).run events).Parting p := by
  have hp := Pipeline.wellFormed_of_validationErrors (Orchestrator.new_ok hnew).1
  exact of_running hnew (World.Unspoilt.early o.transforms) (fun c _ hl _ => hl.parting hp)
    (fun c c' d h hc => h.parting hc) (fun c c' i x h hc => h.parting hc) events hr

/-- What has become of a running course whose stop flag is up: all its workers wind down. -/
structure Winding (p : Pipeline) (c₀ c : Course σ) : Prop where
  running : c.Running
  stopped : c.shared.stopped = true
  crew : c.Crew p
  winds : ∃ later, c.history = later ++ c₀.history ∧ ∀ x ∈ c.workers, ∃ x₀ ∈ c₀.workers,
    x₀.key = x.key ∧ x₀.Winds (deedsOf x.key later) x

theorem Winding.perform {c₀ : Course σ} (h : c₀.Winding p c) (e : Event) :
    c₀.Winding p (c.perform e) := by
  obtain ⟨later, hhistory, hwinds⟩ := h.winds
  obtain ⟨hr, ⟨i, x, hstep, -⟩ | ⟨d, hout, -, -⟩⟩ := perform_running h.running e
  · refine ⟨hr, hstep.effect.stopped h.stopped, hstep.crew h.crew, grow x.key (x.deed? c.shared) later,
      ?_, fun y hy => ?_⟩
    · rw [hstep.history, hhistory]
      exact (List.append_assoc _ _ _).symm
    · rcases hstep.cases h.crew hy with rfl | ⟨hy, hne⟩
      · obtain ⟨x₀, hx₀, hkey, hx⟩ := hwinds x hstep.mem
        have hsame : (x.step c.shared).2.key = x.key := (x.step_effect c.shared).leads.key
        refine ⟨x₀, hx₀, hkey.trans hsame.symm, ?_⟩
        rw [hsame, deedsOf_grow]
        exact hx.step h.stopped
      · rw [deedsOf_grow_of_ne hne]
        exact hwinds y hy
  · refine ⟨hr, hout.stopped h.stopped, hout.crew h.crew, later, hout.history.trans hhistory, ?_⟩
    rw [hout.workers]
    exact hwinds

/-- **Once the stop flag is up** all workers that run wind down. -/
theorem winding_run (hr : c.Running) (hs : c.shared.stopped = true) (hc : c.Crew p)
    (events : List Event) : c.Winding p (c.run events) := by
  have hall : ∀ (events : List Event) (c' : Course σ), c.Winding p c' → c.Winding p (c'.run events) := by
    intro events
    induction events with
    | nil => exact fun _ h => h
    | cons e rest ih => exact fun c' h => ih _ (h.perform e)
  exact hall events c ⟨hr, hs, hc, [], rfl, fun x hx => ⟨x, hx, rfl, .refl x⟩⟩

theorem running_or_history_nil (o : Orchestrator σ) (hooks : Hooks) (bindings : Table String)
    (events : List Event) : ((begin o hooks bindings).run events).Running ∨
      ((begin o hooks bindings).run events).history = [] := by
  have hall : ∀ (events : List Event) (c : Course σ), c.Running ∨ c.history = [] →
      (c.run events).Running ∨ (c.run events).history = [] := by
    intro events
    induction events with
    | nil => exact fun _ h => h
    | cons e rest ih =>
      intro c h
      refine ih (c.perform e) ?_
      by_cases hr : c.Running
      · exact Or.inl (perform_running hr e).1
      · exact Or.inr ((history_perform hr e).trans (h.resolve_left hr))
  exact hall events _ (Or.inr rfl)

/-- Before the start a run stands where a start finds all as it has been arranged. -/
theorem stage_launched {registry : Registry σ} {o : Orchestrator σ} {hooks : Hooks}
    {bindings : Table String} (hnew : Orchestrator.new p registry = .ok o) {events : List Event}
    (hn : ¬ ((begin o hooks bindings).run events).Running) :
    Stage p o.transforms (World.Unspoilt p) (fun c => c.Launched p)
      ((begin o hooks bindings).run events) := by
  have hstage : Stage p o.transforms (World.Unspoilt p) (fun _ => True)
      ((begin o hooks bindings).run events) :=
    staged_noted hnew (World.Unspoilt.early o.transforms) (fun _ => ([] : List Unit))
      (P := fun _ _ => True) (fun _ _ _ _ => trivial) (fun _ _ _ _ _ _ => trivial)
      (fun _ _ _ _ _ _ _ => trivial) events
  unfold Stage at hstage ⊢
  rcases hs : ((begin o hooks bindings).run events).orchestrator.state with _ | claimed | since | _
  case running => exact absurd ⟨since, hs⟩ hn
  all_goals rwa [hs] at hstage

theorem exists_start {ts : TransformMap σ} {Q : World σ → Prop} (hp : p.WellFormed)
    (hQ : Early p ts Q) (hts : ∀ id r, ts.find? id = some r → p.transform? id = some r.spec)
    (hstage : Stage p ts Q (fun c => c.Launched p) c) (hn : ¬ c.Running)
    (hs : c.shared.stopped = true) {events : List Event} (hr : (c.run events).Running) :
    ∃ (c₁ : Course σ) (rest : List Event), c₁.Running ∧ c₁.Launched p ∧ c₁.shared.stopped = true ∧
      c.run events = c₁.run rest := by
  induction events generalizing c with
  | nil => exact absurd hr hn
  | cons e rest ih =>
    have hnext : Stage p ts Q (fun c => c.Launched p) (c.perform e) := by
      unfold Stage at hstage
      rcases hst : c.orchestrator.state with _ | claimed | since | _ <;> rw [hst] at hstage
      · exact hstage.perform hQ hts hst e
      · exact hstage.perform hp hQ (fun _ _ hl _ => hl) hst e
      · exact absurd ⟨since, hst⟩ hn
      · unfold Stage
        rw [perform_finished hst e]
        trivial
    by_cases hrun : (c.perform e).Running
    · refine ⟨c.perform e, rest, hrun, ?_, stopped_perform hs e, rfl⟩
      obtain ⟨since, hst⟩ := hrun
      unfold Stage at hnext
      rwa [hst] at hnext
    · exact ih hnext hrun (stopped_perform hs e) hr

end Course

/-! ### Cancellation -/

/-- What a worker does after the stop flag is up, given its deeds before and after that, each time the
last one first: no call begins, and at most one is answered, at most one row is taken, and neither by a
worker that has not begun its work; and it ends with status `Done` only if it had already passed the
check after its last call. -/
structure Deed.Cancelled (unstarted : Prop) (before after : List Deed) : Prop where
  begun : began ∉ after
  calls : after.countP isAnswered ≤ 1
  rows : after.countP isTook ≤ 1
  idle : unstarted → ∀ d ∈ after, d.isAnswered = false ∧ d.isTook = false
  done : (left .done ∈ after ++ before ∨
    ∃ summary, sent summary ∈ after ++ before ∧ summary.status = .done) → PartedDone before

theorem Deed.Cancelled.nil {unstarted : Prop} : Deed.Cancelled unstarted [] [] where
  begun := List.not_mem_nil
  calls := Nat.zero_le 1
  rows := Nat.zero_le 1
  idle _ _ hd := absurd hd List.not_mem_nil
  done hd := by
    rcases hd with hd | ⟨summary, hd, -⟩ <;> exact absurd hd List.not_mem_nil

theorem Worker.Winds.cancelled {x₀ x : Worker σ} {before after : List Deed} {unstarted : Prop}
    (h : x₀.Winds after x) (hstart : unstarted → x₀.phase = .starting)
    (hdone : Deed.left .done ∈ before → Deed.PartedDone before)
    (hsent : ∀ summary, Deed.sent summary ∈ after ++ before →
      Deed.left summary.status ∈ after ++ before) : Deed.Cancelled unstarted before after where
  begun := h.begun
  calls := h.le_one.2
  rows := h.le_one.1
  idle hun d hd := by
    have hrows := h.rows
    have hcalls := h.calls
    rw [hstart hun] at hrows hcalls
    constructor
    · have hzero := Nat.eq_zero_of_le_zero (Nat.le_of_add_right_le hcalls)
      simpa using List.countP_eq_zero.mp hzero d hd
    · have hzero := Nat.eq_zero_of_le_zero (Nat.le_of_add_right_le hrows)
      simpa using List.countP_eq_zero.mp hzero d hd
  done hd := by
    have hleft : Deed.left .done ∈ after ++ before := by
      rcases hd with hd | ⟨summary, hm, hst⟩
      · exact hd
      · exact hst ▸ hsent summary hm
    exact hdone ((List.mem_append.mp hleft).resolve_left h.undone)

namespace Course

variable {p : Pipeline}

/-- Whether the worker has not begun its work: the workers have not been started, or it is at its
start. -/
def Unstarted (c : Course σ) (k : WorkerKey) : Prop :=
  c.Running → ∀ x ∈ c.workers, x.key = k → x.phase = .starting

variable [Transform σ]

omit [Transform σ] in
theorem Winding.cancelled {c₀ c : Course σ} (h : c₀.Winding p c) (h₀ : c₀.Parting p) (hc : c.Parting p)
    {unstarted : WorkerKey → Prop}
    (hun : ∀ k, unstarted k → ∀ x ∈ c₀.workers, x.key = k → x.phase = .starting) :
    ∃ later, c.history = later ++ c₀.history ∧ ∀ x ∈ c.workers,
      Deed.Cancelled (unstarted x.key) (deedsOf x.key c₀.history) (deedsOf x.key later) := by
  obtain ⟨later, hlater, hwinds⟩ := h.winds
  refine ⟨later, hlater, fun x hx => ?_⟩
  obtain ⟨x₀, hx₀, hkey, hx₀x⟩ := hwinds x hx
  have happend : deedsOf x.key c.history = deedsOf x.key later ++ deedsOf x.key c₀.history := by
    rw [hlater]
    exact List.filterMap_append
  refine hx₀x.cancelled (fun hu => hun x.key hu x₀ hx₀ hkey) ?_ ?_
  · rw [← hkey]
    exact (h₀.parts x₀ hx₀).done
  · rw [← happend]
    exact (hc.parts x hx).sent

/-- **Prompt cancellation.** If the stop flag is up after some of the events of a run, then whatever
happens after them, every worker begins no other call, has at most one call answered and takes at most
one row, a worker that has not begun its work does neither, and a worker ends with status `Done` only if
its last call had been answered and the check of the flag after it passed before. A call begins when its
worker finds the flag down, so a flag that rises right after that still lets the call happen. The same
holds of a single worker that takes steps in any surroundings, while it is initialized as well. -/
theorem prompt_cancellation {registry : Registry σ} {o : Orchestrator σ} (hooks : Hooks)
    (bindings : Table String) (hnew : Orchestrator.new p registry = .ok o) (before after : List Event)
    (hs : ((begin o hooks bindings).run before).shared.stopped = true) :
    (∃ later, ((begin o hooks bindings).run (before ++ after)).history =
        later ++ ((begin o hooks bindings).run before).history ∧
      ∀ x ∈ ((begin o hooks bindings).run (before ++ after)).workers,
        Deed.Cancelled (((begin o hooks bindings).run before).Unstarted x.key)
          (deedsOf x.key ((begin o hooks bindings).run before).history) (deedsOf x.key later)) ∧
    ∀ (x : Worker σ) (states : List Shared), (∀ s ∈ states, s.stopped = true) →
      Deed.began ∉ (x.goThrough states).2 ∧ (x.goThrough states).2.countP Deed.isAnswered ≤ 1 ∧
        (x.goThrough states).2.countP Deed.isTook ≤ 1 := by
  refine ⟨?_, fun x states hstates => ?_⟩
  · have hp := Pipeline.wellFormed_of_validationErrors (Orchestrator.new_ok hnew).1
    have hrun : (begin o hooks bindings).run (before ++ after) =
        ((begin o hooks bindings).run before).run after := List.foldl_append
    have hparting : ∀ events, ((begin o hooks bindings).run events).Running →
        ((begin o hooks bindings).run events).Parting p := fun events => parting hnew events
    have hafter := hparting (before ++ after)
    rw [hrun] at hafter ⊢
    by_cases hr : ((begin o hooks bindings).run before).Running
    · have hbefore := hparting before hr
      have hwinding := winding_run hr hs hbefore.crew after
      exact hwinding.cancelled hbefore (hafter hwinding.running) fun k hun => hun hr
    · -- nothing has been done so far, and a start finds the flag up
      have hnil := (running_or_history_nil o hooks bindings before).resolve_left hr
      by_cases hr' : (((begin o hooks bindings).run before).run after).Running
      · have hstage : Stage p o.transforms (World.Unspoilt p) (fun c => c.Launched p)
            ((begin o hooks bindings).run before) :=
          stage_launched hnew hr
        obtain ⟨c₁, rest, hr₁, hl, hs₁, hrest⟩ :=
          exists_start hp (World.Unspoilt.early o.transforms)
            (fun _ _ h => (Orchestrator.resolved_of_new hnew h).1) hstage hr hs hr'
        rw [hrest] at hafter hr' ⊢
        rw [hnil, ← hl.history]
        exact (winding_run hr₁ hs₁ (hl.crew hp) rest).cancelled (hl.parting hp) (hafter hr')
          fun k _ x hx _ => hl.starting x hx
      · have hnil' : (((begin o hooks bindings).run before).run after).history = [] := by
          rw [← hrun] at hr' ⊢
          exact (running_or_history_nil o hooks bindings (before ++ after)).resolve_left hr'
        rw [hnil, hnil']
        exact ⟨[], rfl, fun x _ => .nil⟩
  · have hwinds := x.winds_goThrough hstates
    exact ⟨hwinds.begun, hwinds.le_one.2, hwinds.le_one.1⟩

/-- The relay is stopped while its first worker is in a read that has passed its check of the flag: it
takes the row and answers the call, and the worker does not end with `Done`. -/
theorem prompt_cancellation_relay :
    let before := [.prepare, .produce "first", .start, .inject 1 Relay.entry] ++
      List.replicate 4 (.step 0) ++ [.stop]
    let stopped := (begin Relay.orchestrator Hooks.none .empty).run before
    let ended := (begin Relay.orchestrator Hooks.none .empty).run
      (before ++ List.replicate 26 (.step 0))
    stopped.shared.stopped = true ∧ (deedsOf ⟨"first", 0⟩ ended.history).countP Deed.isTook = 1 ∧
      ∃ later, ended.history = later ++ stopped.history ∧ ∀ x ∈ ended.workers,
        Deed.Cancelled (stopped.Unstarted x.key) (deedsOf x.key stopped.history) (deedsOf x.key later) :=
  ⟨by decide +kernel, by decide +kernel,
    (prompt_cancellation Hooks.none .empty Relay.new_ok _ _ (by decide +kernel)).1⟩

end Course

end Rowflow
