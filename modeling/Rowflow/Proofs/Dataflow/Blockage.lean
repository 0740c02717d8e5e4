import Rowflow.Proofs.Course.Anytime
import Rowflow.Proofs.Dataflow.Progress

/-!
# Writers without readers

A row set is closed by those who write to it, so a writer that finds it full has to rely on somebody
to read. Readers that have ended do not come back: if the run is not stopped, whoever waits then for
room waits for ever. A transform that reads its inputs ends only when they are drained, and that
cannot happen to it; but nothing forbids rows to go to a transform that generates rows, and that one
never reads them. `blocked_behind_source` says that there is no other way to be left behind, and
`exists_stranded` that this one is real.
-/

namespace Rowflow

variable {σ : Type}

/-! ### Being left behind -/

/-- The row set that the activity is about to write to. -/
def Activity.facing? {α : Type} : Activity σ α → Option Nat
  | .writing del _ => del.pending.head?
  | _ => none

/-- The row set that the worker is about to write to. -/
def Worker.facing? (x : Worker σ) : Option Nat :=
  match x.phase with
  | .initializing a => a.facing?
  | .working a => a.facing?
  | .diverting _ a => a.facing?
  | .disposing _ a => a.facing?
  | _ => none

theorem Activity.mem_pending_of_facing {α : Type} {a : Activity σ α} {i : Nat}
    (h : a.facing? = some i) : i ∈ a.pending := by
  cases a
  case writing del next => exact List.mem_of_mem_head? h
  all_goals cases h

theorem Worker.mem_pending_of_facing {x : Worker σ} {i : Nat} (h : x.facing? = some i) :
    i ∈ x.pending := by
  obtain ⟨c, state, phase⟩ := x
  cases phase
  case initializing a => exact Activity.mem_pending_of_facing h
  case working a => exact Activity.mem_pending_of_facing h
  case diverting m a => exact Activity.mem_pending_of_facing h
  case disposing fate a => exact Activity.mem_pending_of_facing h
  all_goals cases h

namespace Course

/-- A worker that has not ended waits for room in a row set that is full and not done, although all
workers that could read it have ended. -/
structure Stranded (p : Pipeline) (c : Course σ) (x : Worker σ) (i : Nat) : Prop where
  mem : x ∈ c.workers
  live : x.hasEnded = false
  facing : x.facing? = some i
  full : c.shared.admission i = .full
  gone : ∀ y ∈ c.workers, i ∈ (p.wiring y.key).inputs → y.hasEnded = true

end Course

/-! ### Before the start -/

/-- The activity does nothing but look around. -/
inductive Activity.Quiet {α : Type} : Activity σ α → Prop where
  | run (plan : Plan σ α) (silent : plan.Silent) : Quiet (.run plan)
  | done (answer : α) : Quiet (.done answer)

theorem Activity.Quiet.step {α : Type} {a : Activity σ α} (h : a.Quiet) (d : Activity.Desk σ) :
    (a.step d).2.Quiet := by
  cases h
  case run plan silent =>
    cases silent
    case finish answer => exact .done answer
    case look next rest => exact .run _ (rest _)
  case done answer => exact .done answer

theorem Phase.Unstarted.facing_eq_none {x : Worker σ} (h : x.phase.Unstarted Activity.Quiet) :
    x.facing? = none := by
  obtain ⟨c, state, phase⟩ := x
  cases h
  case initializing a quiet => cases quiet <;> rfl
  case disposing a quiet => cases quiet <;> rfl
  all_goals rfl

/-- Built-in transforms look around, before the start, and do nothing else. -/
theorem Builtin.unstarted (p : Pipeline) (ts : TransformMap Builtin) :
    Worker.Lasting p ts (fun _ => True) (·.reports = []) (·.phase.Unstarted Activity.Quiet) :=
  Phase.Unstarted.lasting (fun _ d h => h.step d) (fun _ => .run _ (.finish ()))
    (fun state => .run _ (silent_init state)) p ts

/-! ### Who is left behind -/

namespace Course

variable {p : Pipeline}

/-- A worker of a running course is left behind by none but a source. -/
theorem Stranded.target_source {c : Course Builtin} {limited : Bool} (hp : p.WellFormed)
    (hb : c.Books p limited) (hc : c.Custody p) (hstop : c.shared.stopped = false)
    {x : Worker Builtin} {i : Nat} (h : c.Stranded p x i) :
    ∃ ch, p.channels[i]? = some ch ∧ ∃ t ∈ p.transforms, t.id = ch.target ∧
      t.type = "generate_rows" := by
  have hkept := hc.kept x h.mem
  obtain ⟨ch, hch, -⟩ :=
    (hkept.wired.written hp).mp (hkept.aims i (Worker.mem_pending_of_facing h.facing))
  obtain ⟨y, hy, hkey⟩ := hc.crew.exists_worker
    (hp.first_copy (hp.target_mem (List.mem_of_getElem? hch)))
  have hi : i ∈ (p.wiring y.key).inputs := Pipeline.mem_inputs.mpr ⟨ch, hch, by rw [hkey]⟩
  obtain ⟨hspec, hid⟩ := Pipeline.transform?_mem (hc.kept y hy).transform?_eq
  refine ⟨ch, hch, y.context.spec, hspec, by rw [hid, hkey], ?_⟩
  -- a reader would have ended only if the row set were drained and done
  by_contra hreader
  obtain ⟨hdone, -⟩ := Shared.front_eq_done_iff.mp
    (hb.drained hc hstop hy (h.gone y hy hi) hreader i hi)
  rw [(Shared.full_of_admission h.full).1] at hdone
  cases hdone

/-- **Only sources leave writers behind.** In every state of every run of built-in transforms that is
not stopped: if a worker that has not ended waits for room in a full row set all of whose readers
have ended, then that row set leads to a transform that generates rows. -/
theorem blocked_behind_source {o : Orchestrator Builtin} {hooks : Hooks} {bindings : Table String}
    (hnew : Orchestrator.new p (.builtins id) = .ok o) (events : List Event)
    (hstop : ((begin o hooks bindings).run events).shared.stopped = false)
    {x : Worker Builtin} {i : Nat} (h : ((begin o hooks bindings).run events).Stranded p x i) :
    ∃ ch, p.channels[i]? = some ch ∧ ∃ t ∈ p.transforms, t.id = ch.target ∧
      t.type = "generate_rows" := by
  by_cases hr : ((begin o hooks bindings).run events).Running
  · have hp := Pipeline.wellFormed_of_validationErrors (Orchestrator.new_ok hnew).1
    obtain ⟨hc, hb⟩ := books false hnew (fun h => by cases h) events hr
    exact h.target_source hp hb hc hstop
  · -- before the start nobody writes
    have hrest := (anytime hnew (Builtin.unstarted p o.transforms).each (P := fun _ => True)
      ⟨fun _ _ _ _ => trivial, fun _ _ _ _ _ => trivial, fun _ _ _ _ _ _ _ => trivial,
        fun _ _ _ _ _ => trivial⟩ (fun _ _ => trivial) events fun _ _ _ => trivial).resting hr
    have hnone := (hrest.property.workers x h.mem).facing_eq_none
    rw [h.facing] at hnone
    cases hnone

/-! ### A standstill -/

namespace Standstill

/-- A source with three rows, and one without rows behind it; row sets hold one row. -/
def pipeline : Pipeline where
  engine := { rowSetSize := some 1 }
  transforms := [
    { id := "a"
      type := "generate_rows"
      options := .ofList [("field", .string "n"),
        ("values", .sequence [.integer 1, .integer 2, .integer 3])] },
    { id := "b"
      type := "generate_rows"
      options := .ofList [("field", .string "n"), ("values", .sequence [])] }]
  hops := [{ origin := "a", target := "b" }]

/-- The run of the two sources. -/
def orchestrator : Orchestrator Builtin where
  pipeline := pipeline
  transforms := ((Registry.builtins id).resolve pipeline).toOption.getD .empty
  world := { shared := { pipeline := pipeline.name, poll := 50000 } }
  built := .ofList (pipeline.ids.map (·, 1))

theorem new_ok : Orchestrator.new pipeline (.builtins id) = .ok orchestrator := by rfl

/-- The second source ends, while the first one fills the row set between them. -/
def events : List Event :=
  [.prepare, .start] ++ List.replicate 14 (.step 0) ++ List.replicate 14 (.step 1)

/-- Nothing can happen any more. -/
def standing : Course Builtin := (begin orchestrator Hooks.none .empty).run events

/-- The worker of the first source. -/
def writer : Worker Builtin := standing.workers[0]?.get (by decide +kernel)

theorem stranded : standing.Stranded pipeline writer 0 where
  mem := Array.mem_of_getElem? (Option.some_get _).symm
  live := by decide +kernel
  facing := by decide +kernel
  full := by decide +kernel
  gone := by decide +kernel

end Standstill

theorem blocked_behind_source_standstill :
    Standstill.standing.shared.stopped = false ∧
      Standstill.standing.Stranded Standstill.pipeline Standstill.writer 0 ∧
      ∃ ch, Standstill.pipeline.channels[0]? = some ch ∧ ∃ t ∈ Standstill.pipeline.transforms,
        t.id = ch.target ∧ t.type = "generate_rows" :=
  ⟨by decide +kernel, Standstill.stranded,
    blocked_behind_source Standstill.new_ok Standstill.events (by decide +kernel)
      Standstill.stranded⟩

/-- It is not so that no writer is ever left behind. -/
theorem exists_stranded : ¬ ∀ (p : Pipeline) (o : Orchestrator Builtin) (hooks : Hooks)
    (bindings : Table String) (events : List Event) (x : Worker Builtin) (i : Nat),
    Orchestrator.new p (.builtins id) = .ok o →
    ((begin o hooks bindings).run events).shared.stopped = false →
    ¬ ((begin o hooks bindings).run events).Stranded p x i :=
  fun h => h Standstill.pipeline Standstill.orchestrator Hooks.none .empty Standstill.events
    Standstill.writer 0 Standstill.new_ok (by decide +kernel) Standstill.stranded

end Course

end Rowflow
