import Rowflow.Proofs.Dataflow.Books

/-!
# Deadlock freedom

As long as the run is not stopped and no producer is out, the workers of built-in transforms never
wait for each other in a circle. A worker that waits for room is downstream of a full row set, whose
readers cannot be waiting for rows; if they wait for room themselves they come later in the order of
the transforms, and none of them has ended, because a reader ends only when its inputs are drained.
So nobody waits for room (`Books.not_awaitsRoom`). A worker that waits for rows has an input that is
not done, and whoever writes to it comes earlier and waits for rows too (`Books.not_awaitsRows`).

- `Course.no_deadlock`: some worker that has not ended waits neither for room nor for rows, and goes
  on, at the latest when its wait for one input is over.
-/

namespace Rowflow

variable {σ : Type}

/-! ### Waiting -/

/-- The activity waits for room in a row set that is full and not done. -/
def Activity.AwaitsRoom {α : Type} (s : Shared) : Activity σ α → Prop
  | .writing del _ => ∃ i rest, del.pending = i :: rest ∧ s.admission i = .full
  | _ => False

/-- The activity waits for rows while all inputs that are left are empty and not done. -/
def Activity.AwaitsRows {α : Type} (s : Shared) (c : Context) : Activity σ α → Prop
  | .reading _ _ => c.inputs ≠ [] ∧ ∀ i ∈ c.inputs, s.front i = .empty
  | _ => False

namespace Worker

/-- The worker is at a call whose activity has the property. -/
def IsDoing (P : (α : Type) → Activity σ α → Prop) (x : Worker σ) : Prop :=
  match x.phase with
  | .initializing a => P _ a
  | .working a => P _ a
  | .diverting _ a => P _ a
  | .disposing _ a => P _ a
  | _ => False

theorem IsDoing.exists_activity {P : (α : Type) → Activity σ α → Prop} {x : Worker σ}
    (h : x.IsDoing P) : ∃ (α : Type) (a : Activity σ α), P α a ∧ x.pending = a.pending := by
  obtain ⟨c, state, phase⟩ := x
  cases phase
  case initializing a => exact ⟨_, a, h, rfl⟩
  case working a => exact ⟨_, a, h, rfl⟩
  case diverting m a => exact ⟨_, a, h, rfl⟩
  case disposing fate a => exact ⟨_, a, h, rfl⟩
  all_goals exact absurd h id

/-- The worker waits for room in a row set that is full and not done. -/
def AwaitsRoom (s : Shared) (x : Worker σ) : Prop := x.IsDoing fun _ a => a.AwaitsRoom s

/-- The worker waits for rows while all inputs that are left are empty and not done. -/
def AwaitsRows (s : Shared) (x : Worker σ) : Prop := x.IsDoing fun _ a => a.AwaitsRows s x.context

theorem AwaitsRoom.exists_full {s : Shared} {x : Worker σ} (h : x.AwaitsRoom s) :
    ∃ i ∈ x.pending, s.admission i = .full := by
  obtain ⟨α, a, ha, hpending⟩ := h.exists_activity
  rw [hpending]
  cases a
  case writing del next =>
    obtain ⟨i, rest, hp, hfull⟩ := ha
    exact ⟨i, by simp [Activity.pending, hp], hfull⟩
  all_goals exact absurd ha id

theorem AwaitsRows.inputs {s : Shared} {x : Worker σ} (h : x.AwaitsRows s) :
    x.context.inputs ≠ [] ∧ ∀ i ∈ x.context.inputs, s.front i = .empty := by
  obtain ⟨α, a, ha, -⟩ := h.exists_activity
  cases a
  case reading => exact ha
  all_goals exact absurd ha id

/-- The worker can take a step that does something, now or when a wait of its own is over. -/
def GoesOn (s : Shared) (x : Worker σ) : Prop :=
  x.waits s = false ∨ ∃ t, x.wakesAt? = some t ∧ x.waits { s with clock := t } = false

end Worker

/-! ### Plans that do not wait -/

namespace Activity

variable {s : Shared} {c : Context} {r : Role σ} {o : Outlet} {m : Marks} {ds : List Deed}
  {state : σ}

theorem waits_of_serves {ready : σ → Prop} {v : Verdict}
    {plan : Plan σ (Except TransformError Bool)} (h : plan.Serves ready v state) :
    (Activity.run plan).waits s c = false := by
  cases h <;> rfl

theorem waits_writing {α : Type} {del : Context.Delivery}
    {next : Except TransformError Unit → Plan σ α}
    (hroom : ¬ (Activity.writing del next).AwaitsRoom s) :
    (Activity.writing del next).waits s c = false := by
  simp only [waits]
  rcases hp : del.pending with _ | ⟨i, rest⟩
  · rfl
  · exact decide_eq_false fun hf => hroom ⟨i, rest, hp, hf⟩

theorem Accounts.goesOn {a : Activity σ (Except TransformError Bool)}
    (ha : a.Accounts r o m ds c state) (hroom : ¬ a.AwaitsRoom s) :
    a.waits s c = false ∨ ∃ t, a.wakesAt? = some t ∧ a.waits { s with clock := t } c = false := by
  cases ha
  case opening opens =>
    left
    cases opens
    case read => rfl
    case emit row => exact waits_of_serves row
    case exhausted => rfl
  case reading stage next _ _ =>
    rcases stage with _ | left | deadline
    · exact Or.inl rfl
    · exact Or.inl rfl
    · refine Or.inr ⟨deadline, rfl, ?_⟩
      unfold waits
      rcases c.inputs[c.turn]? with _ | i
      · rfl
      · simp
  case serving serves => exact Or.inl (waits_of_serves serves)
  case writing => exact Or.inl (waits_writing hroom)
  case settling settles =>
    left
    cases settles <;> rfl
  all_goals exact Or.inl rfl

theorem Redirects.goesOn {a : Activity σ (Except TransformError Unit)}
    (ha : a.Redirects r o m ds state) (hroom : ¬ a.AwaitsRoom s) : a.waits s c = false := by
  cases ha
  case writing => exact waits_writing hroom
  all_goals rfl

end Activity

/-- A worker that has not ended and does not wait for room goes on. -/
theorem Worker.Honours.goesOn {limited : Bool} {s : Shared} {ds : List Deed} {x : Worker Builtin}
    {made : Builtin} (h : x.Honours limited s ds made) (hlive : x.hasEnded = false)
    (hroom : ¬ x.AwaitsRoom s) : x.GoesOn s := by
  have haccounts := h.accounts
  obtain ⟨c, state, phase⟩ := x
  cases phase
  case initializing => exact absurd haccounts id
  case initialized => exact absurd haccounts id
  case working => exact Activity.Accounts.goesOn haccounts hroom
  case diverting => exact Or.inl (Activity.Redirects.goesOn haccounts hroom)
  case disposing =>
    obtain ⟨-, rfl | rfl⟩ := haccounts
    · exact Or.inl rfl
    · exact Or.inl rfl
  case ended => cases hlive
  all_goals exact Or.inl rfl

/-! ### Nobody waits for ever -/

namespace Course

variable {p : Pipeline} {limited : Bool} {c : Course Builtin}

/-- What a worker waits for, if nobody can go on. -/
def Stuck (c : Course Builtin) : Prop :=
  ∀ x ∈ c.workers, x.hasEnded = false → x.AwaitsRoom c.shared ∨ x.AwaitsRows c.shared

variable {rank : String → Nat}

theorem Books.not_awaitsRoom (hp : p.WellFormed) (hrank : p.Ranked rank) (hfed : p.SourcesUnfed)
    (hb : c.Books p limited) (hc : c.Custody p) (hstop : c.shared.stopped = false)
    (hstuck : c.Stuck) : ∀ x ∈ c.workers, ¬ x.AwaitsRoom c.shared := by
  -- whoever reads the full row set comes later, so the induction goes back along the edges
  have hall : ∀ a, ∀ x ∈ c.workers, x.key.id = a → ¬ x.AwaitsRoom c.shared := by
    refine hrank.induction_back hp fun a ih => ?_
    rintro x hx rfl hroom
    obtain ⟨i, hpending, hfull⟩ := hroom.exists_full
    obtain ⟨hopen, hwaiting, -⟩ := Shared.full_of_admission hfull
    obtain ⟨ch, hch, hwriter⟩ :=
      ((hc.kept x hx).wired.written hp).mp ((hc.kept x hx).aims i hpending)
    have hmem := List.mem_of_getElem? hch
    have hedge := (hp.edge_of_writer hmem hwriter).1
    obtain ⟨y, hy, hkey⟩ := hc.crew.exists_worker (hp.first_copy (hp.target_mem hmem))
    have htarget : ch.target = y.key.id := by rw [hkey]
    have hi : i ∈ (p.wiring y.key).inputs := Pipeline.mem_inputs.mpr ⟨ch, hch, htarget⟩
    rcases hended : y.hasEnded with _ | _
    · rcases hstuck y hy hended with hyroom | hyrows
      · rw [htarget] at hedge
        exact ih _ hedge y hy rfl hyroom
      · by_cases hin : i ∈ y.context.inputs
        · have hempty := Shared.front_eq_empty_iff.mp (hyrows.inputs.2 i hin)
          omega
        · have hdone := Shared.front_eq_done_iff.mp ((hc.kept y hy).wired.dropped i hi hin)
          rw [hopen] at hdone
          cases hdone.1
    · have hreader : y.context.spec.type ≠ "generate_rows" := by
        obtain ⟨hspec, hid⟩ := Pipeline.transform?_mem (hc.kept y hy).transform?_eq
        intro htype
        refine hfed.target_ne hp hmem hspec htype ?_
        rw [htarget, hid]
      have hdone := Shared.front_eq_done_iff.mp (hb.drained hc hstop hy hended hreader i hi)
      rw [hopen] at hdone
      cases hdone.1
  exact fun x hx => hall _ x hx rfl

/-- If nobody can go on and no producer is out, nobody waits for rows either. -/
theorem Books.not_awaitsRows (hp : p.WellFormed) (hrank : p.Ranked rank) (hfed : p.SourcesUnfed)
    (hb : c.Books p limited) (hc : c.Custody p) (hstop : c.shared.stopped = false)
    (hproducers : c.producers = []) (hstuck : c.Stuck) :
    ∀ x ∈ c.workers, ¬ x.AwaitsRows c.shared := by
  have hall : ∀ b, ∀ x ∈ c.workers, x.key.id = b → ¬ x.AwaitsRows c.shared := by
    refine hrank.induction fun b ih => ?_
    intro x hx hid hrows
    obtain ⟨hne, hempty⟩ := hrows.inputs
    obtain ⟨i, hi⟩ := List.exists_mem_of_ne_nil _ hne
    have hopen := (Shared.front_eq_empty_iff.mp (hempty i hi)).1
    obtain ⟨ch, hch, htarget⟩ := Pipeline.mem_inputs.mp ((hc.kept x hx).wired.inputs i hi)
    have htarget : ch.target = x.key.id := htarget
    rcases hwriter : ch.writer? with _ | k
    · obtain ⟨t, rfl⟩ : ∃ t, ch = .injector t := by
        rcases ch with _ | _ | t
        · cases hwriter
        · cases hwriter
        · exact ⟨t, rfl⟩
      rcases hc.injectors i t hch with hdone | hm
      · rw [hopen] at hdone
        cases hdone
      · rw [hproducers] at hm
        cases hm
    · obtain ⟨hedge, hcopy⟩ := hp.edge_of_writer (List.mem_of_getElem? hch) hwriter
      obtain ⟨y, hy, rfl⟩ := hc.crew.exists_worker hcopy
      have hykept := hc.kept y hy
      have hwritten := (hykept.wired.written hp).mpr ⟨ch, hch, hwriter⟩
      rcases hended : y.hasEnded with _ | _
      · rcases hstuck y hy hended with hyroom | hyrows
        · exact hb.not_awaitsRoom hp hrank hfed hc hstop hstuck y hy hyroom
        · rw [htarget, hid] at hedge
          exact ih _ hedge y hy rfl hyrows
      · -- whoever has ended has closed what it wrote to
        have hstands := hykept.stands
        rw [Worker.phase_of_hasEnded hended] at hstands
        obtain ⟨st, -, hs | hclosed⟩ := hstands
        · rw [hs] at hstop
          cases hstop
        · rw [hclosed i hwritten] at hopen
          cases hopen
  exact fun x hx => hall _ x hx rfl

/-- **Deadlock freedom.** In every run of built-in transforms in which no rows go to a source: if
the run is not stopped, no producer is out and some worker has not ended, then some worker that has
not ended waits neither for room in a full row set nor for rows that can still come, and it goes
on. -/
theorem no_deadlock {o : Orchestrator Builtin} {hooks : Hooks} {bindings : Table String}
    (hnew : Orchestrator.new p (.builtins id) = .ok o) (hfed : p.SourcesUnfed)
    (events : List Event) (hr : ((begin o hooks bindings).run events).Running)
    (hstop : ((begin o hooks bindings).run events).shared.stopped = false)
    (hproducers : ((begin o hooks bindings).run events).producers = [])
    (hlive : ∃ x ∈ ((begin o hooks bindings).run events).workers, x.hasEnded = false) :
    ∃ x ∈ ((begin o hooks bindings).run events).workers, x.hasEnded = false ∧
      ¬ x.AwaitsRoom ((begin o hooks bindings).run events).shared ∧
      ¬ x.AwaitsRows ((begin o hooks bindings).run events).shared ∧
      x.GoesOn ((begin o hooks bindings).run events).shared := by
  have hp := Pipeline.wellFormed_of_validationErrors (Orchestrator.new_ok hnew).1
  obtain ⟨hc, hb⟩ := books false hnew (fun h => by cases h) events hr
  generalize (begin o hooks bindings).run events = c at hc hb hstop hproducers hlive ⊢
  obtain ⟨order, hord⟩ := hc.crew.ordered
  have hrank := hp.ranked hord
  have hfree : ∃ x ∈ c.workers, x.hasEnded = false ∧ ¬ x.AwaitsRoom c.shared ∧
      ¬ x.AwaitsRows c.shared := by
    by_contra hnone
    have hstuck : c.Stuck := by
      intro x hx hended
      by_contra hfree
      rw [not_or] at hfree
      exact hnone ⟨x, hx, hended, hfree⟩
    obtain ⟨x, hx, hended⟩ := hlive
    rcases hstuck x hx hended with hroom | hrows
    · exact hb.not_awaitsRoom hp hrank hfed hc hstop hstuck x hx hroom
    · exact hb.not_awaitsRows hp hrank hfed hc hstop hproducers hstuck x hx hrows
  obtain ⟨x, hx, hended, hroom, hrows⟩ := hfree
  obtain ⟨made, hhonours⟩ := hb.accounts x hx
  exact ⟨x, hx, hended, hroom, hrows, hhonours.goesOn hended hroom⟩

/-- The relay with its row on the way. -/
def Relay.underway : Course Builtin :=
  (begin orchestrator Hooks.none .empty).run (events.take 20)

theorem no_deadlock_relay : Relay.underway.workers.size = 2 ∧
    ∃ x ∈ Relay.underway.workers, x.hasEnded = false ∧
      ¬ x.AwaitsRoom Relay.underway.shared ∧ ¬ x.AwaitsRows Relay.underway.shared ∧
      x.GoesOn Relay.underway.shared :=
  ⟨by decide +kernel,
    no_deadlock Relay.new_ok ⟨by decide, by decide, by decide⟩ (Relay.events.take 20) ⟨4, by decide +kernel⟩
      (by decide +kernel) (by decide +kernel) (by decide +kernel)⟩

end Course

end Rowflow
