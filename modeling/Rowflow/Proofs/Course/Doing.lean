import Rowflow.Proofs.Course.Custody

/-!
# What workers are doing

A worker performs one activity after the other. So what holds of a worker at any time holds of all its
activities, if it holds of the plans that they begin with and the steps of an activity keep it. This is
`Worker.Upheld`, kept by the steps of a worker (`Worker.Upheld.step`). What a worker puts into a row set
is what it is delivering (`Worker.delivery_of_gave`).
-/

namespace Rowflow

variable {σ α : Type}

namespace Phase

variable {β : Sort*}

/-- What is to be said about the activity of a worker; `idle` if there is none. -/
def doing (idle : β) (say : {α : Type} → Activity σ α → β) : Phase σ → β
  | .initializing a => say a
  | .working a => say a
  | .diverting _ a => say a
  | .disposing _ a => say a
  | _ => idle

theorem doing_mono {phase : Phase σ} {say say' : {α : Type} → Activity σ α → Prop}
    (h : phase.doing True say) (hsay : ∀ {α : Type} {a : Activity σ α}, say a → say' a) :
    phase.doing True say' := by
  cases phase
  case initializing => exact hsay h
  case working => exact hsay h
  case diverting => exact hsay h
  case disposing => exact hsay h
  all_goals trivial

end Phase

/-! ### Deliveries -/

/-- The delivery that is under way. -/
def Activity.delivery? : Activity σ α → Option Context.Delivery
  | .writing del _ => some del
  | _ => none

/-- The delivery that is under way. -/
def Phase.delivery? (phase : Phase σ) : Option Context.Delivery := phase.doing none Activity.delivery?

/-- What holds of activities tells something of the delivery. -/
theorem Phase.of_delivery {phase : Phase σ} {say : {α : Type} → Activity σ α → Prop}
    {P : Context.Delivery → Prop} (h : phase.doing True say)
    (hsay : ∀ {α : Type} {a : Activity σ α}, say a → ∀ del ∈ a.delivery?, P del) :
    ∀ del ∈ phase.delivery?, P del := by
  intro del hdel
  cases phase
  case initializing => exact hsay h del hdel
  case working => exact hsay h del hdel
  case diverting => exact hsay h del hdel
  case disposing => exact hsay h del hdel
  all_goals cases hdel

theorem Context.Delivered.gave {s s' : Shared} {c c' : Context} {del : Delivery} {i : Nat} {e : Entry}
    {r : Progress} (h : Delivered s c del (some (.gave i e)) s' c' r) :
    del.entry = e ∧ i ∈ del.pending := by
  cases h
  case partly pending _ => exact ⟨rfl, by rw [pending]; exact List.mem_cons_self⟩
  case last pending _ _ _ _ => exact ⟨rfl, by rw [pending]; exact List.mem_cons_self⟩

theorem Context.Delivered.pending_same {s s' : Shared} {c c' : Context} {del del' : Delivery}
    {deed : Option Deed} (h : Delivered s c del deed s' c' (.pending del')) :
    del'.entry = del.entry ∧ del'.purpose = del.purpose := by
  cases h
  case full => exact ⟨rfl, rfl⟩
  case partly => exact ⟨rfl, rfl⟩
  case last ended _ => rcases ended with h | ⟨p, h⟩ <;> cases h
  case nowhere ended _ => rcases ended with h | ⟨p, h⟩ <;> cases h

/-- Only an entry that is being delivered is put into a row set. -/
theorem Activity.delivery_of_gave {a : Activity σ α} {s : Shared} {c : Context} (state : σ) {i : Nat}
    {e : Entry} (h : a.deed? s c = some (.gave i e)) :
    ∃ del ∈ a.delivery?, del.entry = e ∧ i ∈ del.pending := by
  have hrefusal : ∀ r : Except TransformError Context.Delivery,
      Deed.ofRefusal r ≠ some (.gave i e) := by
    rintro (err | del) hr <;> cases hr
  rcases a with plan | ⟨stage, next⟩ | ⟨del, next⟩ | _ | _ | _
  case run =>
    cases plan
    case write => exact absurd h (hrefusal _)
    case writeTo => exact absurd h (hrefusal _)
    case divert =>
      obtain ⟨r, -, h⟩ := ofRefusal_of_divert h
      exact absurd h (hrefusal r)
    all_goals cases h
  case reading =>
    have hstep := (stepRead_spec ⟨s, c, state⟩ stage next).2
    rw [h] at hstep
    cases hstep
  case writing =>
    have hstep := Context.deliver_spec c s del
    rw [show Context.deliveryDeed? s del = some (.gave i e) from h] at hstep
    exact ⟨del, rfl, hstep.gave⟩
  all_goals cases h

theorem Worker.deed?_operation {x : Worker σ} {s : Shared} {d : Deed} (h : x.deed? s = some d)
    (kind : d.IsOperation) : x.phase.doing False fun a => a.deed? s x.context = some d := by
  have hleaving : ∀ phase : Phase σ, phase.leaving? ≠ some d := by
    intro phase hd
    unfold Phase.leaving? at hd
    split at hd <;> cases hd
    exact kind
  obtain ⟨c, state, phase⟩ := x
  rcases phase with a | r | _ | _ | a | r | ⟨m, a⟩ | m | ⟨fate, rest⟩ | ⟨fate, a⟩ | ⟨status, error⟩ |
    p | summary | _
  case initializing => exact h
  case checking =>
    simp only [deed?] at h
    split at h <;> cases h <;> exact kind
  case working =>
    rcases a.ends_or_ongoing with ⟨r, rfl⟩ | ⟨p, rfl⟩ | hgoing
    · cases h
      exact absurd kind id
    · cases h
    · exact (deed?_working hgoing).symm.trans h
  case judging => exact hleaving _ h
  case diverting =>
    rcases a.ends_or_ongoing with ⟨r, rfl⟩ | ⟨p, rfl⟩ | hgoing
    · exact absurd h (hleaving _)
    · cases h
    · exact (deed?_diverting hgoing).symm.trans h
  case closing =>
    rcases rest with _ | ⟨i, rest⟩ <;> cases h
    exact kind
  case disposing => exact h
  all_goals
    cases h
    try exact kind

/-- What the operation of an activity tells of its delivery. -/
theorem Phase.delivery_of_doing {phase : Phase σ} {say : {α : Type} → Activity σ α → Prop}
    {P : Option Context.Delivery → Prop} (h : phase.doing False say)
    (hsay : ∀ {α : Type} {a : Activity σ α}, say a → P a.delivery?) : P phase.delivery? := by
  cases phase
  case initializing => exact hsay h
  case working => exact hsay h
  case diverting => exact hsay h
  case disposing => exact hsay h
  all_goals exact absurd h id

/-- **Only an entry that is being delivered** is put into a row set. -/
theorem Worker.delivery_of_gave {x : Worker σ} {s : Shared} {i : Nat} {e : Entry}
    (h : x.deed? s = some (.gave i e)) :
    ∃ del ∈ x.phase.delivery?, del.entry = e ∧ i ∈ del.pending :=
  Phase.delivery_of_doing (P := fun o => ∃ del ∈ o, del.entry = e ∧ i ∈ del.pending)
    (deed?_operation h trivial) (Activity.delivery_of_gave x.state)

/-! ### The row that was read last -/

/-- The row that may be diverted has been read with the layout that was read last. -/
structure Context.Recalls (admits : Entry → Prop) (c : Context) : Prop where
  coherent : c.Coherent
  current : ∀ row ∈ c.currentRow, c.diverts = true ∧ ∃ layout ∈ c.inputLayout, admits ⟨layout, row⟩

namespace Context.Recalls

variable {admits : Entry → Prop} {s s' : Shared} {c c' : Context}

theorem new (spec : TransformSpec) (copy : Nat) (wiring : Wiring) (slot : Nat) :
    (Context.new spec copy wiring slot).Recalls admits :=
  ⟨Context.coherent_new _ _ _ _, fun _ hrow => by cases hrow⟩

theorem forget (h : c.Recalls admits) (he : c'.errors = c.errors) (hr : c'.currentRow = none) :
    c'.Recalls admits :=
  ⟨h.coherent.congr he, fun row hrow => by rw [hr] at hrow; cases hrow⟩

theorem keep (h : c.Recalls admits) (he : c'.errors = c.errors) (hr : c'.currentRow = c.currentRow)
    (hl : c'.inputLayout = c.inputLayout) : c'.Recalls admits := by
  refine ⟨h.coherent.congr he, fun row hrow => ?_⟩
  rw [hr] at hrow
  unfold diverts
  rw [he, hl]
  exact h.current row hrow

theorem startWrite (h : c.Recalls admits) (e : Entry) : (c.startWrite e).1.Recalls admits := by
  rcases startWrite_cases c e with ⟨-, hw⟩ | ⟨-, ⟨-, hw⟩ | ⟨-, -, hw⟩ | ⟨t, i, -, -, hw⟩⟩ <;> rw [hw]
  · exact h
  · exact h
  · exact h
  · exact h.keep rfl rfl rfl

theorem startDivert (h : c.Recalls admits) (s : Shared) (e : Entry) (why : Diagnosis) :
    (c.startDivert s e why).2.1.Recalls admits ∧
      ∀ del, (c.startDivert s e why).2.2 = .ok (.ok del) → ∃ r ∈ c.errors, del =
        ⟨⟨r.diversion.handling.errorLayout e.layout, e.row.append why.values⟩, [r.rowSet],
          .error why⟩ := by
  rcases startDivert_cases c s e why with ⟨-, hd⟩ | ⟨route, maximum, next, -, -, hd⟩ |
    ⟨route, -, -, hd⟩ | ⟨route, count, hr, -, hd⟩ <;> rw [hd]
  · exact ⟨h, fun del hdel => by cases hdel⟩
  · exact ⟨h, fun del hdel => by cases hdel⟩
  · exact ⟨h, fun del hdel => by cases hdel⟩
  · obtain ⟨hlayout, hcoherent⟩ := layoutFor_coherent (h.coherent route (by rw [hr]; rfl)) e.layout
    refine ⟨⟨?_, fun row hrow => ⟨rfl, (h.current row hrow).2⟩⟩, ?_⟩
    · rintro r ⟨⟩
      exact hcoherent
    · rintro del ⟨⟩
      refine ⟨route, hr, ?_⟩
      rw [hlayout]

theorem delivered {del : Delivery} {deed : Option Deed} {r : Progress}
    (h : Delivered s c del deed s' c' r) (hc : c.Recalls admits) : c'.Recalls admits := by
  cases h
  case last => exact hc.keep rfl rfl rfl
  case nowhere => exact hc.keep rfl rfl rfl
  all_goals exact hc

theorem read {next : Option Entry → Plan σ α} {deed : Option Deed} {a : Activity σ α}
    (h : Activity.ReadStep s c next deed s' c' a) (hc : c.Recalls admits)
    (hs : ∀ i e, s.front i = .row e → admits e) : c'.Recalls admits := by
  cases h
  case on => exact hc.keep rfl rfl rfl
  case dry => exact hc.forget rfl rfl
  case broken => exact hc.keep rfl rfl rfl
  case row i e turn counters _ found _ _ =>
    refine ⟨hc.coherent, fun row hrow => ?_⟩
    by_cases hdiverts : c.diverts = true
    · simp only [hdiverts, if_true] at hrow
      cases hrow
      exact ⟨hdiverts, e.layout, rfl, hs i e found⟩
    · simp only [if_neg hdiverts] at hrow
      exact absurd (hc.current row hrow).1 hdiverts

end Context.Recalls

/-- **Whatever an activity does**, the row that may be diverted is the one that was read last. -/
theorem Activity.step_recalls {admits : Entry → Prop} {d : Activity.Desk σ} (a : Activity σ α)
    (h : d.context.Recalls admits) (hs : ∀ i e, d.shared.front i = .row e → admits e) :
    (a.step d).1.context.Recalls admits := by
  rcases a with plan | ⟨stage, next⟩ | ⟨del, next⟩ | _ | _ | _
  case run =>
    obtain ⟨s, c, state⟩ := d
    cases plan
    case write e next =>
      simp only [step, stepPlan, startDelivery_desk]
      exact h.startWrite e
    case writeTo =>
      simp only [step, stepPlan, startDelivery_desk]
      exact h
    case divert e why next =>
      simp only [step, stepPlan, startDiversion_desk]
      exact (h.startDivert s e why).1
    case await =>
      simp only [step, stepPlan]
      split <;> exact h
    all_goals exact h
  case reading => exact .read (stepRead_spec d stage next).2 h hs
  case writing =>
    obtain ⟨s, c, state⟩ := d
    have hstep := h.delivered (Context.deliver_spec c s del)
    simp only [step]
    rcases hd : c.deliver s del with ⟨s', c', del' | r | p⟩ <;> rw [hd] at hstep <;> exact hstep
  case resting =>
    simp only [step]
    split <;> exact h
  all_goals exact h

/-! ### Invariants -/

namespace Worker

/-- Something holds of the context and the state of a worker, and something else of what it does. -/
structure Upheld (K : Context → σ → Prop) (A : {α : Type} → Context → Activity σ α → Prop)
    (x : Worker σ) : Prop where
  holds : K x.context x.state
  does : x.phase.doing True (A x.context)

/-- Steps of activities keep what holds of them, calls begin with it, and so does the diversion of the
row that has been read last. -/
structure Upholds [Transform σ] (s : Shared) (K : Context → σ → Prop)
    (A : {α : Type} → Context → Activity σ α → Prop) : Prop where
  stepped : ∀ {α : Type} (a : Activity σ α) (d : Activity.Desk σ), d.shared = s →
    K d.context d.state → A d.context a →
    K (a.step d).1.context (a.step d).1.state ∧ A (a.step d).1.context (a.step d).2
  forgotten : ∀ (c : Context) (state : σ), K c state → K { c with currentRow := none } state
  process : ∀ (c : Context) (state : σ), K c state → A c (.run (Transform.process state))
  dispose : ∀ (c : Context) (state : σ), K c state → A c (.run (Transform.dispose state))
  diverted : ∀ (c : Context) (state : σ) (layout : Layout) (row : Row) (m : String)
    (fields codes : Option String), K c state → c.inputLayout = some layout → c.currentRow = some row →
    A { c with currentRow := none } (.run (.divert ⟨layout, row⟩ ⟨1, m, fields, codes⟩ .finish))

variable [Transform σ] {s : Shared} {K : Context → σ → Prop}
  {A : {α : Type} → Context → Activity σ α → Prop}

/-- The phases in which a worker performs an activity. -/
inductive Wraps : {α : Type} → (Activity σ α → Phase σ) → Prop
  | initializing : Wraps .initializing
  | working : Wraps .working
  | diverting (message : String) : Wraps (.diverting message)
  | disposing (fate : Fate) : Wraps (.disposing fate)

omit [Transform σ] in
theorem Wraps.doing {β : Sort*} {idle : β} {say : {α : Type} → Activity σ α → β} {α : Type}
    {wrap : Activity σ α → Phase σ} (h : Wraps wrap) (a : Activity σ α) :
    (wrap a).doing idle say = say a := by
  cases h <;> rfl

/-- A worker whose activity has come to no end performs what comes next in it. -/
theorem exists_performed {γ : Type} {tell : {α : Type} → Activity σ α → Option γ} {v : γ}
    {x : Worker σ} (h : x.phase.doing none tell = some v)
    (hdone : ∀ {α : Type} (r : α), tell (.done r) = none)
    (hbroken : ∀ {α : Type} (p : Panic), tell (.broken p : Activity σ α) = none) (s : Shared) :
    ∃ (α : Type) (a : Activity σ α) (wrap : Activity σ α → Phase σ), tell a = some v ∧
      x.deed? s = a.deed? s x.context ∧ x.step s = perform ⟨s, x.context, x.state⟩ a wrap ∧
      Wraps wrap := by
  have hgoing : ∀ {α : Type} {a : Activity σ α}, tell a = some v → a.Ongoing := by
    intro α a ha
    rcases a.ends_or_ongoing with ⟨r, rfl⟩ | ⟨p, rfl⟩ | hgoing
    · exact absurd ((hdone r).symm.trans ha) nofun
    · exact absurd ((hbroken p).symm.trans ha) nofun
    · exact hgoing
  obtain ⟨c, state, phase⟩ := x
  cases phase
  case initializing a =>
    obtain ⟨h1, h2⟩ := step_ongoing.1 a (hgoing h)
    exact ⟨_, a, .initializing, h, h2, h1, .initializing⟩
  case working a =>
    obtain ⟨h1, h2⟩ := step_ongoing.2.1 a (hgoing h)
    exact ⟨_, a, .working, h, h2, h1, .working⟩
  case diverting m a =>
    obtain ⟨h1, h2⟩ := step_ongoing.2.2.1 m a (hgoing h)
    exact ⟨_, a, .diverting m, h, h2, h1, .diverting m⟩
  case disposing fate a =>
    obtain ⟨h1, h2⟩ := step_ongoing.2.2.2 fate a (hgoing h)
    exact ⟨_, a, .disposing fate, h, h2, h1, .disposing fate⟩
  all_goals cases h

theorem exists_operation {x : Worker σ} {d : Deed} (h : x.deed? s = some d) (kind : d.IsOperation) :
    ∃ (α : Type) (a : Activity σ α) (wrap : Activity σ α → Phase σ), a.deed? s x.context = some d ∧
      x.step s = perform ⟨s, x.context, x.state⟩ a wrap ∧ Wraps wrap := by
  have hdoing := deed?_operation h kind
  have hsome : x.phase.doing none (fun a => a.deed? s x.context) = some d := by
    generalize x.phase = phase at hdoing ⊢
    cases phase
    case initializing => exact hdoing
    case working => exact hdoing
    case diverting => exact hdoing
    case disposing => exact hdoing
    all_goals exact absurd hdoing id
  obtain ⟨α, a, wrap, ha, -, hstep, hwrap⟩ :=
    exists_performed hsome (fun _ => rfl) (fun _ => rfl) s
  exact ⟨α, a, wrap, ha, hstep, hwrap⟩

/-- **A step of a worker** keeps what the steps of its activities keep. -/
theorem Upheld.step (hkeep : Upholds s K A) {x : Worker σ} (h : x.Upheld K A) :
    (x.step s).2.Upheld K A := by
  have hmoves := x.step_moves s
  generalize x.deed? s = d, (x.step s).1 = s', (x.step s).2 = y at hmoves ⊢
  obtain ⟨c, state, phase⟩ := x
  obtain ⟨hholds, hdoes⟩ := h
  have hperform : ∀ {α : Type} {a : Activity σ α}, A c a →
      K (a.step ⟨s, c, state⟩).1.context (a.step ⟨s, c, state⟩).1.state ∧
        A (a.step ⟨s, c, state⟩).1.context (a.step ⟨s, c, state⟩).2 :=
    fun ha => hkeep.stepped _ ⟨s, c, state⟩ rfl hholds ha
  have hforgotten := hkeep.forgotten c state hholds
  cases hmoves
  case initializing => exact ⟨(hperform hdoes).1, (hperform hdoes).2⟩
  case working => exact ⟨(hperform hdoes).1, (hperform hdoes).2⟩
  case diverting => exact ⟨(hperform hdoes).1, (hperform hdoes).2⟩
  case disposing => exact ⟨(hperform hdoes).1, (hperform hdoes).2⟩
  case begins => exact ⟨hforgotten, hkeep.process _ state hforgotten⟩
  case bad m fields codes layout row _ hlayout hrow =>
    exact ⟨hforgotten, hkeep.diverted c state layout row m fields codes hholds hlayout hrow⟩
  case lost => exact ⟨hforgotten, trivial⟩
  case closed => exact ⟨hholds, hkeep.dispose c state hholds⟩
  case disposed fate => exact ⟨hholds, by cases fate <;> trivial⟩
  case undisposed fate _ => exact ⟨hholds, by cases fate <;> trivial⟩
  all_goals exact ⟨hholds, trivial⟩

end Worker

end Rowflow
