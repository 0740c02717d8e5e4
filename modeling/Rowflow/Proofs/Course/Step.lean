import Rowflow.Proofs.Course.Operations

/-!
# What a step can do

`Worker.Moves` lists what a step of a worker can do, one case for each way in which a phase goes on, and
`Worker.step_moves` is the one place where the definition of a step is gone through: what steps keep is
shown by the cases of `Moves`.

`Effect s s' c c' d` says what a step with the deed `d` does to the shared state `s` and to the
context `c` of the worker that takes it: row sets and reports change as the deed says, a stop is never
withdrawn, errors are counted under the worker's own slot, time does not pass, and the context keeps
what the wiring gave it, apart from inputs that have ended (`Worker.step_effect`).
-/

namespace Rowflow

/-! ### Effects -/

/-- The part of an error route that never changes. -/
def ErrorRoute.fixed (r : ErrorRoute) : Nat × Nat × String × ErrorHandling :=
  (r.rowSet, r.slot, r.diversion.transform, r.diversion.handling)

/-- What a diversion remembers is the layout of diverted rows for the input layout that came last. -/
def Diversion.Coherent (d : Diversion) : Prop :=
  ∀ last layout, d.known = some (last, layout) → layout = d.handling.errorLayout last

namespace Context

/-- The diversion of the worker, if it has one, remembers what it would compute. -/
def Coherent (c : Context) : Prop := ∀ r ∈ c.errors, r.diversion.Coherent

theorem Coherent.congr {c c' : Context} (h : c.Coherent) (he : c'.errors = c.errors) :
    c'.Coherent := by
  unfold Coherent
  rwa [he]

theorem coherent_new (spec : TransformSpec) (copy : Nat) (wiring : Wiring) (slot : Nat) :
    (Context.new spec copy wiring slot).Coherent := by
  rintro route hroute last layout hknown
  have hfresh : route.diversion.known = none := by
    rcases he : spec.errorHandling with _ | handling <;> rcases hw : wiring.errors with _ | j <;>
      simp [Context.new, he, hw] at hroute
    rw [← hroute]
  rw [hfresh] at hknown
  cases hknown

/-- The context `c` leads to `c'` in one step: the wiring stays, and an input that is given up has
ended. -/
structure Leads (s : Shared) (c c' : Context) : Prop where
  spec : c'.spec = c.spec
  copy : c'.copy = c.copy
  outputs : c'.outputs = c.outputs
  listeners : c'.listeners = c.listeners
  errors : c'.errors.map ErrorRoute.fixed = c.errors.map ErrorRoute.fixed
  inputs : c'.inputs.Sublist c.inputs
  dropped : ∀ i ∈ c.inputs, i ∉ c'.inputs → s.front i = .done
  coherent : c.Coherent → c'.Coherent

theorem Leads.refl (s : Shared) (c : Context) : c.Leads s c :=
  ⟨rfl, rfl, rfl, rfl, rfl, List.Sublist.refl _, fun _ h hn => absurd h hn, id⟩

theorem Leads.key {s : Shared} {c c' : Context} (h : c.Leads s c') : c'.key = c.key := by
  unfold Context.key
  rw [h.spec, h.copy]

theorem Leads.written {s : Shared} {c c' : Context} (h : c.Leads s c') : c'.written = c.written := by
  have he : c'.errors.map (·.rowSet) = c.errors.map (·.rowSet) := by
    have := congrArg (Option.map Prod.fst) h.errors
    simpa only [Option.map_map, Function.comp_def, ErrorRoute.fixed] using this
  unfold Context.written
  rw [h.outputs, he]

/-- What a step with a deed does to the shared state and to the context of its worker. -/
structure Effect (s s' : Shared) (c c' : Context) (d : Option Deed) : Prop where
  leads : c.Leads s c'
  rowSets : s'.rowSets = Deed.act? s.rowSets d
  stopped : s.stopped = true → s'.stopped = true
  counts : ∀ slot, (∀ r ∈ c.errors, r.slot ≠ slot) → s'.errorCount slot = s.errorCount slot
  grown : ∀ slot, (s.errorCount slot).toNat ≤ (s'.errorCount slot).toNat
  slots : s'.errorCounts.size = s.errorCounts.size
  reports : s'.reports = Deed.post? s.reports d
  clock : s'.clock = s.clock

theorem Effect.same {s s' : Shared} (c : Context) {d : Option Deed} (hd : Deed.Idle d)
    (h : s.Same s') : Effect s s' c c d where
  leads := .refl s c
  rowSets := h.rowSets.trans (hd _ []).1.symm
  stopped hs := h.stopped.trans hs
  counts slot _ := Shared.errorCount_congr h.errorCounts slot
  grown slot := (Shared.errorCount_congr h.errorCounts slot).symm ▸ Nat.le_refl _
  slots := by rw [h.errorCounts]
  reports := h.reports.trans (hd #[] _).2.symm
  clock := h.clock

theorem Effect.none (s : Shared) (c : Context) {d : Option Deed} (hd : Deed.Idle d) :
    Effect s s c c d :=
  .same c hd (.refl s)

theorem Effect.record (s : Shared) (c : Context) (k : WorkerKey) (e : Episode) :
    Effect s (s.record k e) c c Option.none :=
  ⟨.refl s c, rfl, id, fun _ _ => rfl, fun _ => Nat.le_refl _, rfl, rfl, rfl⟩

theorem Effect.stop {s s₀ : Shared} (c : Context) {d : Option Deed} (hd : Deed.Idle d)
    (h : s.Same s₀) (requestedBy : String) : Effect s (s₀.requestStop requestedBy) c c d := by
  obtain ⟨h1, h2, h3⟩ := s₀.requestStop_fixed requestedBy
  have hsame := Shared.errorCount_congr (h3.trans h.errorCounts)
  refine ⟨.refl s c, (h1.trans h.rowSets).trans (hd _ []).1.symm, fun _ => h2, fun slot _ => hsame slot,
    fun slot => (hsame slot).symm ▸ Nat.le_refl _, ?_, ?_, ?_⟩
  · rw [h3, h.errorCounts]
  · rw [s₀.reports_requestStop, h.reports, (hd #[] _).2]
  · rw [s₀.clock_requestStop, h.clock]

theorem Effect.of_leads {s : Shared} {c c' : Context} {d : Option Deed} (h : c.Leads s c')
    (hd : Deed.Idle d) : Effect s s c c' d :=
  ⟨h, (hd _ []).1.symm, id, fun _ _ => rfl, fun _ => Nat.le_refl _, rfl, (hd #[] _).2.symm, rfl⟩

theorem Leads.of_fixed {s : Shared} {c c' : Context} (h1 : c'.spec = c.spec) (h2 : c'.copy = c.copy)
    (h3 : c'.outputs = c.outputs) (h4 : c'.listeners = c.listeners) (h5 : c'.errors = c.errors)
    (h6 : c'.inputs = c.inputs) : c.Leads s c' :=
  ⟨h1, h2, h3, h4, by rw [h5], by rw [h6], fun i hi hn => absurd hi (by rwa [h6] at hn),
    fun h => h.congr h5⟩

/-! ### Writing -/

theorem startWrite_leads (s : Shared) (c : Context) (e : Entry) : c.Leads s (c.startWrite e).1 := by
  rcases startWrite_cases c e with ⟨-, h⟩ | ⟨-, ⟨-, h⟩ | ⟨-, -, h⟩ | ⟨t, i, -, -, h⟩⟩ <;> rw [h]
  · exact .refl s c
  · exact .refl s c
  · exact .refl s c
  · exact .of_fixed rfl rfl rfl rfl rfl rfl

theorem layoutFor_fixed (d : Diversion) (l : Layout) :
    (d.layoutFor l).2.transform = d.transform ∧ (d.layoutFor l).2.handling = d.handling := by
  unfold Diversion.layoutFor
  dsimp only
  split
  · split <;> exact ⟨rfl, rfl⟩
  · exact ⟨rfl, rfl⟩

theorem layoutFor_coherent {d : Diversion} (hd : d.Coherent) (l : Layout) :
    (d.layoutFor l).1 = d.handling.errorLayout l ∧ (d.layoutFor l).2.Coherent := by
  have hmake : Diversion.Coherent { d with known := some (l, d.handling.errorLayout l) } := by
    rintro last layout ⟨⟩
    rfl
  unfold Diversion.layoutFor
  dsimp only
  split
  · rename_i last layout hk
    split
    · rename_i hl
      subst hl
      exact ⟨hd _ _ hk, hd⟩
    · exact ⟨rfl, hmake⟩
  · exact ⟨rfl, hmake⟩

theorem idle_ofRefusal {α : Type} (r : Except TransformError α) : Deed.Idle (Deed.ofRefusal r) := by
  rcases r with e | a <;> exact fun _ _ => ⟨rfl, rfl⟩

theorem startDivert_effect (c : Context) (s : Shared) (e : Entry) (why : Diagnosis) :
    Effect s (c.startDivert s e why).1 c (c.startDivert s e why).2.1
      ((c.startDivert s e why).2.2.toOption.bind Deed.ofRefusal) := by
  rcases startDivert_cases c s e why with ⟨-, h⟩ | ⟨route, maximum, next, -, -, h⟩ |
    ⟨route, -, -, h⟩ | ⟨route, count, hr, hallowed, h⟩ <;> rw [h]
  · exact .none s c fun _ _ => ⟨rfl, rfl⟩
  · exact .same c (fun _ _ => ⟨rfl, rfl⟩) (s.same_sayAll route.diversion.refusal)
  · exact .none s c fun _ _ => ⟨rfl, rfl⟩
  · refine ⟨⟨rfl, rfl, rfl, rfl, ?_, List.Sublist.refl _, fun _ h hn => absurd h hn, ?_⟩, rfl, id,
      ?_, fun slot => ?_, ?_, rfl, rfl⟩
    · rw [hr]
      simp only [Option.map_some, ErrorRoute.fixed, layoutFor_fixed]
    · rintro hc r ⟨⟩
      exact (layoutFor_coherent (hc route (by rw [hr]; rfl)) e.layout).2
    · intro slot hs
      have hne : route.slot ≠ slot := hs route (by rw [hr]; rfl)
      simp only [Shared.errorCount]
      rw [Array.getElem?_setIfInBounds_ne hne]
    · have hsum := (ErrorHandling.reserve_ok hallowed).1
      simp only [Shared.errorCount] at hsum ⊢
      rw [Array.getElem?_setIfInBounds]
      split
      · subst slot
        split
        · exact Nat.le_trans (Nat.le_add_right _ _) (Nat.le_of_eq hsum.symm)
        · exact Nat.le_of_eq (by rw [Array.getElem?_eq_none (Nat.le_of_not_lt ‹_›)])
      · exact Nat.le_refl _
    · exact Array.size_setIfInBounds

theorem Delivered.effect {s s' : Shared} {c c' : Context} {d : Delivery} {deed : Option Deed}
    {r : Progress} (h : Delivered s c d deed s' c' r) : Effect s s' c c' deed := by
  cases h
  case full => exact .none s c fun _ _ => ⟨rfl, rfl⟩
  case refused => exact .none s c fun _ _ => ⟨rfl, rfl⟩
  case partly => exact ⟨.refl s c, rfl, id, fun _ _ => rfl, fun _ => Nat.le_refl _, rfl, rfl, rfl⟩
  case last hs _ _ =>
    have hsame : ∀ slot, s'.errorCount slot = s.errorCount slot :=
      Shared.errorCount_congr hs.errorCounts
    exact ⟨.of_fixed rfl rfl rfl rfl rfl rfl, hs.rowSets, fun h => hs.stopped.trans h,
      fun slot _ => hsame slot, fun slot => (hsame slot).symm ▸ Nat.le_refl _,
      congrArg Array.size hs.errorCounts, hs.reports, hs.clock⟩
  case nowhere hs _ _ =>
    have hsame := Shared.errorCount_congr hs.errorCounts
    exact ⟨.of_fixed rfl rfl rfl rfl rfl rfl, hs.rowSets, fun h => hs.stopped.trans h,
      fun slot _ => hsame slot, fun slot => (hsame slot).symm ▸ Nat.le_refl _,
      congrArg Array.size hs.errorCounts, hs.reports, hs.clock⟩

end Context

/-! ### Activities and workers -/

namespace Activity

variable {σ α : Type}

/-- Whether an activity has come to no end. -/
def Ongoing : Activity σ α → Prop
  | .done _ | .broken _ => False
  | _ => True

theorem ends_or_ongoing (a : Activity σ α) : (∃ r, a = .done r) ∨ (∃ p, a = .broken p) ∨ a.Ongoing := by
  cases a
  case done r => exact Or.inl ⟨r, rfl⟩
  case broken p => exact Or.inr (Or.inl ⟨p, rfl⟩)
  all_goals exact Or.inr (Or.inr trivial)

/-- What a step of an activity does to the desk it is performed at. -/
abbrev Does (d d' : Desk σ) (deed : Option Deed) : Prop :=
  Context.Effect d.shared d'.shared d.context d'.context deed

theorem ReadStep.effect {s s' : Shared} {c c' : Context} {next : Option Entry → Plan σ α}
    {deed : Option Deed} {a : Activity σ α} (h : ReadStep s c next deed s' c' a) :
    Context.Effect s s' c c' deed := by
  have htaken : ∀ i e s' c', (s.advance i).Same s' → c.Leads s c' →
      Context.Effect s s' c c' (some (.took i e)) := by
    intro i e s' c' hs hc
    have hsame : ∀ slot, s'.errorCount slot = s.errorCount slot :=
      Shared.errorCount_congr hs.errorCounts
    exact ⟨hc, hs.rowSets, fun h => hs.stopped.trans h, fun slot _ => hsame slot,
      fun slot => (hsame slot).symm ▸ Nat.le_refl _, congrArg Array.size hs.errorCounts, hs.reports,
      hs.clock⟩
  cases h
  case on inputs turn stage fewer dropped =>
    exact .of_leads ⟨rfl, rfl, rfl, rfl, rfl, fewer, dropped, id⟩ fun _ _ => ⟨rfl, rfl⟩
  case dry => exact .of_leads (.of_fixed rfl rfl rfl rfl rfl rfl) fun _ _ => ⟨rfl, rfl⟩
  case row _ hs => exact htaken _ _ _ _ hs (.of_fixed rfl rfl rfl rfl rfl rfl)
  case broken _ hs => exact htaken _ _ _ _ hs (.of_fixed rfl rfl rfl rfl rfl rfl)

theorem startDelivery_desk (d : Desk σ) (r : Except TransformError Context.Delivery)
    (next : Except TransformError Unit → Plan σ α) : (startDelivery d r next).1 = d := by
  unfold startDelivery
  rcases r with e | delivery <;> rfl

theorem startDiversion_desk (d : Desk σ) (r : Except Panic (Except TransformError Context.Delivery))
    (next : Except TransformError Unit → Plan σ α) : (startDiversion d r next).1 = d := by
  rcases r with p | r
  · rfl
  · exact startDelivery_desk d r next

theorem stepPlan_does (d : Desk σ) (plan : Plan σ α) :
    Does d (stepPlan d plan).1 ((Activity.run plan : Activity σ α).deed? d.shared d.context) := by
  obtain ⟨s, c, state⟩ := d
  have hidle : Deed.Idle none := fun _ _ => ⟨rfl, rfl⟩
  rcases plan with _ | _ | _ | _ | _ | ⟨e, next⟩ | ⟨target, e, next⟩ | ⟨e, why, next⟩ | _ | ⟨m, next⟩ |
    ⟨n, next⟩ | _ | ⟨m, next⟩ | _
  case write =>
    simp only [stepPlan, startDelivery_desk, deed?]
    exact Context.Effect.of_leads (Context.startWrite_leads s c e) (Context.idle_ofRefusal _)
  case writeTo =>
    simp only [stepPlan, startDelivery_desk, deed?]
    exact Context.Effect.none s c (Context.idle_ofRefusal _)
  case divert =>
    simp only [stepPlan, startDiversion_desk, deed?]
    exact Context.startDivert_effect c s e why
  case stopAll => exact .stop c hidle (.refl s) c.name
  case report => exact .same c hidle (s.same_say m)
  case note => exact .same c hidle (s.same_note c.name n)
  case mark => exact .same c hidle (s.same_reach _)
  case await =>
    simp only [stepPlan]
    split <;> exact .none s c hidle
  all_goals exact .none s c hidle

/-- **A step of an activity** does what its deed says. -/
theorem step_does (d : Desk σ) (a : Activity σ α) :
    Does d (a.step d).1 (a.deed? d.shared d.context) := by
  rcases a with plan | ⟨stage, next⟩ | ⟨delivery, next⟩ | ⟨deadline, next⟩ | answer | p
  · exact stepPlan_does d plan
  · exact (stepRead_spec d stage next).2.effect
  · obtain ⟨s, c, state⟩ := d
    have h := (Context.deliver_spec c s delivery).effect
    simp only [step]
    rcases hd : c.deliver s delivery with ⟨s', c', _ | _ | _⟩ <;> rw [hd] at h <;> exact h
  · simp only [step]
    split <;> exact Context.Effect.none _ _ fun _ _ => ⟨rfl, rfl⟩
  all_goals exact Context.Effect.none _ _ fun _ _ => ⟨rfl, rfl⟩

end Activity

namespace Worker

variable {σ : Type}

theorem perform_shared {α : Type} (d : Activity.Desk σ) (a : Activity σ α)
    (wrap : Activity σ α → Phase σ) :
    perform d a wrap = ((a.step d).1.shared, ⟨(a.step d).1.context, (a.step d).1.state,
      wrap (a.step d).2⟩) := by
  unfold perform
  rcases a.step d with ⟨⟨s, c, state⟩, a'⟩
  rfl

theorem deed?_working {s : Shared} {c : Context} {state : σ}
    {a : Activity σ (Except TransformError Bool)} (h : a.Ongoing) :
    deed? s ⟨c, state, .working a⟩ = a.deed? s c := by
  cases a
  case done => exact absurd h id
  all_goals rfl

theorem deed?_diverting {s : Shared} {c : Context} {state : σ} {m : String}
    {a : Activity σ (Except TransformError Unit)} (h : a.Ongoing) :
    deed? s ⟨c, state, .diverting m a⟩ = a.deed? s c := by
  cases a
  case done => exact absurd h id
  all_goals rfl

variable [Transform σ]

theorem step_ongoing {s : Shared} {c : Context} {state : σ} :
    (∀ a, a.Ongoing → step s ⟨c, state, .initializing a⟩ =
        perform ⟨s, c, state⟩ a .initializing ∧
      deed? s ⟨c, state, .initializing a⟩ = a.deed? s c) ∧
    (∀ a, a.Ongoing → step s ⟨c, state, .working a⟩ = perform ⟨s, c, state⟩ a .working ∧
      deed? s ⟨c, state, .working a⟩ = a.deed? s c) ∧
    (∀ m a, a.Ongoing → step s ⟨c, state, .diverting m a⟩ =
        perform ⟨s, c, state⟩ a (.diverting m) ∧
      deed? s ⟨c, state, .diverting m a⟩ = a.deed? s c) ∧
    ∀ fate a, a.Ongoing → step s ⟨c, state, .disposing fate a⟩ =
        perform ⟨s, c, state⟩ a (.disposing fate) ∧
      deed? s ⟨c, state, .disposing fate a⟩ = a.deed? s c := by
  refine ⟨fun a h => ?_, fun a h => ?_, fun m a h => ?_, fun fate a h => ?_⟩
  all_goals
    cases a
    case done => exact absurd h id
    case broken => exact absurd h id
    all_goals exact ⟨rfl, rfl⟩

/-- **What a step of a worker can do** in a phase: its deed, the shared state after it and the worker
after it. -/
inductive Moves (s : Shared) (c : Context) (state : σ) :
    Phase σ → Option Deed → Shared → Worker σ → Prop where
  | initializing (a : Activity σ (Except TransformError Unit)) (going : a.Ongoing) :
    Moves s c state (.initializing a) (a.deed? s c) (a.step ⟨s, c, state⟩).1.shared
      ⟨(a.step ⟨s, c, state⟩).1.context, (a.step ⟨s, c, state⟩).1.state,
        .initializing (a.step ⟨s, c, state⟩).2⟩
  | initialized (r : Except TransformError Unit) :
    Moves s c state (.initializing (.done r)) none (s.record c.key (.initialized r))
      ⟨c, state, .initialized r⟩
  | uninitialized (p : Panic) :
    Moves s c state (.initializing (.broken p)) none
      (s.record c.key (.initialized (.error (.fatal p.render))))
      ⟨c, state, .initialized (.error (.fatal p.render))⟩
  | waits (r : Except TransformError Unit) :
    Moves s c state (.initialized r) none s ⟨c, state, .initialized r⟩
  | starts : Moves s c state .starting none
      ((s.record c.key .started).say (.workerStarted s.pipeline c.spec.id c.copy))
      ⟨c, state, .checking⟩
  | stops (flag : s.stopped = true) :
    Moves s c state .checking (some (.left .stopped)) s ⟨c, state, leave c (.ran .stopped none)⟩
  | begins (flag : s.stopped = false) : Moves s c state .checking (some .began) s
      ⟨{ c with currentRow := none }, state, .working (.run (Transform.process state))⟩
  | working (a : Activity σ (Except TransformError Bool)) (going : a.Ongoing) :
    Moves s c state (.working a) (a.deed? s c) (a.step ⟨s, c, state⟩).1.shared
      ⟨(a.step ⟨s, c, state⟩).1.context, (a.step ⟨s, c, state⟩).1.state,
        .working (a.step ⟨s, c, state⟩).2⟩
  | answers (r : Except TransformError Bool) :
    Moves s c state (.working (.done r)) (some (.answered r)) s ⟨c, state, .judging r⟩
  | panics (p : Panic) : Moves s c state (.working (.broken p)) none s
      ⟨c, state, .failing ("transform panicked: " ++ p.render)⟩
  | more : Moves s c state (.judging (.ok true)) none s ⟨c, state, .checking⟩
  | exhausted : Moves s c state (.judging (.ok false))
      (some (.left (if s.stopped then .stopped else .done))) s
      ⟨c, state, leave c (.ran (if s.stopped then .stopped else .done) none)⟩
  | cut (e : TransformError) (stop : e.isStop = true) :
    Moves s c state (.judging (.error e)) (some (.left .stopped)) s
      ⟨c, state, leave c (.ran .stopped none)⟩
  | bad (m : String) (f code : Option String) (layout : Layout) (row : Row)
      (diverts : c.diverts = true) (inputLayout : c.inputLayout = some layout)
      (currentRow : c.currentRow = some row) :
    Moves s c state (.judging (.error (.row m f code))) none s
      ⟨{ c with currentRow := none }, state,
        .diverting m (.run (.divert ⟨layout, row⟩ ⟨1, m, f, code⟩ .finish))⟩
  | lost (m : String) (f code : Option String) (diverts : c.diverts = true)
      (nothing : c.inputLayout = none ∨ c.currentRow = none) :
    Moves s c state (.judging (.error (.row m f code))) none s
      ⟨{ c with currentRow := none }, state, .failing (m ++ ": " ++ m)⟩
  | failed (e : TransformError) (failure : e.isStop = false)
      (undiverted : ∀ m f code, e = .row m f code → c.diverts = false) :
    Moves s c state (.judging (.error e)) none s ⟨c, state, .failing e.render⟩
  | diverting (m : String) (a : Activity σ (Except TransformError Unit)) (going : a.Ongoing) :
    Moves s c state (.diverting m a) (a.deed? s c) (a.step ⟨s, c, state⟩).1.shared
      ⟨(a.step ⟨s, c, state⟩).1.context, (a.step ⟨s, c, state⟩).1.state,
        .diverting m (a.step ⟨s, c, state⟩).2⟩
  | diverted (m : String) :
    Moves s c state (.diverting m (.done (.ok ()))) none s ⟨c, state, .checking⟩
  | interrupted (m : String) (e : TransformError) (stop : e.isStop = true) :
    Moves s c state (.diverting m (.done (.error e))) (some (.left .stopped)) s
      ⟨c, state, leave c (.ran .stopped none)⟩
  | undiverted (m : String) (e : TransformError) (failure : e.isStop = false) :
    Moves s c state (.diverting m (.done (.error e))) none s
      ⟨c, state, .failing (m ++ ": " ++ e.render)⟩
  | crashes (m : String) (p : Panic) :
    Moves s c state (.diverting m (.broken p)) none s ⟨c, state, .crashed p⟩
  | fails (m : String) : Moves s c state (.failing m) (some (.left .errored))
      ((s.say (.workerFailed c.spec.id c.copy m)).requestStop c.name)
      ⟨c, state, leave c (.ran .errored (some m))⟩
  | closes (fate : Fate) (i : Nat) (rest : List Nat) :
    Moves s c state (.closing fate (i :: rest)) (some (.closed i)) (s.finish i)
      ⟨c, state, .closing fate rest⟩
  | closed (fate : Fate) :
    Moves s c state (.closing fate []) none (s.record c.key .disposed)
      ⟨c, state, .disposing fate (.run (Transform.dispose state))⟩
  | disposing (fate : Fate) (a : Activity σ Unit) (going : a.Ongoing) :
    Moves s c state (.disposing fate a) (a.deed? s c) (a.step ⟨s, c, state⟩).1.shared
      ⟨(a.step ⟨s, c, state⟩).1.context, (a.step ⟨s, c, state⟩).1.state,
        .disposing fate (a.step ⟨s, c, state⟩).2⟩
  | disposed (fate : Fate) :
    Moves s c state (.disposing fate (.done ())) none s ⟨c, state, afterDisposal fate⟩
  | undisposed (fate : Fate) (p : Panic) :
    Moves s c state (.disposing fate (.broken p)) none
      (s.say (.disposePanicked c.spec.id c.copy p.render)) ⟨c, state, afterDisposal fate⟩
  | reports (status : WorkerStatus) (error : Option String) :
    Moves s c state (.reporting status error) none
      ((s.say (.workerFinished c.spec.id c.copy status.title c.counters.read c.counters.written
        c.counters.errors)).reach (.finished c.name))
      ⟨c, state, .sending ⟨c.key, status, c.counters, error⟩⟩
  | collapses (p : Panic) :
    Moves s c state (.crashed p) (some (.left .errored)) (s.requestStop c.name)
      ⟨c, state, .sending ⟨c.key, .errored, {}, some p.render⟩⟩
  | sends (summary : Summary) :
    Moves s c state (.sending summary) (some (.sent summary))
      { s with reports := s.reports ++ [summary] } ⟨c, state, .ended⟩
  | ended : Moves s c state .ended none s ⟨c, state, .ended⟩

/-- What follows from the answer of a call. -/
theorem judge_moves (s : Shared) (c : Context) (state : σ) (r : Except TransformError Bool) :
    Moves s c state (.judging r) (judge (σ := σ) s c r).2.leaving? s
      ⟨(judge (σ := σ) s c r).1, state, (judge s c r).2⟩ := by
  rcases r with e | _ | _
  · by_cases hs : e.isStop = true
    · simp only [judge, if_pos hs]
      exact .cut e hs
    · have hfailure : e.isStop = false := by simpa using hs
      simp only [judge, if_neg hs]
      cases e
      case row m f code =>
        by_cases hd : c.diverts = true
        · simp only [if_pos hd]
          split
          · rename_i layout row hl hr
            exact .bad m f code layout row hd hl hr
          · rename_i hnone
            refine .lost m f code hd ?_
            rcases hl : c.inputLayout with _ | layout
            · exact Or.inl rfl
            · rcases hr : c.currentRow with _ | row
              · exact Or.inr rfl
              · exact absurd hr (hnone layout row hl)
        · simp only [if_neg hd]
          exact .failed _ hfailure fun _ _ _ _ => by simpa using hd
      all_goals exact .failed _ hfailure fun _ _ _ he => by cases he
  · exact .exhausted
  · exact .more

/-- **A step of a worker** does one of the things that are listed. -/
theorem step_moves (x : Worker σ) (s : Shared) :
    Moves s x.context x.state x.phase (x.deed? s) (x.step s).1 (x.step s).2 := by
  obtain ⟨c, state, phase⟩ := x
  rcases phase with a | r | _ | _ | a | r | ⟨m, a⟩ | m | ⟨fate, rest⟩ | ⟨fate, a⟩ | ⟨status, error⟩ |
    p | summary | _
  case initializing =>
    rcases a.ends_or_ongoing with ⟨r, rfl⟩ | ⟨p, rfl⟩ | hgoing
    · exact .initialized r
    · exact .uninitialized p
    · obtain ⟨hstep, hdeed⟩ := step_ongoing.1 a hgoing
      rw [hstep, hdeed, perform_shared]
      exact .initializing a hgoing
  case initialized => exact .waits r
  case starting => exact .starts
  case checking =>
    by_cases hs : s.stopped = true
    · simp only [step, deed?, if_pos hs]
      exact .stops hs
    · simp only [step, deed?, if_neg hs]
      exact .begins (by simpa using hs)
  case working =>
    rcases a.ends_or_ongoing with ⟨r, rfl⟩ | ⟨p, rfl⟩ | hgoing
    · exact .answers r
    · exact .panics p
    · obtain ⟨hstep, hdeed⟩ := step_ongoing.2.1 a hgoing
      rw [hstep, hdeed, perform_shared]
      exact .working a hgoing
  case judging => exact judge_moves s c state r
  case diverting =>
    rcases a.ends_or_ongoing with ⟨e | _, rfl⟩ | ⟨p, rfl⟩ | hgoing
    · by_cases hs : e.isStop = true
      · simp only [step, deed?, afterDiversion, if_pos hs]
        exact .interrupted m e hs
      · simp only [step, deed?, afterDiversion, if_neg hs]
        exact .undiverted m e (by simpa using hs)
    · exact .diverted m
    · exact .crashes m p
    · obtain ⟨hstep, hdeed⟩ := step_ongoing.2.2.1 m a hgoing
      rw [hstep, hdeed, perform_shared]
      exact .diverting m a hgoing
  case failing => exact .fails m
  case closing =>
    rcases rest with _ | ⟨i, rest⟩
    · exact .closed fate
    · exact .closes fate i rest
  case disposing =>
    rcases a.ends_or_ongoing with ⟨r, rfl⟩ | ⟨p, rfl⟩ | hgoing
    · exact .disposed fate
    · exact .undisposed fate p
    · obtain ⟨hstep, hdeed⟩ := step_ongoing.2.2.2 fate a hgoing
      rw [hstep, hdeed, perform_shared]
      exact .disposing fate a hgoing
  case reporting => exact .reports status error
  case crashed => exact .collapses p
  case sending => exact .sends summary
  case ended => exact .ended

/-- **A step of a worker** does what its deed says. -/
theorem step_effect (s : Shared) (w : Worker σ) :
    Context.Effect s (w.step s).1 w.context (w.step s).2.context (w.deed? s) := by
  have hmoves := w.step_moves s
  generalize w.phase = phase, w.deed? s = d, (w.step s).1 = s', (w.step s).2 = w' at hmoves ⊢
  obtain ⟨c, state, _⟩ := w
  have hidle : Deed.Idle none := fun _ _ => ⟨rfl, rfl⟩
  have hstay : ∀ d : Option Deed, Deed.Idle d → Context.Effect s s c c d := fun _ => .none s c
  have hforget : ∀ d : Option Deed, Deed.Idle d →
      Context.Effect s s c { c with currentRow := none } d :=
    fun _ => .of_leads (.of_fixed rfl rfl rfl rfl rfl rfl)
  cases hmoves
  case initializing a _ => exact Activity.step_does ⟨s, c, state⟩ a
  case working a _ => exact Activity.step_does ⟨s, c, state⟩ a
  case diverting a _ => exact Activity.step_does ⟨s, c, state⟩ a
  case disposing a _ => exact Activity.step_does ⟨s, c, state⟩ a
  case initialized => exact .record s c _ _
  case uninitialized => exact .record s c _ _
  case closed => exact .record s c _ _
  case begins => exact hforget _ fun _ _ => ⟨rfl, rfl⟩
  case bad => exact hforget _ hidle
  case lost => exact hforget _ hidle
  case fails => exact .stop c (fun _ _ => ⟨rfl, rfl⟩) (s.same_say _) c.name
  case collapses => exact .stop c (fun _ _ => ⟨rfl, rfl⟩) (.refl s) c.name
  case undisposed => exact .same c hidle (s.same_say _)
  case reports => exact .same c hidle ((s.same_say _).trans (Shared.same_reach _ _))
  case starts => exact ⟨.refl s c, rfl, id, fun _ _ => rfl, fun _ => Nat.le_refl _, rfl, rfl, rfl⟩
  case closes => exact ⟨.refl s c, rfl, id, fun _ _ => rfl, fun _ => Nat.le_refl _, rfl, rfl, rfl⟩
  case sends => exact ⟨.refl s c, rfl, id, fun _ _ => rfl, fun _ => Nat.le_refl _, rfl, rfl, rfl⟩
  all_goals exact hstay _ fun _ _ => ⟨rfl, rfl⟩

end Worker

end Rowflow
