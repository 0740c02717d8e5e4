import Rowflow.Proofs.Course.Crew
import Rowflow.Proofs.Diversion.Ceiling
import Rowflow.Proofs.Diversion.LastRead
import Rowflow.Transform.Scripted

/-!
# The row of the failing call

When a call of a transform with error handling fails with a row error, the worker hands the row that
this very call has read last to the error router, as it was read; if there is none it fails for good.
`Course.handedBy` notes all that is handed over in the course of a run, and `Course.failing_row` says
that it is what the deeds of the worker ask for, whatever the transform does in its calls. The worker
accords with its deeds at every point of its loop (`Worker.Accords`), and each of its steps keeps that.
-/

namespace Rowflow

variable {σ : Type}

/-! ### What is handed over -/

/-- What the runtime hands to the error router with the next step: the current row, with what is said
about it. What a transform diverts by itself is not meant. -/
def Phase.handing : Phase σ → List (Entry × Diagnosis)
  | .diverting _ (.run (.divert e why _)) => [(e, why)]
  | _ => []

/-- What the runtime is about to hand to the error router, with one of the next two steps. -/
def Worker.due (x : Worker σ) : List (Entry × Diagnosis) :=
  match x.phase with
  | .judging r => Deed.charge x.context.atHand (Deed.answered r).diagnosis?
  | phase => phase.handing

/-- What the runtime hands to the error router for one worker, in order, while the given things
happen. -/
def Course.handedBy [Transform σ] (k : WorkerKey) (c : Course σ) (events : List Event) :
    List (Entry × Diagnosis) :=
  c.noted (fun x => if x.key = k then x.phase.handing else []) events

/-- What becomes of a row error, given the row that the failing call has read last. A row is handed to
the error router with the next step but one, and nothing has changed before. Without a row the worker
leaves with the next step but one, with the status `Errored`, and no error has been counted. -/
def Worker.Redresses [Transform σ] (x : Worker σ) (message : String) (fields codes : Option String) :
    Option Entry → Prop
  | some e => ∀ s, x.step s = (s, ⟨{ x.context with currentRow := none }, x.state,
      .diverting message (.run (.divert e ⟨1, message, fields, codes⟩ .finish))⟩)
  | none => ∀ s s', (x.step s).1 = s ∧
      ((x.step s).2.step s').1.errorCounts = s'.errorCounts ∧
      ((x.step s).2.step s').2.context.counters = x.context.counters ∧
      (x.step s).2.deed? s' = some (.left .errored) ∧
      ((x.step s).2.step s').2.phase =
        Worker.leave x.context (.ran .errored (some (message ++ ": " ++ message)))

/-- The row errors of a worker with the deeds `ds` are treated as they should be, when `handed` has been
handed to the error router. -/
structure Worker.Rectified [Transform σ] (handed : List (Entry × Diagnosis)) (ds : List Deed)
    (x : Worker σ) : Prop where
  /-- For every row error after a row this row is handed over once, and nothing else is. -/
  account : handed ++ x.due = Deed.owed ds
  /-- To hand a row over is to divert it. -/
  hands : ∀ e why, x.phase.handing = [(e, why)] → ∀ s,
    (x.step s).1 = (x.context.startDivert s e why).1 ∧
      (x.step s).2.context = (x.context.startDivert s e why).2.1
  /-- What becomes of a row error depends on what the failing call has read last. -/
  redress : ∀ message fields codes, x.phase = .judging (.error (.row message fields codes)) →
    ∃ older, ds = .answered (.error (.row message fields codes)) :: older ∧
      x.Redresses message fields codes (Deed.lastRead older)
  /-- After a row error without a row the worker does nothing but end. -/
  parting : ∀ newer older message fields codes,
    ds = newer ++ .answered (.error (.row message fields codes)) :: older →
    Deed.lastRead older = none → ∀ d ∈ newer, d.Parting
  /-- A worker at its end has reported. -/
  sent : x.phase = .ended → ∃ summary, .sent summary ∈ ds

/-! ### Diversions -/

/-- A diversion whose row has been handed over. -/
def Activity.Routed : Activity σ (Except TransformError Unit) → Prop
  | .writing _ next => next = .finish
  | .run (.finish _) | .done _ | .broken _ => True
  | _ => False

namespace Activity.Routed

variable {a : Activity σ (Except TransformError Unit)}

theorem handing (h : a.Routed) (message : String) :
    (Phase.diverting message a).handing = [] := by
  rcases a with plan | _ | _ | _ | _ | _
  case run =>
    cases plan
    case divert => exact absurd h id
    all_goals rfl
  all_goals rfl

theorem step (h : a.Routed) (d : Activity.Desk σ) : (a.step d).2.Routed := by
  rcases a with plan | _ | ⟨del, next⟩ | _ | _ | _
  case run =>
    cases plan
    case finish => trivial
    all_goals exact absurd h id
  case writing =>
    obtain rfl : next = .finish := h
    obtain ⟨s, c, state⟩ := d
    simp only [Activity.step]
    rcases c.deliver s del with ⟨s', c', del' | r | p⟩
    · rfl
    · trivial
    · trivial
  case done => trivial
  case broken => trivial
  all_goals exact absurd h id

theorem divert (d : Activity.Desk σ) (e : Entry) (why : Diagnosis) :
    ((Activity.run (.divert e why .finish) : Activity σ _).step d).2.Routed := by
  obtain ⟨s, c, state⟩ := d
  simp only [Activity.step, stepPlan]
  rcases (c.startDivert s e why).2.2 with p | err | del
  · trivial
  · trivial
  · rfl

end Activity.Routed

/-! ### Where a worker stands -/

/-- What holds of the deeds of a worker that diverts rows, by its phase. -/
def Phase.Accords (c : Context) (ds : List Deed) : Phase σ → Prop
  | .initializing _ | .initialized _ => False
  | .starting | .checking => ¬ Deed.Doomed ds
  | .working a => ¬ Deed.Doomed ds ∧ ((∃ p, a = .broken p) ∨ c.atHand = Deed.lastRead ds)
  | .judging r => ∃ older, ds = .answered r :: older ∧ ¬ Deed.Doomed older ∧
      c.atHand = Deed.lastRead older
  | .diverting _ a => ¬ Deed.Doomed ds ∧
      ((∃ e why, a = .run (.divert e why .finish)) ∨ a.Routed)
  | .failing _ | .crashed _ => True
  | .closing fate _ | .disposing fate _ =>
    ∃ status error, fate = .ran status error ∧ (Deed.Doomed ds → status = .errored)
  | .reporting status _ => Deed.Doomed ds → status = .errored
  | .sending summary => Deed.Doomed ds → summary.status = .errored
  | .ended => ∃ summary, .sent summary ∈ ds

/-- A worker that diverts rows does what its deeds ask for, when `handed` has been handed to the error
router. -/
structure Worker.Accords (handed : List (Entry × Diagnosis)) (ds : List Deed) (x : Worker σ) :
    Prop where
  diverts : x.context.diverts = true
  heeds : Deed.Heeds ds
  stands : x.phase.Accords x.context ds
  account : handed ++ x.due = Deed.owed ds

namespace Worker

variable {handed : List (Entry × Diagnosis)} {ds : List Deed} {x x' : Worker σ} {c : Context}

theorem handing_of_due (h : x.due = []) : x.phase.handing = [] := by
  obtain ⟨c, state, phase⟩ := x
  cases phase
  case judging => rfl
  all_goals exact h

theorem due_of_routed {state : σ} {a : Activity σ (Except TransformError Unit)} (h : a.Routed)
    (m : String) : due ⟨c, state, .diverting m a⟩ = [] := h.handing m

/-- A row error is answered by the row at hand. -/
theorem judge_row (hd : c.diverts = true) (s : Shared) (message : String)
    (fields codes : Option String) :
    judge (σ := σ) s c (.error (.row message fields codes)) = ({ c with currentRow := none },
      match c.atHand with
      | some e => .diverting message (.run (.divert e ⟨1, message, fields, codes⟩ .finish))
      | none => .failing (message ++ ": " ++ message)) := by
  unfold judge Context.atHand
  simp only [TransformError.isStop, hd, Bool.false_eq_true, if_false, if_true]
  rcases c.inputLayout with _ | layout
  · rfl
  · rcases c.currentRow with _ | row <;> rfl

theorem Accords.quiet (h : x.Accords handed ds) {d : Option Deed} (hd : Deed.Mild ds d)
    (hdiverts : x'.context.diverts = true) (hbefore : x.due = []) (hafter : x'.due = [])
    (hstands : x'.phase.Accords x'.context (d.toList ++ ds)) :
    x'.Accords (handed ++ x.phase.handing) (d.toList ++ ds) where
  diverts := hdiverts
  heeds := hd.heeds_append h.heeds
  stands := hstands
  account := by
    have haccount := h.account
    rw [hd.owed_append, ← haccount, handing_of_due hbefore, hbefore, hafter, List.append_nil]

theorem Accords.leaves (h : x.Accords handed ds) (hbefore : x.due = []) (hdiverts : c.diverts = true)
    (state : σ) (error : Option String) {status : WorkerStatus}
    (hstatus : Deed.Doomed ds → status = .errored) :
    Accords (handed ++ x.phase.handing) (.left status :: ds)
      ⟨c, state, leave c (.ran status error)⟩ := by
  have hleft : Deed.Mild ds (some (.left status)) := Deed.mild_some rfl hstatus
  exact h.quiet hleft hdiverts hbefore rfl
    ⟨status, error, rfl, fun hdoomed => hstatus (hleft.doomed_append.mp hdoomed)⟩

theorem Accords.unasked {state : σ} {r : Except TransformError Bool}
    (h : Accords handed ds ⟨c, state, .judging r⟩) (hnorow : (Deed.answered r).diagnosis? = none) :
    due ⟨c, state, .judging r⟩ = [] ∧ ¬ Deed.Doomed ds := by
  obtain ⟨older, rfl, hdoomed, -⟩ := h.stands
  have hanswer : Deed.Mild older (some (.answered r)) :=
    Deed.mild_some hnorow fun hnow => absurd hnow hdoomed
  refine ⟨?_, fun hnow => hdoomed (hanswer.doomed_append.mp hnow)⟩
  simp only [due, hnorow]
  exact Deed.charge_none _

/-- The row at hand, which the failing call has read last, goes into a diversion. -/
theorem Accords.redirect {state : σ} {m : String} {f codes : Option String} {layout : Layout} {row : Row}
    (h : Accords handed ds ⟨c, state, .judging (.error (.row m f codes))⟩)
    (hlayout : c.inputLayout = some layout) (hrow : c.currentRow = some row) :
    Accords handed ds ⟨{ c with currentRow := none }, state,
      .diverting m (.run (.divert ⟨layout, row⟩ ⟨1, m, f, codes⟩ .finish))⟩ := by
  obtain ⟨older, rfl, hdoomed, hread⟩ := h.stands
  have hat : c.atHand = some ⟨layout, row⟩ := by simp only [Context.atHand, hlayout, hrow]
  refine ⟨h.diverts, h.heeds, ⟨?_, Or.inl ⟨_, _, rfl⟩⟩, ?_⟩
  · rintro (⟨hno, -⟩ | hdoomed')
    · rw [← hread, hat] at hno
      cases hno
    · exact hdoomed hdoomed'
  · have haccount := h.account
    simp only [due, hat] at haccount
    exact haccount

theorem Accords.answers {state : σ} {r : Except TransformError Bool}
    (h : Accords handed ds ⟨c, state, .working (.done r)⟩) :
    Accords handed (.answered r :: ds) ⟨c, state, .judging r⟩ := by
  obtain ⟨hdoomed, ⟨p, hp⟩ | hread⟩ := h.stands
  · cases hp
  · refine ⟨h.diverts, ⟨fun hnow => absurd hnow hdoomed, h.heeds⟩, ⟨ds, rfl, hdoomed, hread⟩, ?_⟩
    have haccount : handed ++ [] = Deed.owed ds := h.account
    show handed ++ Deed.charge c.atHand _ = Deed.owed ds ++ Deed.charge (Deed.lastRead ds) _
    rw [← haccount, List.append_nil, hread]

theorem Accords.work {state : σ} {a : Activity σ (Except TransformError Bool)}
    (h : Accords handed ds ⟨c, state, .working a⟩) (hgoing : a.Ongoing) (s : Shared) :
    Accords (handed ++ []) ((a.deed? s c).toList ++ ds)
      ⟨(a.step ⟨s, c, state⟩).1.context, (a.step ⟨s, c, state⟩).1.state,
        .working (a.step ⟨s, c, state⟩).2⟩ := by
  obtain ⟨hdoomed, hread⟩ := h.stands
  have hmild := Activity.mild_deed? (s := s) (c := c) state ds a
  have hleads := (Activity.step_does ⟨s, c, state⟩ a).leads
  refine h.quiet hmild (hleads.diverts.trans h.diverts) rfl rfl
    ⟨fun hnow => hdoomed (hmild.doomed_append.mp hnow), ?_⟩
  rw [Deed.lastRead_append]
  obtain ⟨p, rfl⟩ | hread := hread
  · exact absurd hgoing id
  · rw [← hread]
    exact Activity.step_atHand ⟨s, c, state⟩ a h.diverts

theorem Accords.divert {state : σ} {m : String} {a : Activity σ (Except TransformError Unit)}
    (h : Accords handed ds ⟨c, state, .diverting m a⟩) (s : Shared) :
    Accords (handed ++ (Phase.diverting m a).handing) ((a.deed? s c).toList ++ ds)
      ⟨(a.step ⟨s, c, state⟩).1.context, (a.step ⟨s, c, state⟩).1.state,
        .diverting m (a.step ⟨s, c, state⟩).2⟩ := by
  obtain ⟨hdoomed, ha⟩ := h.stands
  have hmild := Activity.mild_deed? (s := s) (c := c) state ds a
  have hdiverts := (Activity.step_does ⟨s, c, state⟩ a).leads.diverts.trans h.diverts
  have hstill : ¬ Deed.Doomed ((a.deed? s c).toList ++ ds) := fun hnow =>
    hdoomed (hmild.doomed_append.mp hnow)
  rcases ha with ⟨e, why, rfl⟩ | ha
  · -- the first step is the one that hands the row over
    have hrouted := Activity.Routed.divert ⟨s, c, state⟩ e why
    refine ⟨hdiverts, hmild.heeds_append h.heeds, ⟨hstill, Or.inr hrouted⟩, ?_⟩
    rw [hmild.owed_append, due_of_routed hrouted, List.append_nil]
    exact h.account
  · have hrouted := ha.step ⟨s, c, state⟩
    exact h.quiet hmild hdiverts (due_of_routed ha m) (due_of_routed hrouted m)
      ⟨hstill, Or.inr hrouted⟩

variable [Transform σ]

/-- **A step of a worker** does what its deeds ask for. -/
theorem Accords.step (h : x.Accords handed ds) (s : Shared) :
    (x.step s).2.Accords (handed ++ x.phase.handing) ((x.deed? s).toList ++ ds) := by
  have hstands := h.stands
  have hd := h.diverts
  have hnone := Deed.mild_none ds
  have hmoves := x.step_moves s
  generalize x.deed? s = d, (x.step s).1 = s', (x.step s).2 = y at hmoves ⊢
  obtain ⟨c, state, phase⟩ := x
  cases hmoves
  case initializing => exact absurd hstands id
  case initialized => exact absurd hstands id
  case uninitialized => exact absurd hstands id
  case waits => exact absurd hstands id
  case starts => exact h.quiet hnone hd rfl rfl hstands
  case stops => exact h.leaves rfl hd state none fun hdoomed => absurd hdoomed hstands
  case begins =>
    have hbegan : Deed.Mild ds (some .began) :=
      Deed.mild_some rfl fun hdoomed => absurd hdoomed hstands
    -- no row is at hand when a call begins
    exact h.quiet hbegan hd rfl rfl
      ⟨fun hdoomed => hstands (hbegan.doomed_append.mp hdoomed), Or.inr c.atHand_forget⟩
  case working hgoing => exact h.work hgoing s
  case answers => exact (List.append_nil handed).symm ▸ h.answers
  case panics => exact h.quiet hnone hd rfl rfl trivial
  case more =>
    obtain ⟨hdue, hfresh⟩ := h.unasked rfl
    exact h.quiet hnone hd hdue rfl hfresh
  case exhausted =>
    obtain ⟨hdue, hfresh⟩ := h.unasked rfl
    exact h.leaves hdue hd state none fun hnow => absurd hnow hfresh
  case cut e hstop =>
    have hnorow : ∀ m f codes, e ≠ .row m f codes := by
      rintro m f codes rfl
      cases hstop
    obtain ⟨hdue, hfresh⟩ := h.unasked (Deed.diagnosis?_error hnorow)
    exact h.leaves hdue hd state none fun hnow => absurd hnow hfresh
  case bad hlayout hrow => exact (List.append_nil handed).symm ▸ h.redirect hlayout hrow
  case lost m f codes _ hnothing =>
    have hdue : due ⟨c, state, .judging (.error (.row m f codes))⟩ = [] := by
      simp only [due, Context.atHand_eq_none hnothing]
      rfl
    exact h.quiet hnone hd hdue rfl trivial
  case failed e _ hundiverted =>
    have hnorow : ∀ m f codes, e ≠ .row m f codes := fun m f codes he =>
      Bool.eq_false_iff.mp (hundiverted m f codes he) hd
    exact h.quiet hnone hd (h.unasked (Deed.diagnosis?_error hnorow)).1 rfl trivial
  case diverting => exact h.divert s
  case diverted => exact h.quiet hnone hd rfl rfl hstands.1
  case interrupted => exact h.leaves rfl hd state none fun hnow => absurd hnow hstands.1
  case undiverted => exact h.quiet hnone hd rfl rfl trivial
  case crashes => exact h.quiet hnone hd rfl rfl trivial
  case fails m => exact h.leaves rfl hd state (some m) fun _ => rfl
  case closes i rest =>
    obtain ⟨st, err, rfl, hdoomed⟩ := hstands
    have hclosed : Deed.Mild ds (some (.closed i)) := Deed.mild_some rfl fun _ => trivial
    exact h.quiet hclosed hd rfl rfl
      ⟨st, err, rfl, fun hnow => hdoomed (hclosed.doomed_append.mp hnow)⟩
  case closed => exact h.quiet hnone hd rfl rfl hstands
  case disposing a _ =>
    obtain ⟨st, err, rfl, hdoomed⟩ := hstands
    have hmild := Activity.mild_deed? (s := s) (c := c) state ds a
    have hleads := (Activity.step_does ⟨s, c, state⟩ a).leads
    exact h.quiet hmild (hleads.diverts.trans hd) rfl rfl
      ⟨st, err, rfl, fun hnow => hdoomed (hmild.doomed_append.mp hnow)⟩
  case disposed =>
    obtain ⟨st, err, rfl, hdoomed⟩ := hstands
    exact h.quiet hnone hd rfl rfl hdoomed
  case undisposed =>
    obtain ⟨st, err, rfl, hdoomed⟩ := hstands
    exact h.quiet hnone hd rfl rfl hdoomed
  case reports => exact h.quiet hnone hd rfl rfl hstands
  case collapses =>
    have hleft : Deed.Mild ds (some (.left .errored)) := Deed.mild_some rfl fun _ => rfl
    exact h.quiet hleft hd rfl rfl fun _ => rfl
  case sends summary =>
    have hsent : Deed.Mild ds (some (.sent summary)) := Deed.mild_some rfl hstands
    exact h.quiet hsent hd rfl rfl ⟨summary, List.mem_cons_self⟩
  case ended => exact h.quiet hnone hd rfl rfl hstands

/-- A worker that does what its deeds ask for treats its row errors as it should. -/
theorem Accords.rectified (h : x.Accords handed ds) : x.Rectified handed ds where
  account := h.account
  hands e why hhanding s := by
    obtain ⟨c, state, phase⟩ := x
    rcases phase with _ | _ | _ | _ | _ | _ | ⟨m, plan | _ | _ | _ | _ | _⟩ | _ | _ | _ | _ | _ | _ | _
    case diverting.run =>
      cases plan
      case divert e' why' next =>
        cases hhanding
        simp only [Worker.step, perform_shared, Activity.step, Activity.stepPlan,
          Activity.startDiversion_desk]
        exact ⟨trivial, trivial⟩
      all_goals cases hhanding
    all_goals cases hhanding
  redress m f codes hphase := by
    obtain ⟨c, state, phase⟩ := x
    cases hphase
    obtain ⟨older, rfl, -, hrow⟩ := h.stands
    refine ⟨older, rfl, ?_⟩
    have hjudge := judge_row (σ := σ) h.diverts
    rw [← hrow]
    rcases hat : c.atHand with _ | e
    · intro s s'
      have hstep : Worker.step s ⟨c, state, .judging (.error (.row m f codes))⟩ =
          (s, ⟨{ c with currentRow := none }, state, .failing (m ++ ": " ++ m)⟩) := by
        simp only [Worker.step, hjudge, hat]
      rw [hstep]
      exact ⟨rfl, (Shared.requestStop_fixed _ _).2.2, rfl, rfl, rfl⟩
    · intro s
      simp only [Worker.step, hjudge, hat]
  parting newer older m f codes hds hrow := by
    have hheeds := h.heeds
    rw [hds] at hheeds
    exact (hheeds.parting hrow rfl).2
  sent hphase := by
    have hstands := h.stands
    rw [hphase] at hstands
    exact hstands

end Worker

/-! ### Runs -/

namespace Course

variable {p : Pipeline} {c c' : Course σ}

/-- What holds of a running course, when `handed` has been handed to the error router for the worker
`k`. -/
structure Rectifies (p : Pipeline) (k : WorkerKey) (handed : List (Entry × Diagnosis))
    (c : Course σ) : Prop where
  crew : c.Crew p
  workers : ∀ x ∈ c.workers, x.Bound p
  accords : ∀ x ∈ c.workers, x.key = k → x.context.diverts = true →
    x.Accords handed (deedsOf k c.history)

variable {k : WorkerKey} {handed : List (Entry × Diagnosis)}

theorem Launched.rectifies (hp : p.WellFormed) (h : c.Launched p)
    (hbound : ∀ x ∈ c.workers, x.Bound p) : c.Rectifies p k [] where
  crew := h.crew hp
  workers := hbound
  accords x hx _ hdiverts := by
    have hphase := h.starting x hx
    rw [h.history]
    obtain ⟨context, state, phase⟩ := x
    cases hphase
    exact ⟨hdiverts, trivial, id, rfl⟩

theorem Outside.rectifies {d : Option Deed} (h : c.Outside c' d) (hc : c.Rectifies p k handed) :
    c'.Rectifies p k handed :=
  ⟨h.crew hc.crew, by rw [h.workers]; exact hc.workers, by
    rw [h.workers, h.history]; exact hc.accords⟩

variable [Transform σ]

theorem Stepped.rectifies {i : Nat} {x : Worker σ} (h : c.Stepped c' i x)
    (hc : c.Rectifies p k handed) :
    c'.Rectifies p k (handed ++ if x.key = k then x.phase.handing else []) := by
  refine ⟨h.crew hc.crew, fun y hy => ?_, fun y hy hk hdiverts => ?_⟩
  · rcases h.cases hc.crew hy with rfl | ⟨hy, -⟩
    · exact (hc.workers x h.mem).step c.shared
    · exact hc.workers y hy
  · rw [h.history]
    rcases h.cases hc.crew hy with rfl | ⟨hy, hne⟩
    · have hkey : x.key = k := h.effect.leads.key.symm.trans hk
      rw [if_pos hkey, hkey, deedsOf_grow]
      exact (hc.accords x h.mem hkey (h.effect.leads.diverts.symm.trans hdiverts)).step c.shared
    · rw [hk] at hne
      rw [if_neg hne, deedsOf_grow_of_ne hne, List.append_nil]
      exact hc.accords y hy hk hdiverts

/-- **Only the row of the failing call is diverted.** In every run, whatever the transforms do in their
calls, the row errors of a worker with error handling are treated as they should be: the row that the
failing call has read last is handed to the error router once and as it was read, and if there is none,
nothing is handed over, no error is counted and the worker ends with the status `Errored`. -/
theorem failing_row {registry : Registry σ} {o : Orchestrator σ} (hooks : Hooks)
    (bindings : Table String) (hnew : Orchestrator.new p registry = .ok o) (events : List Event)
    (hr : ((begin o hooks bindings).run events).Running) {x : Worker σ}
    (hx : x ∈ ((begin o hooks bindings).run events).workers) {eh : ErrorHandling}
    (heh : x.context.spec.errorHandling = some eh) :
    x.Rectified ((begin o hooks bindings).handedBy x.key events)
      (deedsOf x.key ((begin o hooks bindings).run events).history) := by
  have hp := Pipeline.wellFormed_of_validationErrors (Orchestrator.new_ok hnew).1
  have h : Rectifies p x.key ((begin o hooks bindings).handedBy x.key events)
      ((begin o hooks bindings).run events) :=
    of_running_noted hnew (World.Metered.early hp x.key.id o.transforms) _
      (fun _ _ hlaunched hw => hlaunched.rectifies hp hw.2.workers)
      (fun _ _ _ _ ho hc => ho.rectifies hc) (fun _ _ _ _ _ hs hc => hs.rectifies hc) events hr
  obtain ⟨route, hroute, -⟩ := (h.workers x hx).rooted.exists_route hp heh
  have hdiverts : x.context.diverts = true := Option.isSome_of_mem hroute
  exact (h.accords x hx rfl hdiverts).rectified

/-! ### A stale row -/

namespace Stale

/-- A scripted transform with error handling, and one that takes the failing rows. -/
def pipeline : Pipeline where
  transforms := [
    { id := "a"
      type := "script"
      inject := true
      errorHandling := some { target := "r" } },
    { id := "r", type := "dummy" }]

/-- The first call fails with the row that it has read; the second one reads a row and ends well; the
third one fails without reading. -/
def scripts : Table Script :=
  .ofList [("a", {
    calls := [
      [.get, .fail (.row "bad" (some "n") (some "E1"))],
      [.get, .answer true],
      [.fail (.row "late" none none)]] })]

/-- The run of the two. -/
def orchestrator : Orchestrator (Builtin ⊕ Scripted) where
  pipeline := pipeline
  transforms := ((Registry.withScripts scripts).resolve pipeline).toOption.getD .empty
  world := { shared := { pipeline := pipeline.name, poll := 50000 } }
  built := .ofList (pipeline.ids.map (·, 1))

theorem new_ok : Orchestrator.new pipeline (.withScripts scripts) = .ok orchestrator := rfl

/-- A row from outside. -/
def entry (n : Int64) : Entry := ⟨⟨[⟨"n", .integer, -1, -1⟩]⟩, ⟨[.integer n]⟩⟩

/-- Two rows come, and the transform is run to its end. -/
def events : List Event :=
  [.prepare, .produce "a", .start, .inject 1 (entry 1), .inject 1 (entry 2)] ++
    List.replicate 40 (.step 0)

/-- The end of the run. -/
def finished : Course (Builtin ⊕ Scripted) := (begin orchestrator Hooks.none .empty).run events

theorem running : finished.Running := ⟨5, by decide +kernel⟩

/-- The transform at its end. -/
def worker : Worker (Builtin ⊕ Scripted) := finished.workers[0]?.get (by decide +kernel)

theorem worker_mem : worker ∈ finished.workers := Array.mem_of_getElem? (Option.some_get _).symm

theorem worker_handles :
    worker.context.spec.errorHandling = some ({ target := "r" } : ErrorHandling) := by
  decide +kernel

end Stale

/-- The row of the first call is diverted; the one that the second call has read is not, when the third
call fails. -/
theorem failing_row_stale :
    (begin Stale.orchestrator Hooks.none .empty).handedBy Stale.worker.key Stale.events =
        [(Stale.entry 1, { description := "bad", fields := some "n", codes := some "E1" })] ∧
      Stale.worker.hasEnded = true ∧
      .left .errored ∈ deedsOf Stale.worker.key Stale.finished.history ∧
      Stale.worker.Rectified
        ((begin Stale.orchestrator Hooks.none .empty).handedBy Stale.worker.key Stale.events)
        (deedsOf Stale.worker.key Stale.finished.history) :=
  ⟨by decide +kernel, by decide +kernel, by decide +kernel,
    failing_row Hooks.none .empty Stale.new_ok Stale.events Stale.running Stale.worker_mem
      Stale.worker_handles⟩

end Course

end Rowflow
