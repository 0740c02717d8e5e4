import Rowflow.Proofs.Course.Step

/-!
# On what grounds a deed is done

A worker takes entries out of its inputs only and from the front, puts them only into row sets that
it writes to and that have room, closes only what it writes to, and is refused with a stop only when
the run has been stopped (`Worker.deed?_grounds`). For this it has to aim at its own row sets, which
it goes on doing once it does (`Worker.step_aims`).
-/

namespace Rowflow

/-- On what grounds the worker with a context does a deed. -/
def Deed.Grounds (s : Shared) (c : Context) : Deed → Prop
  | took i e => i ∈ c.inputs ∧ s.front i = .row e
  | ranDry => s.stopped = true ∨ c.inputs = []
  | gave i _ => i ∈ c.written ∧ s.admission i = .room
  | refused e => e.isStop = true → s.stopped = true
  | closed i => i ∈ c.written
  | _ => True

/-- Whether a deed is what an operation of a transform amounts to. -/
def Deed.IsOperation : Deed → Prop
  | took .. | ranDry | gave .. | refused _ => True
  | _ => False

theorem Deed.Grounds.enabled {s : Shared} {c : Context} {d : Deed} (h : d.Grounds s c) :
    d.Enabled s := by
  cases d
  case took => exact h.2
  case gave => exact h.2
  all_goals trivial

namespace Context

/-- Whether a delivery, if it begins, goes to row sets that the worker writes to. -/
def Aims (c : Context) (r : Except TransformError Delivery) : Prop :=
  ∀ del, r = .ok del → ∀ i ∈ del.pending, i ∈ c.written

theorem aims_error (c : Context) (err : TransformError) : c.Aims (.error err) := by
  intro del h
  cases h

theorem mem_written_of_output {c : Context} {t : String} {i : Nat} (h : (t, i) ∈ c.outputs) :
    i ∈ c.written :=
  List.mem_append_left _ (List.mem_map.mpr ⟨(t, i), h, rfl⟩)

theorem startWrite_grounds (c : Context) (e : Entry) :
    c.Aims (c.startWrite e).2 ∧ ∀ err, (c.startWrite e).2 = .error err → err.isStop = false := by
  rcases startWrite_cases c e with ⟨-, h⟩ | ⟨-, ⟨-, h⟩ | ⟨-, -, h⟩ | ⟨t, i, -, ho, h⟩⟩ <;> rw [h]
  · refine ⟨c.aims_error _, fun err he => ?_⟩
    cases he
    rfl
  · refine ⟨fun del hd i hi => ?_, fun err he => by cases he⟩
    cases hd
    exact List.mem_append_left _ hi
  · refine ⟨fun del hd i hi => ?_, fun err he => by cases he⟩
    cases hd
    cases hi
  · refine ⟨fun del hd j hj => ?_, fun err he => by cases he⟩
    cases hd
    rw [List.mem_singleton.mp hj]
    exact mem_written_of_output (List.mem_of_getElem? ho)

theorem startWriteTo_grounds (c : Context) (target : String) (e : Entry) :
    c.Aims (c.startWriteTo target e) ∧
      ∀ err, c.startWriteTo target e = .error err → err.isStop = false := by
  rcases startWriteTo_cases c target e with ⟨-, h⟩ | ⟨-, ⟨-, h⟩ | ⟨t, i, ho, h⟩⟩ <;> rw [h]
  · refine ⟨c.aims_error _, fun err he => ?_⟩
    cases he
    rfl
  · refine ⟨c.aims_error _, fun err he => ?_⟩
    cases he
    rfl
  · refine ⟨fun del hd j hj => ?_, fun err he => by cases he⟩
    cases hd
    rw [List.mem_singleton.mp hj]
    exact mem_written_of_output (List.mem_of_find?_eq_some ho)

theorem startDivert_grounds (c : Context) (s : Shared) (e : Entry) (why : Diagnosis)
    {r : Except TransformError Delivery} (h : (c.startDivert s e why).2.2 = .ok r) :
    c.Aims r ∧ ∀ err, r = .error err → err.isStop = false := by
  rcases startDivert_cases c s e why with ⟨-, hd⟩ | ⟨route, maximum, next, -, -, hd⟩ |
    ⟨route, -, -, hd⟩ | ⟨route, count, hr, -, hd⟩ <;> rw [hd] at h <;> cases h
  · refine ⟨c.aims_error _, fun err he => ?_⟩
    cases he
    rfl
  · refine ⟨c.aims_error _, fun err he => ?_⟩
    cases he
    rfl
  · refine ⟨fun del hd j hj => ?_, fun err he => by cases he⟩
    cases hd
    rw [List.mem_singleton.mp hj]
    unfold written
    simp [hr]

theorem Purpose.isStop_failure (p : Purpose) (e : RowSetError) :
    (p.failure e).isStop = e.isStop := by
  cases p <;> rfl

theorem Delivered.grounds {s s' : Shared} {c c' : Context} {d : Delivery} {deed : Deed}
    {r : Progress} (haim : ∀ i ∈ d.pending, i ∈ c.written)
    (h : Delivered s c d (some deed) s' c' r) : deed.Grounds s c := by
  cases h
  case refused found =>
    intro hs
    rw [Purpose.isStop_failure] at hs
    exact found hs
  case partly hp ha => exact ⟨haim _ (by simp [hp]), ha⟩
  case last hp ha _ _ _ => exact ⟨haim _ (by simp [hp]), ha⟩

theorem Delivered.isOperation {s s' : Shared} {c c' : Context} {d : Delivery} {deed : Deed}
    {r : Progress} (h : Delivered s c d (some deed) s' c' r) : deed.IsOperation := by
  cases h <;> trivial

theorem Delivered.pending {s s' : Shared} {c c' : Context} {d d' : Delivery} {deed : Option Deed}
    (h : Delivered s c d deed s' c' (.pending d')) : d'.pending ⊆ d.pending := by
  cases h
  case full => exact List.Subset.refl _
  case partly hp _ =>
    rw [hp]
    exact List.subset_cons_self _ _
  case last ended _ => rcases ended with h | ⟨p, h⟩ <;> cases h
  case nowhere ended _ => rcases ended with h | ⟨p, h⟩ <;> cases h

end Context

/-! ### Activities -/

namespace Activity

variable {σ α : Type} {s : Shared} {c : Context} {d : Deed}

/-- The row sets that an activity is going to write to. -/
def pending : Activity σ α → List Nat
  | .writing del _ => del.pending
  | _ => []

theorem ReadStep.grounds {s' : Shared} {c' : Context} {next : Option Entry → Plan σ α}
    {a : Activity σ α} (h : ReadStep s c next (some d) s' c' a) : d.Grounds s c := by
  cases h
  case dry why => exact why
  case row input found _ _ => exact ⟨input, found⟩
  case broken input found _ _ => exact ⟨input, found⟩

theorem ReadStep.isOperation {s' : Shared} {c' : Context} {next : Option Entry → Plan σ α}
    {a : Activity σ α} (h : ReadStep s c next (some d) s' c' a) : d.IsOperation := by
  cases h <;> trivial

theorem ReadStep.pending {s' : Shared} {c' : Context} {next : Option Entry → Plan σ α}
    {deed : Option Deed} {a : Activity σ α} (h : ReadStep s c next deed s' c' a) :
    a.pending = [] := by
  cases h <;> rfl

theorem grounds_of_refusal {r : Except TransformError Context.Delivery}
    (hr : ∀ err, r = .error err → err.isStop = false) (h : Deed.ofRefusal r = some d) :
    d.Grounds s c := by
  rcases r with err | del
  · cases h
    intro hs
    rw [hr err rfl] at hs
    cases hs
  · cases h

theorem ofRefusal_of_divert {r : Except Panic (Except TransformError Context.Delivery)}
    (h : r.toOption.bind Deed.ofRefusal = some d) : ∃ r', r = .ok r' ∧ Deed.ofRefusal r' = some d := by
  rcases r with p | r
  · cases h
  · exact ⟨r, rfl, h⟩

theorem deed?_grounds {a : Activity σ α} (haim : ∀ i ∈ a.pending, i ∈ c.written)
    (state : σ) (h : a.deed? s c = some d) : d.Grounds s c := by
  rcases a with plan | ⟨stage, next⟩ | ⟨del, next⟩ | ⟨deadline, next⟩ | answer | p
  case run =>
    cases plan
    case write => exact grounds_of_refusal (c.startWrite_grounds _).2 h
    case writeTo => exact grounds_of_refusal (c.startWriteTo_grounds _ _).2 h
    case divert =>
      obtain ⟨r, hr, h⟩ := ofRefusal_of_divert h
      exact grounds_of_refusal (c.startDivert_grounds s _ _ hr).2 h
    all_goals cases h
  case reading =>
    have := (stepRead_spec ⟨s, c, state⟩ stage next).2
    rw [h] at this
    exact this.grounds
  case writing =>
    have := Context.deliver_spec c s del
    rw [show Context.deliveryDeed? s del = some d from h] at this
    exact this.grounds haim
  all_goals cases h

theorem deed?_isOperation {a : Activity σ α} (state : σ) (h : a.deed? s c = some d) :
    d.IsOperation := by
  have hrefusal : ∀ {r : Except TransformError Context.Delivery}, Deed.ofRefusal r = some d →
      d.IsOperation := by
    rintro (err | del) hr <;> cases hr
    trivial
  rcases a with plan | ⟨stage, next⟩ | ⟨del, next⟩ | ⟨deadline, next⟩ | answer | p
  case run =>
    cases plan
    case write => exact hrefusal h
    case writeTo => exact hrefusal h
    case divert =>
      obtain ⟨r, -, h⟩ := ofRefusal_of_divert h
      exact hrefusal h
    all_goals cases h
  case reading =>
    have hstep := (stepRead_spec ⟨s, c, state⟩ stage next).2
    rw [h] at hstep
    exact hstep.isOperation
  case writing =>
    have hstep := Context.deliver_spec c s del
    rw [show Context.deliveryDeed? s del = some d from h] at hstep
    exact hstep.isOperation
  all_goals cases h

theorem startDelivery_pending {desk : Desk σ} {r : Except TransformError Context.Delivery}
    {next : Except TransformError Unit → Plan σ α} {c : Context} (hr : c.Aims r) :
    ∀ i ∈ (startDelivery desk r next).2.pending, i ∈ c.written := by
  unfold startDelivery
  rcases r with err | del
  · intro i hi
    cases hi
  · exact hr del rfl

theorem startDiversion_pending {desk : Desk σ}
    {r : Except Panic (Except TransformError Context.Delivery)}
    {next : Except TransformError Unit → Plan σ α} {c : Context} (hr : ∀ r', r = .ok r' → c.Aims r') :
    ∀ i ∈ (startDiversion desk r next).2.pending, i ∈ c.written := by
  rcases r with p | r
  · intro i hi
    cases hi
  · exact startDelivery_pending (hr r rfl)

/-- An activity that aims at what the worker writes to goes on doing so. -/
theorem step_pending {desk : Desk σ} {a : Activity σ α}
    (haim : ∀ i ∈ a.pending, i ∈ desk.context.written) :
    ∀ i ∈ (a.step desk).2.pending, i ∈ (a.step desk).1.context.written := by
  rw [(step_does desk a).leads.written]
  obtain ⟨s, c, state⟩ := desk
  rcases a with plan | ⟨stage, next⟩ | ⟨del, next⟩ | ⟨deadline, next⟩ | answer | p
  case run =>
    cases plan
    case write => exact startDelivery_pending (c.startWrite_grounds _).1
    case writeTo => exact startDelivery_pending (c.startWriteTo_grounds _ _).1
    case divert => exact startDiversion_pending fun r hr => (c.startDivert_grounds s _ _ hr).1
    case await =>
      intro i hi
      simp only [step, stepPlan] at hi
      split at hi <;> cases hi
    all_goals
      intro i hi
      cases hi
  case reading =>
    intro i hi
    simp only [step] at hi
    rw [(stepRead_spec ⟨s, c, state⟩ stage next).2.pending] at hi
    cases hi
  case writing =>
    have h := Context.deliver_spec c s del
    intro i hi
    simp only [step] at hi
    rcases hd : c.deliver s del with ⟨s', c', del' | r | p⟩ <;> rw [hd] at hi h
    · exact haim i (h.pending hi)
    · cases hi
    · cases hi
  case resting =>
    intro i hi
    simp only [step] at hi
    split at hi <;> cases hi
  all_goals
    intro i hi
    cases hi

end Activity

/-! ### Workers -/

namespace Worker

variable {σ : Type}

/-- The row sets that a worker is going to write to or to close. -/
def pending (w : Worker σ) : List Nat :=
  match w.phase with
  | .initializing a => a.pending
  | .working a => a.pending
  | .diverting _ a => a.pending
  | .closing _ rest => rest
  | .disposing _ a => a.pending
  | _ => []

/-- Whether a worker aims at its own row sets only. -/
def Aims (w : Worker σ) : Prop := ∀ i ∈ w.pending, i ∈ w.context.written

theorem leaving_grounds {s : Shared} {c : Context} {p : Phase σ} {d : Deed}
    (h : p.leaving? = some d) : d.Grounds s c := by
  unfold Phase.leaving? at h
  split at h <;> cases h
  trivial

/-- **On what grounds** a worker does its deeds. -/
theorem deed?_grounds {s : Shared} {w : Worker σ} {d : Deed} (haim : w.Aims)
    (h : w.deed? s = some d) : d.Grounds s w.context := by
  obtain ⟨c, state, phase⟩ := w
  rcases phase with a | r | _ | _ | a | r | ⟨m, a⟩ | m | ⟨fate, rest⟩ | ⟨fate, a⟩ | ⟨status, error⟩ |
    p | summary | _
  case initializing => exact Activity.deed?_grounds haim state h
  case checking =>
    simp only [deed?] at h
    split at h <;> cases h <;> trivial
  case working =>
    cases a
    case done =>
      cases h
      trivial
    all_goals
      simp only [deed?] at h
      refine Activity.deed?_grounds ?_ state h
      exact haim
  case judging => exact leaving_grounds h
  case diverting =>
    cases a
    case done => exact leaving_grounds h
    all_goals
      simp only [deed?] at h
      refine Activity.deed?_grounds ?_ state h
      exact haim
  case failing =>
    cases h
    trivial
  case closing =>
    rcases rest with _ | ⟨i, rest⟩ <;> cases h
    exact haim i (by simp [pending])
  case disposing => exact Activity.deed?_grounds haim state h
  case crashed =>
    cases h
    trivial
  case sending =>
    cases h
    trivial
  all_goals cases h

/-- The deeds that a phase leads to, operations apart each from one phase. -/
inductive Leads (s : Shared) : Phase σ → Deed → Prop where
  | operation (phase : Phase σ) (d : Deed) (kind : d.IsOperation) : Leads s phase d
  | began (flag : s.stopped = false) : Leads s .checking .began
  | answered (r : Except TransformError Bool) : Leads s (.working (.done r)) (.answered r)
  | finished (flag : s.stopped = false) : Leads s (.judging (.ok false)) (.left .done)
  | left (phase : Phase σ) (st : WorkerStatus) (failed : st ≠ .done) : Leads s phase (.left st)
  | closed (fate : Fate) (i : Nat) (rest : List Nat) : Leads s (.closing fate (i :: rest)) (.closed i)
  | sent (summary : Summary) : Leads s (.sending summary) (.sent summary)

theorem leads_judging {s : Shared} {c : Context} {r : Except TransformError Bool} {d : Deed}
    (h : (judge (σ := σ) s c r).2.leaving? = some d) : Leads (σ := σ) s (.judging r) d := by
  have hleave : ∀ {st err}, (leave (σ := σ) c (.ran st err)).leaving? = some (.left st) := rfl
  unfold judge at h
  rcases r with e | _ | _
  · dsimp only at h
    split at h
    · cases h
      exact .left _ _ (by decide)
    · split at h
      · split at h
        · split at h <;> cases h
        · cases h
      · cases h
  · dsimp only at h
    by_cases hs : s.stopped = true
    · rw [if_pos hs, hleave] at h
      cases h
      exact .left _ _ (by decide)
    · rw [if_neg hs, hleave] at h
      cases h
      exact .finished (by simpa using hs)
  · cases h

/-- **The deeds of a worker** by its phase. -/
theorem deed?_leads {s : Shared} {w : Worker σ} {d : Deed} (h : w.deed? s = some d) :
    Leads s w.phase d := by
  obtain ⟨c, state, phase⟩ := w
  rcases phase with a | r | _ | _ | a | r | ⟨m, a⟩ | m | ⟨fate, rest⟩ | ⟨fate, a⟩ | ⟨status, error⟩ |
    p | summary | _
  case initializing => exact .operation _ d (Activity.deed?_isOperation state h)
  case checking =>
    by_cases hs : s.stopped = true
    · simp only [deed?, if_pos hs] at h
      cases h
      exact .left _ _ (by decide)
    · simp only [deed?, if_neg hs] at h
      cases h
      exact .began (by simpa using hs)
  case working =>
    rcases a.ends_or_ongoing with ⟨r, rfl⟩ | ⟨p, rfl⟩ | hgo
    · cases h
      exact .answered r
    · cases h
    · have hd : deed? s ⟨c, state, .working a⟩ = a.deed? s c := deed?_working hgo
      exact .operation _ d (Activity.deed?_isOperation state (hd.symm.trans h))
  case judging => exact leads_judging h
  case diverting =>
    rcases a.ends_or_ongoing with ⟨r, rfl⟩ | ⟨p, rfl⟩ | hgo
    · simp only [deed?, afterDiversion] at h
      rcases r with e | _
      · dsimp only at h
        split at h
        · cases h
          exact .left _ _ (by decide)
        · cases h
      · cases h
    · cases h
    · have hd : deed? s ⟨c, state, .diverting m a⟩ = a.deed? s c := deed?_diverting hgo
      exact .operation _ d (Activity.deed?_isOperation state (hd.symm.trans h))
  case failing =>
    cases h
    exact .left _ _ (by decide)
  case crashed =>
    cases h
    exact .left _ _ (by decide)
  case closing =>
    rcases rest with _ | ⟨i, rest⟩ <;> cases h
    exact .closed fate i rest
  case disposing => exact .operation _ d (Activity.deed?_isOperation state h)
  case sending =>
    cases h
    exact .sent summary
  all_goals cases h

variable [Transform σ]

theorem step_aims {s : Shared} {w : Worker σ} (haim : w.Aims) : (w.step s).2.Aims := by
  have hmoves := w.step_moves s
  generalize w.deed? s = d, (w.step s).1 = s', (w.step s).2 = w' at hmoves ⊢
  obtain ⟨c, state, phase⟩ := w
  have hnone : ∀ {c' : Context} {i : Nat}, i ∈ ([] : List Nat) → i ∈ c'.written :=
    fun h => absurd h List.not_mem_nil
  cases hmoves
  case initializing => exact Activity.step_pending haim
  case working => exact Activity.step_pending haim
  case diverting => exact Activity.step_pending haim
  case disposing => exact Activity.step_pending haim
  case closes => exact fun j hj => haim j (List.mem_cons_of_mem _ hj)
  -- a worker that leaves closes what it writes to
  case stops => exact fun i hi => hi
  case exhausted => exact fun i hi => hi
  case cut => exact fun i hi => hi
  case interrupted => exact fun i hi => hi
  case fails => exact fun i hi => hi
  case disposed fate => cases fate <;> exact fun i => hnone
  case undisposed fate _ => cases fate <;> exact fun i => hnone
  all_goals exact fun i => hnone

end Worker

end Rowflow
