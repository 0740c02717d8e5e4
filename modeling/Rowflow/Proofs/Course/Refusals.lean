import Rowflow.Proofs.Course.Doing

/-!
# Operations that are refused

An operation is declined at once, or it is refused later by a row set that has its end mark, or that has
no room when the run is stopped (`Context.Undeliverable`). Nothing but the log knows of the step in which
that turns out: row sets, error counts, listeners and counters stay as they are (`Worker.step_refused`).
-/

namespace Rowflow

variable {σ α : Type} {s : Shared} {err : TransformError}

theorem Shared.collectors_sayAll (s : Shared) (ms : List Log.Message) :
    (s.sayAll ms).collectors = s.collectors := by
  unfold sayAll
  induction ms generalizing s with
  | nil => rfl
  | cons m ms ih => exact ih (s.say m)

namespace Context

/-- A step that only the log knows of. -/
structure Spares (s s' : Shared) (c c' : Context) : Prop where
  same : s.Same s'
  collectors : s'.collectors = s.collectors
  counters : c'.counters = c.counters

/-- Why a delivery is refused: the row set that comes next has its end mark, or it has no room and the
run is stopped. -/
inductive Undeliverable (s : Shared) (del : Delivery) : TransformError → Prop where
  | closed (i : Nat) (rest : List Nat) (pending : del.pending = i :: rest) (done : s.done i = true) :
    Undeliverable s del (del.purpose.failure (.closed (s.rowSetName i)))
  | stopped (i : Nat) (rest : List Nat) (pending : del.pending = i :: rest)
      (found : s.admission i = .stopped) :
    Undeliverable s del (del.purpose.failure (.stopped (s.rowSetName i)))

variable {c : Context} {del : Delivery}

theorem undeliverable_of_refused (h : deliveryDeed? s del = some (.refused err)) :
    Undeliverable s del err := by
  unfold deliveryDeed? at h
  rcases hp : del.pending with _ | ⟨i, rest⟩ <;> rw [hp] at h
  · cases h
  · rcases s.admission_cases i with ⟨ha, hd⟩ | ⟨ha, -⟩ | ⟨ha, -⟩ | ⟨ha, -⟩ <;> simp only [ha] at h <;>
      cases h
    · exact .closed i rest hp hd
    · exact .stopped i rest hp ha

theorem Delivered.refused_spares {s' : Shared} {c' : Context} {r : Progress}
    (h : Delivered s c del (some (.refused err)) s' c' r) :
    Spares s s' c c' ∧ ∀ del', r ≠ .pending del' := by
  cases h
  exact ⟨⟨.refl s, rfl, rfl⟩, fun _ h => by cases h⟩

end Context

namespace Activity

variable {a : Activity σ α} {d : Desk σ}

theorem startDelivery_spares (d : Desk σ) {r : Except TransformError Context.Delivery}
    (next : Except TransformError Unit → Plan σ α) (h : Deed.ofRefusal r = some (.refused err)) :
    (startDelivery d r next).1 = d ∧ (startDelivery d r next).2.delivery? = none := by
  rcases r with e | del
  · exact ⟨rfl, rfl⟩
  · cases h

/-- **A step that is refused** ends its delivery, and only the log knows of it. -/
theorem step_refused (h : a.deed? d.shared d.context = some (.refused err)) :
    Context.Spares d.shared (a.step d).1.shared d.context (a.step d).1.context ∧
      (a.step d).2.delivery? = none := by
  obtain ⟨s, c, state⟩ := d
  rcases a with plan | ⟨stage, next⟩ | ⟨del, next⟩ | _ | _ | _
  case run =>
    cases plan
    case write e next =>
      simp only [deed?] at h
      obtain ⟨hdesk, hended⟩ := startDelivery_spares ⟨s, (c.startWrite e).1, state⟩ next h
      simp only [step, stepPlan]
      rw [hdesk]
      refine ⟨⟨.refl s, rfl, ?_⟩, hended⟩
      rcases c.startWrite_cases e with ⟨-, hw⟩ | ⟨-, ⟨-, hw⟩ | ⟨-, -, hw⟩ | ⟨t, i, -, -, hw⟩⟩ <;> rw [hw]
    case writeTo target e next =>
      simp only [deed?] at h
      obtain ⟨hdesk, hended⟩ := startDelivery_spares ⟨s, c, state⟩ next h
      simp only [step, stepPlan]
      rw [hdesk]
      exact ⟨⟨.refl s, rfl, rfl⟩, hended⟩
    case divert e why next =>
      simp only [deed?] at h
      simp only [step, stepPlan]
      rcases c.startDivert_cases s e why with ⟨-, hd⟩ | ⟨route, maximum, sum, -, -, hd⟩ |
        ⟨route, -, -, hd⟩ | ⟨route, count, -, -, hd⟩ <;> rw [hd] at h ⊢
      · exact ⟨⟨.refl s, rfl, rfl⟩, rfl⟩
      · exact ⟨⟨s.same_sayAll _, s.collectors_sayAll _, rfl⟩, rfl⟩
      · cases h
      · cases h
    all_goals cases h
  case reading =>
    have hstep := (stepRead_spec ⟨s, c, state⟩ stage next).2
    rw [h] at hstep
    cases hstep
  case writing =>
    have hstep := Context.deliver_spec c s del
    rw [show Context.deliveryDeed? s del = some (.refused err) from h] at hstep
    obtain ⟨hspares, hended⟩ := hstep.refused_spares
    simp only [step]
    rcases hd : c.deliver s del with ⟨s', c', del' | r | p⟩ <;> rw [hd] at hspares hended
    · exact absurd rfl (hended del')
    · exact ⟨hspares, rfl⟩
    · exact ⟨hspares, rfl⟩
  all_goals cases h

theorem undeliverable_of_refused {c : Context} (h : a.deed? s c = some (.refused err)) :
    ∀ del ∈ a.delivery?, Context.Undeliverable s del err := by
  intro del hdel
  cases a
  case writing =>
    cases hdel
    exact Context.undeliverable_of_refused h
  all_goals cases hdel

end Activity

namespace Worker

variable {x : Worker σ}

theorem undeliverable_of_refused (h : x.deed? s = some (.refused err)) :
    ∀ del ∈ x.phase.delivery?, Context.Undeliverable s del err :=
  Phase.delivery_of_doing (P := fun o => ∀ del ∈ o, Context.Undeliverable s del err)
    (deed?_operation h trivial) Activity.undeliverable_of_refused

/-- **A worker that is refused** ends its delivery, and only the log knows of it. -/
theorem step_refused [Transform σ] (h : x.deed? s = some (.refused err)) :
    Context.Spares s (x.step s).1 x.context (x.step s).2.context ∧
      (x.step s).2.phase.delivery? = none := by
  obtain ⟨α, a, wrap, ha, hstep, hwrap⟩ := exists_operation h trivial
  rw [hstep, perform_shared, Phase.delivery?, hwrap.doing]
  exact Activity.step_refused (d := ⟨s, x.context, x.state⟩) ha

end Worker

end Rowflow
