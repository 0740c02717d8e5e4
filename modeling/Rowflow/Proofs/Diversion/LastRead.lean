import Rowflow.Proofs.Course.Grounds

/-!
# The row that a call has read last

The deeds of a worker tell which row the call at hand has read last (`Deed.lastRead`): none at its
beginning, none after a read that was answered with no row, else the row of the last read, as it was
taken out of its row set. So they tell as well which rows are to be diverted: whenever a call fails
with a row error, the one that it has read last (`Deed.owed`). If there is none, the call has failed
for good (`Deed.Doomed`). A context that diverts rows remembers the same row, with its layout, whatever
the call does besides (`Activity.step_atHand`).
-/

namespace Rowflow

/-! ### What the deeds tell -/

namespace Deed

/-- The row that the call at hand has read last, when a deed is done. -/
def retain (before : Option Entry) : Deed → Option Entry
  | took _ e => some e
  | ranDry | began => none
  | _ => before

/-- The row that the call at hand has read last, when a step is done that may be no deed. -/
def retain? (before : Option Entry) : Option Deed → Option Entry
  | some d => d.retain before
  | none => before

/-- The row that the call at hand has read last, from deeds given with the last one first. -/
def lastRead : List Deed → Option Entry
  | [] => none
  | d :: older => d.retain (lastRead older)

/-- What is said about the row, if the deed is that a call fails with a row error. -/
def diagnosis? : Deed → Option Diagnosis
  | answered (.error (.row message fields codes)) => some ⟨1, message, fields, codes⟩
  | _ => none

/-- The row, if there is one, with what is said about it. -/
def charge (row : Option Entry) (why : Option Diagnosis) : List (Entry × Diagnosis) :=
  match row, why with
  | some e, some why => [(e, why)]
  | _, _ => []

/-- The rows that are to be diverted, in order: of every call that has failed with a row error the one
that it has read last. -/
def owed : List Deed → List (Entry × Diagnosis)
  | [] => []
  | d :: older => owed older ++ charge (lastRead older) d.diagnosis?

/-- A call has failed with a row error, but its last read, if any, has not given a row. -/
def Doomed : List Deed → Prop
  | [] => False
  | d :: older => (lastRead older = none ∧ d.diagnosis?.isSome = true) ∨ Doomed older

/-- The deed is one of a worker that ends, with the status `Errored`. -/
def Parting : Deed → Prop
  | began | answered _ => False
  | left status => status = .errored
  | sent summary => summary.status = .errored
  | _ => True

/-- After a call has failed for good, the worker does nothing but end. -/
def Heeds : List Deed → Prop
  | [] => True
  | d :: older => (Doomed older → d.Parting) ∧ Heeds older

/-- A step after the given deeds that asks for no row, and goes on ending if a call has failed for
good. -/
def Mild (ds : List Deed) (d : Option Deed) : Prop :=
  ∀ x ∈ d, x.diagnosis? = none ∧ (Doomed ds → x.Parting)

variable {d : Deed} {ds newer older : List Deed}

theorem mild_none (ds : List Deed) : Mild ds none := fun _ h => by cases h

theorem mild_some (hd : d.diagnosis? = none) (hparting : Doomed ds → d.Parting) :
    Mild ds (some d) := by
  rintro x ⟨⟩
  exact ⟨hd, hparting⟩

theorem IsOperation.mild (h : d.IsOperation) (ds : List Deed) : Mild ds (some d) := by
  cases d
  case took => exact mild_some rfl fun _ => trivial
  case ranDry => exact mild_some rfl fun _ => trivial
  case gave => exact mild_some rfl fun _ => trivial
  case refused => exact mild_some rfl fun _ => trivial
  all_goals exact absurd h id

/-- Unless a call fails with a row error, nothing is said about a row. -/
theorem diagnosis?_error {e : TransformError} (h : ∀ message fields codes, e ≠ .row message fields codes) :
    (answered (.error e)).diagnosis? = none := by
  cases e
  case row message fields codes => exact absurd rfl (h message fields codes)
  all_goals rfl

theorem charge_none (row : Option Entry) : charge row none = [] := by
  cases row <;> rfl

theorem retain?_ofRefusal {α : Type} (before : Option Entry) (r : Except TransformError α) :
    retain? before (ofRefusal r) = before := by
  cases r <;> rfl

theorem lastRead_append (d : Option Deed) (ds : List Deed) :
    lastRead (d.toList ++ ds) = retain? (lastRead ds) d := by
  cases d <;> rfl

theorem Mild.owed_append {d : Option Deed} (h : Mild ds d) : owed (d.toList ++ ds) = owed ds := by
  rcases d with _ | d
  · rfl
  · show owed ds ++ charge (lastRead ds) d.diagnosis? = owed ds
    rw [(h d rfl).1, charge_none, List.append_nil]

theorem Mild.doomed_append {d : Option Deed} (h : Mild ds d) :
    Doomed (d.toList ++ ds) ↔ Doomed ds := by
  rcases d with _ | d
  · exact Iff.rfl
  · refine ⟨fun hd => hd.resolve_left fun hnow => ?_, Or.inr⟩
    rw [(h d rfl).1] at hnow
    cases hnow.2

theorem Mild.heeds_append {d : Option Deed} (h : Mild ds d) (hheeds : Heeds ds) :
    Heeds (d.toList ++ ds) := by
  rcases d with _ | d
  · exact hheeds
  · exact ⟨(h d rfl).2, hheeds⟩

/-- Whatever is done after a call has failed for good is the deed of a worker that ends. -/
theorem Heeds.parting (h : Heeds (newer ++ d :: older)) (hrow : lastRead older = none)
    (hd : d.diagnosis?.isSome = true) :
    Doomed (newer ++ d :: older) ∧ ∀ x ∈ newer, x.Parting := by
  induction newer with
  | nil => exact ⟨Or.inl ⟨hrow, hd⟩, fun _ hx => by cases hx⟩
  | cons y newer ih =>
    obtain ⟨hdoomed, hparting⟩ := ih h.2
    exact ⟨Or.inr hdoomed, List.forall_mem_cons.mpr ⟨h.1 hdoomed, hparting⟩⟩

end Deed

/-! ### What a context remembers -/

namespace Context

/-- The row that is diverted if the call at hand fails, with its layout. -/
def atHand (c : Context) : Option Entry :=
  match c.inputLayout, c.currentRow with
  | some layout, some row => some ⟨layout, row⟩
  | _, _ => none

variable {s s' : Shared} {c c' : Context}

theorem atHand_forget (c : Context) : ({ c with currentRow := none } : Context).atHand = none := by
  unfold atHand
  cases c.inputLayout <;> rfl

theorem atHand_eq_none (h : c.inputLayout = none ∨ c.currentRow = none) : c.atHand = none := by
  unfold atHand
  rcases h with h | h
  · rw [h]
  · rw [h]
    cases c.inputLayout <;> rfl

theorem atHand_congr (hl : c'.inputLayout = c.inputLayout) (hr : c'.currentRow = c.currentRow) :
    c'.atHand = c.atHand := by
  unfold atHand
  rw [hl, hr]

theorem Leads.diverts (h : c.Leads s c') : c'.diverts = c.diverts := by
  have := congrArg Option.isSome h.errors
  rwa [Option.isSome_map, Option.isSome_map] at this

theorem atHand_startWrite (c : Context) (e : Entry) : (c.startWrite e).1.atHand = c.atHand := by
  rcases startWrite_cases c e with ⟨-, h⟩ | ⟨-, ⟨-, h⟩ | ⟨-, -, h⟩ | ⟨t, i, -, -, h⟩⟩ <;> rw [h]
  exact atHand_congr rfl rfl

theorem atHand_startDivert (c : Context) (s : Shared) (e : Entry) (why : Diagnosis) :
    (c.startDivert s e why).2.1.atHand = c.atHand := by
  rcases startDivert_cases c s e why with ⟨-, h⟩ | ⟨route, maximum, next, -, -, h⟩ |
    ⟨route, -, -, h⟩ | ⟨route, count, -, -, h⟩ <;> rw [h]
  exact atHand_congr rfl rfl

theorem Delivered.atHand {d : Delivery} {deed : Option Deed} {r : Progress}
    (h : Delivered s c d deed s' c' r) : c'.atHand = Deed.retain? c.atHand deed := by
  cases h
  case full => rfl
  case refused => rfl
  case partly => rfl
  case last => exact atHand_congr rfl rfl
  case nowhere => exact atHand_congr rfl rfl

end Context

namespace Activity

variable {σ α : Type} {s s' : Shared} {c c' : Context}

theorem ReadStep.atHand {next : Option Entry → Plan σ α} {deed : Option Deed} {a : Activity σ α}
    (h : ReadStep s c next deed s' c' a) (hd : c.diverts = true) :
    (∃ p, a = .broken p) ∨ c'.atHand = Deed.retain? c.atHand deed := by
  cases h
  case on => exact Or.inr (Context.atHand_congr rfl rfl)
  case dry => exact Or.inr c.atHand_forget
  case row e _ _ _ _ _ _ _ =>
    -- what is remembered is the row that the read is answered with
    right
    simp only [Context.atHand, if_pos hd]
    rfl
  case broken p _ _ _ _ => exact Or.inl ⟨p, rfl⟩

theorem mild_deed? (state : σ) (ds : List Deed) (a : Activity σ α) : Deed.Mild ds (a.deed? s c) :=
  fun x hx => (deed?_isOperation state hx).mild ds x rfl

/-- **The context remembers the row that was read last**, unless a listener breaks down. -/
theorem step_atHand (d : Desk σ) (a : Activity σ α) (hd : d.context.diverts = true) :
    (∃ p, (a.step d).2 = .broken p) ∨
      (a.step d).1.context.atHand =
        Deed.retain? d.context.atHand (a.deed? d.shared d.context) := by
  cases a
  case run plan =>
    obtain ⟨s, c, state⟩ := d
    right
    cases plan
    case write e next =>
      simp only [step, stepPlan, startDelivery_desk, deed?, Deed.retain?_ofRefusal]
      exact c.atHand_startWrite e
    case writeTo target e next =>
      simp only [step, stepPlan, startDelivery_desk, deed?, Deed.retain?_ofRefusal]
    case divert e why next =>
      simp only [step, stepPlan, startDiversion_desk, deed?]
      rw [c.atHand_startDivert s e why]
      rcases (c.startDivert s e why).2.2 with p | r
      · rfl
      · exact (Deed.retain?_ofRefusal _ r).symm
    case await =>
      simp only [step, stepPlan]
      split <;> rfl
    all_goals rfl
  case reading stage next => exact (stepRead_spec d stage next).2.atHand hd
  case writing del next =>
    obtain ⟨s, c, state⟩ := d
    have hstep := (c.deliver_spec s del).atHand
    simp only [step, deed?]
    rcases hr : c.deliver s del with ⟨s', c', del' | r | p⟩ <;> rw [hr] at hstep
    · exact Or.inr hstep
    · exact Or.inr hstep
    · exact Or.inl ⟨p, rfl⟩
  case resting =>
    right
    simp only [step]
    split <;> rfl
  case done => exact Or.inr rfl
  case broken p => exact Or.inl ⟨p, rfl⟩

end Activity

end Rowflow
