import Rowflow.Engine.Context

/-!
# Activities

An activity is a plan in the course of being performed. One step performs one operation, or as much
of it as happens at once: a read looks at the stop flag, then polls its inputs in turn, then waits
for one of them; a write goes from row set to row set and waits where there is no room.
-/

namespace Rowflow

/-- How far a read has come. -/
inductive ReadStage where
  /-- The stop flag comes next. -/
  | check
  /-- So many inputs are still to be polled. -/
  | sweep (left : Nat)
  /-- All inputs were empty; one of them is awaited up to a time. -/
  | wait (deadline : Nat)
  deriving DecidableEq, Repr, Inhabited

/-- A plan in the course of being performed. -/
inductive Activity (σ α : Type) where
  | run (plan : Plan σ α)
  | reading (stage : ReadStage) (next : Option Entry → Plan σ α)
  | writing (delivery : Context.Delivery) (next : Except TransformError Unit → Plan σ α)
  | resting (deadline : Nat) (next : Plan σ α)
  | done (answer : α)
  | broken (panic : Panic)

namespace Activity

variable {σ α : Type}

/-- Everything that a step of one worker may change. -/
structure Desk (σ : Type) where
  shared : Shared
  context : Context
  /-- The state of the transform. -/
  state : σ

/-- Ends a read without a row. -/
def endRead (d : Desk σ) (next : Option Entry → Plan σ α) : Desk σ × Activity σ α :=
  ({ d with context := { d.context with currentRow := none } }, .run (next none))

/-- Performs the operation of a read that comes next. -/
def stepRead (d : Desk σ) (stage : ReadStage) (next : Option Entry → Plan σ α) :
    Desk σ × Activity σ α :=
  let ⟨s, c, state⟩ := d
  match stage with
  | .check =>
    if s.stopped then endRead ⟨s, c, state⟩ next
    else (⟨s, c, state⟩, .reading (.sweep c.inputs.length) next)
  | .sweep left =>
    if c.inputs.isEmpty then endRead ⟨s, c, state⟩ next
    else
      match left with
      | 0 => (⟨s, c, state⟩, .reading (.wait (s.clock + s.poll)) next)
      | left + 1 =>
        match c.poll s with
        | (s, c, .row e) => (⟨s, c, state⟩, .run (next (some e)))
        | (s, c, .broken p) => (⟨s, c, state⟩, .broken p)
        | (s, c, _) => (⟨s, c, state⟩, .reading (.sweep left) next)
  | .wait deadline =>
    match c.poll s with
    | (s, c, .row e) => (⟨s, c, state⟩, .run (next (some e)))
    | (s, c, .broken p) => (⟨s, c, state⟩, .broken p)
    | (s, c, .ended) => (⟨s, c, state⟩, .reading .check next)
    | (s, c', .empty) =>
      if deadline ≤ s.clock then (⟨s, c', state⟩, .reading .check next)
      else (⟨s, c, state⟩, .reading (.wait deadline) next)

/-- Begins with a delivery, or answers why there is none. -/
def startDelivery (d : Desk σ) (r : Except TransformError Context.Delivery)
    (next : Except TransformError Unit → Plan σ α) : Desk σ × Activity σ α :=
  match r with
  | .ok delivery => (d, .writing delivery next)
  | .error e => (d, .run (next (.error e)))

/-- Begins with the delivery of a diverted row, unless its diversion has broken down. -/
def startDiversion (d : Desk σ) (r : Except Panic (Except TransformError Context.Delivery))
    (next : Except TransformError Unit → Plan σ α) : Desk σ × Activity σ α :=
  match r with
  | .ok r => startDelivery d r next
  | .error p => (d, .broken p)

/-- Performs the operation of a plan that comes next. -/
def stepPlan (d : Desk σ) (plan : Plan σ α) : Desk σ × Activity σ α :=
  let ⟨s, c, state⟩ := d
  match plan with
  | .finish a => (⟨s, c, state⟩, .done a)
  | .halt p => (⟨s, c, state⟩, .broken p)
  | .save state next => (⟨s, c, state⟩, .run next)
  | .look next => (⟨s, c, state⟩, .run (next (c.view s)))
  | .read next => (⟨s, c, state⟩, .reading .check next)
  | .write e next =>
    let (c, r) := c.startWrite e
    startDelivery ⟨s, c, state⟩ r next
  | .writeTo target e next => startDelivery ⟨s, c, state⟩ (c.startWriteTo target e) next
  | .divert e why next =>
    let (s, c, r) := c.startDivert s e why
    startDiversion ⟨s, c, state⟩ r next
  | .stopAll next => (⟨s.requestStop c.name, c, state⟩, .run next)
  | .report m next => (⟨s.say m, c, state⟩, .run next)
  | .note o next => (⟨s.note c.name o, c, state⟩, .run next)
  | .mark next => (⟨s.reach (.marked c.name), c, state⟩, .run next)
  | .await m next =>
    if m ∈ s.reached then (⟨s, c, state⟩, .run next) else (⟨s, c, state⟩, .run (.await m next))
  | .pause millis next => (⟨s, c, state⟩, .resting (s.clock + millis * 1000) next)

/-- One step of an activity; one that has ended stays as it is. -/
def step (d : Desk σ) : Activity σ α → Desk σ × Activity σ α
  | .run plan => stepPlan d plan
  | .reading stage next => stepRead d stage next
  | .writing delivery next =>
    let ⟨s, c, state⟩ := d
    match c.deliver s delivery with
    | (s, c, .pending delivery) => (⟨s, c, state⟩, .writing delivery next)
    | (s, c, .answered r) => (⟨s, c, state⟩, .run (next r))
    | (s, c, .broken p) => (⟨s, c, state⟩, .broken p)
  | .resting deadline next =>
    if deadline ≤ d.shared.clock then (d, .run next) else (d, .resting deadline next)
  | .done a => (d, .done a)
  | .broken p => (d, .broken p)

/-- Whether a step would change nothing. -/
def waits (s : Shared) (c : Context) : Activity σ α → Bool
  | .run (.await m _) => m ∉ s.reached
  | .reading (.wait deadline) _ =>
    match c.inputs[c.turn]? with
    | none => false
    | some i => s.front i = .empty && s.clock < deadline
  | .writing delivery _ =>
    match delivery.pending with
    | [] => false
    | i :: _ => s.admission i = .full
  | .resting deadline _ => s.clock < deadline
  | _ => false

/-- The time at which an activity that waits goes on by itself. -/
def wakesAt? : Activity σ α → Option Nat
  | .reading (.wait deadline) _ => some deadline
  | .resting deadline _ => some deadline
  | _ => none

end Activity

end Rowflow
