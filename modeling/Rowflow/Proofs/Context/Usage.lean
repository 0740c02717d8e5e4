import Mathlib.Data.List.Basic
import Mathlib.Tactic.Common
import Rowflow.Proofs.Diversion.LastRead

/-!
# A context in use

A transform, and the runtime for it, call the operations of a context one after the other, in any order
and with any arguments. A call goes by the steps of the activity that performs it (`Activity.step`), and
between two of them others may do something: producers put rows into row sets and end them, competing
copies take rows out and count errors, time passes, somebody raises the stop flag. What happens is a
list of events, so `Usage.run` knows every use of every context, whatever the threads do.

Every look at a row set is written down with the call in which it happens (`Usage.Act`), and when a call
comes back so is its answer. Inputs are told apart by their places in the wiring, since their places in
the list of the context change when others have ended.
-/

namespace Rowflow

namespace Usage

/-! ### Calls -/

/-- What a context can be called for. -/
inductive Operation where
  /-- The next row of any input is asked for. -/
  | read
  /-- A row is written as the transform's movement says. -/
  | write (entry : Entry)
  /-- A row is written to one output. -/
  | writeTo (target : String) (entry : Entry)
  /-- A row is diverted. -/
  | divert (entry : Entry) (why : Diagnosis)
  /-- The runtime diverts the row that was read last, after a call of the transform has failed. -/
  | redirect (message : String) (fields codes : Option String)
  deriving DecidableEq

/-- The answer to a call. -/
inductive Reply where
  | row (entry : Entry)
  /-- A read has no row. -/
  | noRow
  | ok
  | error (error : TransformError)
  /-- A listener or the count of errors has broken down, and the call does not come back to its
  caller. -/
  | broken (panic : Panic)
  deriving DecidableEq

namespace Reply

/-- The answer to a read. -/
def ofRead : Option Entry → Reply
  | some e => .row e
  | none => .noRow

/-- The answer to anything else. -/
def ofWrite : Except TransformError Unit → Reply
  | .ok () => .ok
  | .error e => .error e

end Reply

/-- What is performed for an operation. The runtime takes the row that it diverts out of the context. -/
def Operation.begin (c : Context) : Operation → Context × Plan Unit Reply
  | .read => (c, .read fun r => .finish (.ofRead r))
  | .write e => (c, .write e fun r => .finish (.ofWrite r))
  | .writeTo target e => (c, .writeTo target e fun r => .finish (.ofWrite r))
  | .divert e why => (c, .divert e why fun r => .finish (.ofWrite r))
  | .redirect message fields codes =>
    ({ c with currentRow := none },
      match c.atHand with
      | some e => .divert e ⟨1, message, fields, codes⟩ fun r => .finish (.ofWrite r)
      | none => .finish (.error (.fatal message)))

/-- How far a call has come. -/
inductive Stage where
  | called
  | reading (stage : ReadStage)
  | writing (delivery : Context.Delivery)
  deriving DecidableEq

/-- Where a step of a call leads. -/
inductive Outcome where
  | goesOn (stage : Stage)
  | returns (reply : Reply)
  deriving DecidableEq

/-- Where an activity that performs an operation stands. -/
def Outcome.ofActivity : Activity Unit Reply → Outcome
  | .reading stage _ => .goesOn (.reading stage)
  | .writing d _ => .goesOn (.writing d)
  | .run (.finish reply) => .returns reply
  | .done reply => .returns reply
  | .broken p => .returns (.broken p)
  | _ => .goesOn .called

/-- The step of a call that comes next. -/
def Stage.step (s : Shared) (c : Context) (op : Operation) :
    Stage → Activity.Desk Unit × Activity Unit Reply
  | .called => Activity.step ⟨s, (op.begin c).1, ()⟩ (.run (op.begin c).2)
  | .reading stage => Activity.step ⟨s, c, ()⟩ (.reading stage fun r => .finish (.ofRead r))
  | .writing d => Activity.step ⟨s, c, ()⟩ (.writing d fun r => .finish (.ofWrite r))

/-! ### What is written down -/

/-- A look at a row set. -/
inductive Act where
  /-- The input at a place of the wiring is polled. -/
  | polled (place : Nat) (found : RowSet.Front)
  /-- An entry is offered to a row set. -/
  | offered (rowSet : Nat) (entry : Entry) (found : RowSet.Admission)
  deriving DecidableEq

namespace Act

/-- The poll of an input. -/
def poll? : Act → Option (Nat × RowSet.Front)
  | polled p found => some (p, found)
  | offered .. => none

/-- The entry that has been taken out of an input. -/
def taken? : Act → Option Entry
  | polled _ (.row e) => some e
  | _ => none

/-- The entry that has been put into a row set. -/
def given? : Act → Option (Nat × Entry)
  | offered i e .room => some (i, e)
  | _ => none

end Act

/-- What the input whose turn it is holds, if the next step of a read polls it. To go on waiting for a
row is no poll. -/
def polled? (s : Shared) (c : Context) : ReadStage → Option RowSet.Front
  | .check | .sweep 0 => none
  | .sweep (_ + 1) => c.inputs[c.turn]?.map s.front
  | .wait deadline =>
    (c.inputs[c.turn]?.map s.front).filter fun found => found ≠ .empty || deadline ≤ s.clock

/-- What is written down for the next step of a call, given the places of the inputs that are left. -/
def Stage.act? (s : Shared) (c : Context) (live : List Nat) : Stage → Option Act
  | .called => none
  | .reading stage =>
    (polled? s c stage).bind fun found => live[c.turn]?.map fun place => .polled place found
  | .writing d => d.pending.head?.map fun i => .offered i d.entry (s.admission i)

/-- What a call can leave behind apart from rows. -/
@[ext]
structure Standing where
  counters : Counters
  collectors : Array Collector
  /-- The output whose turn it is. -/
  rotation : Nat

/-- A call of an operation. -/
structure Call where
  op : Operation
  acts : List Act := []
  before : Standing

namespace Call

/-- The entries that a call has taken. -/
def taken (a : Call) : List Entry := a.acts.filterMap Act.taken?

/-- The entries that a call has given to row sets, in order. -/
def given (a : Call) : List (Nat × Entry) := a.acts.filterMap Act.given?

end Call

/-- A call that has come back or broken down. -/
structure Return extends Call where
  reply : Reply
  after : Standing
  /-- Whether the stop flag was raised at the end of the call. -/
  stopped : Bool

end Usage

/-! ### Use -/

/-- A context in use. -/
structure Usage where
  shared : Shared
  context : Context
  /-- The inputs that the context was wired with. -/
  wired : List Nat
  /-- The calls that have come back. -/
  past : List Usage.Return := []
  /-- The call at hand. -/
  now : Option (Usage.Call × Usage.Stage) := none

namespace Usage

/-- Something that others do. -/
inductive Doing where
  /-- A row set gets an entry, if there is room. -/
  | put (rowSet : Nat) (entry : Entry)
  /-- The next entry of a row set, if there is one, is taken out of it. -/
  | take (rowSet : Nat)
  | finish (rowSet : Nat)
  /-- The errors of a transform are counted. -/
  | count (slot : Nat) (errors : UInt64)
  | stop
  | pass (micros : Nat)
  deriving DecidableEq

/-- What others do to the common state. -/
def Doing.act (s : Shared) : Doing → Shared
  | .put i e => if s.admission i = .room then s.accept i e else s
  | .take i =>
    match s.front i with
    | .row _ => s.advance i
    | _ => s
  | .finish i => s.finish i
  | .count slot n => { s with errorCounts := s.errorCounts.setIfInBounds slot n }
  | .stop => { s with stopped := true }
  | .pass micros => { s with clock := s.clock + micros }

/-- Something that happens while a context is in use. -/
inductive Event where
  /-- An operation is called for, unless a call is at hand. -/
  | call (op : Operation)
  /-- The call at hand takes a step. -/
  | step
  /-- Between two calls the runtime forgets the row that was read last. -/
  | forget
  | others (doing : Doing)
  deriving DecidableEq

/-- The calls so far, the one at hand included. -/
def calls (u : Usage) : List Call := u.past.map (·.toCall) ++ (u.now.map (·.1)).toList

/-- All that has been written down, in order. -/
def acts (u : Usage) : List Act := u.calls.flatMap (·.acts)

/-- The polls so far, in order. -/
def polls (u : Usage) : List (Nat × RowSet.Front) := u.acts.filterMap Act.poll?

/-- The places, out of a number, that have not been found done. -/
def left (n : Nat) (polls : List (Nat × RowSet.Front)) : List Nat :=
  (List.range n).filter fun p => (p, .done) ∉ polls

/-- The places of the inputs that have not been found done. -/
def live (u : Usage) : List Nat := left u.wired.length u.polls

/-- What a call would leave behind if it came back now. -/
def standing (u : Usage) : Standing := ⟨u.context.counters, u.shared.collectors, u.context.nextOutput⟩

/-- The use after a step of a call. -/
def proceed (u : Usage) (call : Call) (act : Option Act) (s : Shared) (c : Context) :
    Outcome → Usage
  | .goesOn stage =>
    { u with
      shared := s
      context := c
      now := some ({ call with acts := call.acts ++ act.toList }, stage) }
  | .returns reply =>
    { u with
      shared := s
      context := c
      past := u.past ++ [{
        op := call.op
        acts := call.acts ++ act.toList
        before := call.before
        reply
        after := ⟨c.counters, s.collectors, c.nextOutput⟩
        stopped := s.stopped }]
      now := none }

/-- What an event does. -/
def perform (u : Usage) : Event → Usage
  | .call op =>
    match u.now with
    | none => { u with now := some ({ op, before := u.standing }, .called) }
    | some _ => u
  | .step =>
    match u.now with
    | none => u
    | some (call, stage) =>
      let (d, a) := stage.step u.shared u.context call.op
      u.proceed call (stage.act? u.shared u.context u.live) d.shared d.context (.ofActivity a)
  | .forget =>
    match u.now with
    | none => { u with context := { u.context with currentRow := none } }
    | some _ => u
  | .others x => { u with shared := x.act u.shared }

/-- What a list of events does. -/
def run (u : Usage) (events : List Event) : Usage := events.foldl perform u

/-- What the use of a context begins with. -/
structure Outset where
  shared : Shared
  spec : TransformSpec
  copy : Nat
  wiring : Wiring
  /-- The position of the error count. -/
  slot : Nat
  /-- The listeners that are attached to the context. -/
  listeners : List Listener := []

/-- A new context. -/
def Outset.usage (x : Outset) : Usage where
  shared := x.shared
  context := { Context.new x.spec x.copy x.wiring x.slot with listeners := x.listeners }
  wired := x.wiring.inputs

/-- The use of a context after a list of events. -/
def Outset.after (x : Outset) (events : List Event) : Usage := x.usage.run events

/-! ### Activities of workers -/

section Activities

variable {σ α : Type}

/-- Plans that ask for an operation, with how they go on after its answer. -/
inductive Asks (next : Reply → Plan σ α) : Plan σ α → Operation → Prop where
  | read : Asks next (.read fun r => next (.ofRead r)) .read
  | write (e : Entry) : Asks next (.write e fun r => next (.ofWrite r)) (.write e)
  | writeTo (target : String) (e : Entry) :
      Asks next (.writeTo target e fun r => next (.ofWrite r)) (.writeTo target e)
  | divert (e : Entry) (why : Diagnosis) :
      Asks next (.divert e why fun r => next (.ofWrite r)) (.divert e why)

/-- The activity that performs the operation of a plan. -/
def Stage.activity (plan : Plan σ α) (next : Reply → Plan σ α) : Stage → Activity σ α
  | .called => .run plan
  | .reading stage => .reading stage fun r => next (.ofRead r)
  | .writing d => .writing d fun r => next (.ofWrite r)

/-- How the activity that performs the operation of a plan goes on. -/
def Outcome.activity (plan : Plan σ α) (next : Reply → Plan σ α) : Outcome → Activity σ α
  | .goesOn stage => stage.activity plan next
  | .returns (.broken p) => .broken p
  | .returns reply => .run (next reply)

/-- **The steps of a call are those of every activity that performs the operation,** whatever the plan
does with the answer. -/
theorem Asks.step_activity {plan : Plan σ α} {next : Reply → Plan σ α} {op : Operation}
    (h : Asks next plan op) (d : Activity.Desk σ) (stage : Stage) :
    let (d', a) := stage.step d.shared d.context op
    Activity.step d (stage.activity plan next) =
      (⟨d'.shared, d'.context, d.state⟩, (Outcome.ofActivity a).activity plan next) := by
  obtain ⟨s, c, state⟩ := d
  cases stage with
  | called =>
    simp only [Stage.step, Stage.activity, Operation.begin, Activity.step]
    cases h with
    | read => rfl
    | write e =>
      simp only [Activity.stepPlan]
      rcases c.startWrite e with ⟨c', err | d⟩ <;> rfl
    | writeTo target e =>
      simp only [Activity.stepPlan]
      rcases c.startWriteTo target e with err | d <;> rfl
    | divert e why =>
      simp only [Activity.stepPlan]
      rcases c.startDivert s e why with ⟨s', c', p | err | d⟩ <;> rfl
  | reading stage =>
    simp only [Stage.step, Stage.activity, Activity.step]
    cases stage with
    | check =>
      simp only [Activity.stepRead]
      split <;> rfl
    | sweep left =>
      simp only [Activity.stepRead]
      split
      · rfl
      · cases left with
        | zero => rfl
        | succ left => rcases c.poll s with ⟨s', c', e | p | _ | _⟩ <;> rfl
    | wait deadline =>
      simp only [Activity.stepRead]
      rcases c.poll s with ⟨s', c', e | p | _ | _⟩
      · rfl
      · rfl
      · dsimp only
        split <;> rfl
      · rfl
  | writing d =>
    simp only [Stage.step, Stage.activity, Activity.step]
    rcases c.deliver s d with ⟨s', c', d | (err | u) | p⟩ <;> rfl

/-- When a call of the transform has failed with a row, a worker that can divert rows begins as the
runtime's diversion does. -/
theorem judge_redirect (s : Shared) {c : Context} (h : c.diverts = true) (message : String)
    (fields codes : Option String) :
    Worker.judge (σ := σ) s c (.error (.row message fields codes)) =
      (((Operation.redirect message fields codes).begin c).1,
        match c.atHand with
        | some e => .diverting message (.run (.divert e ⟨1, message, fields, codes⟩ .finish))
        | none => .failing (message ++ ": " ++ message)) := by
  unfold Worker.judge Context.atHand
  simp only [TransformError.isStop, h, Operation.begin]
  rcases c.inputLayout with _ | layout <;> rcases c.currentRow with _ | row <;> rfl

end Activities

end Usage

end Rowflow
