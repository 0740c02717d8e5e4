import Mathlib.Tactic.Common
import Rowflow.Engine.World

/-!
# Deeds

A deed is what a step of a worker amounts to: that it takes an entry out of a row set or puts one
in, that it closes a row set, that a read or another operation of its transform is answered in a
way that matters, that a call begins or ends, that the worker leaves. A step is at most one deed,
`Worker.deed?`, and the row sets change by deeds alone (`Worker.step_effect` in `Course.Step`).
-/

namespace Rowflow

/-- What a step of a worker amounts to. -/
inductive Deed where
  /-- A call of the transform begins. -/
  | began
  /-- An entry is taken out of a row set. -/
  | took (rowSet : Nat) (entry : Entry)
  /-- A read is answered with no row. -/
  | ranDry
  /-- An entry is put into a row set. -/
  | gave (rowSet : Nat) (entry : Entry)
  /-- An operation is answered with an error. -/
  | refused (error : TransformError)
  /-- The call of the transform ends with an answer. -/
  | answered (result : Except TransformError Bool)
  /-- The worker leaves the loop of calls, with a status that stays. -/
  | left (status : WorkerStatus)
  /-- A row set gets its end mark. -/
  | closed (rowSet : Nat)
  /-- The worker reports. -/
  | sent (summary : Summary)
  deriving DecidableEq

namespace Deed

/-- What a deed does to the row sets. -/
def act (rowSets : Array RowSet) : Deed → Array RowSet
  | took i _ => rowSets.modify i (·.advance)
  | gave i e => rowSets.modify i (·.accept e)
  | closed i => rowSets.modify i (·.finish)
  | _ => rowSets

/-- What a step does to the row sets that may be no deed. -/
def act? (rowSets : Array RowSet) (d : Option Deed) : Array RowSet :=
  match d with
  | some d => d.act rowSets
  | none => rowSets

/-- What a deed does to the reports. -/
def post (reports : List Summary) : Deed → List Summary
  | sent summary => reports ++ [summary]
  | _ => reports

/-- What a step does to the reports that may be no deed. -/
def post? (reports : List Summary) (d : Option Deed) : List Summary :=
  match d with
  | some d => d.post reports
  | none => reports

/-- Whether a step does nothing to row sets and reports. -/
def Idle (d : Option Deed) : Prop :=
  ∀ rowSets reports, act? rowSets d = rowSets ∧ post? reports d = reports

/-- Whether a deed can be done: there is a row to take, or room for the one that is given. -/
def Enabled (s : Shared) : Deed → Prop
  | took i e => s.front i = .row e
  | gave i _ => s.admission i = .room
  | _ => True

end Deed

/-! ### The deeds of activities -/

namespace Context

/-- The deed of polling the input whose turn it is. -/
def pollDeed? (c : Context) (s : Shared) : Option Deed :=
  match c.inputs[c.turn]? with
  | none => none
  | some i =>
    match s.front i with
    | .row e => some (.took i e)
    | _ => none

/-- The deed of offering an entry to the next row set. -/
def deliveryDeed? (s : Shared) (d : Delivery) : Option Deed :=
  match d.pending with
  | [] => none
  | i :: _ =>
    match s.admission i with
    | .room => some (.gave i d.entry)
    | .closed => some (.refused (d.purpose.failure (.closed (s.rowSetName i))))
    | .stopped => some (.refused (d.purpose.failure (.stopped (s.rowSetName i))))
    | .full => none

end Context

/-- The deed of an operation that is answered at once: an error is one, anything else is none. -/
def Deed.ofRefusal {α : Type} : Except TransformError α → Option Deed
  | .error e => some (.refused e)
  | .ok _ => none

namespace Activity

variable {σ α : Type}

/-- The deed of the next step of an activity. -/
def deed? (s : Shared) (c : Context) : Activity σ α → Option Deed
  | .reading .check _ => if s.stopped then some .ranDry else none
  | .reading (.sweep left) _ =>
    if c.inputs.isEmpty then some .ranDry
    else
      match left with
      | 0 => none
      | _ + 1 => c.pollDeed? s
  | .reading (.wait _) _ => c.pollDeed? s
  | .writing d _ => Context.deliveryDeed? s d
  | .run (.write e _) => Deed.ofRefusal (c.startWrite e).2
  | .run (.writeTo target e _) => Deed.ofRefusal (c.startWriteTo target e)
  | .run (.divert e why _) => (c.startDivert s e why).2.2.toOption.bind Deed.ofRefusal
  | _ => none

end Activity

/-! ### The deeds of workers -/

namespace Phase

variable {σ : Type}

/-- The deed of entering a phase in which a worker leaves. -/
def leaving? : Phase σ → Option Deed
  | .closing (.ran status _) _ => some (.left status)
  | _ => none

end Phase

namespace Worker

variable {σ : Type}

/-- The deed of the next step of a worker. -/
def deed? (s : Shared) (w : Worker σ) : Option Deed :=
  match w.phase with
  | .initializing a => a.deed? s w.context
  | .checking => if s.stopped then some (.left .stopped) else some .began
  | .working (.done r) => some (.answered r)
  | .working a => a.deed? s w.context
  | .judging r => (judge (σ := σ) s w.context r).2.leaving?
  | .diverting message (.done r) => (afterDiversion (σ := σ) w.context message r).leaving?
  | .diverting _ a => a.deed? s w.context
  | .failing _ => some (.left .errored)
  | .crashed _ => some (.left .errored)
  | .closing _ (i :: _) => some (.closed i)
  | .disposing _ a => a.deed? s w.context
  | .sending summary => some (.sent summary)
  | _ => none

end Worker

end Rowflow
