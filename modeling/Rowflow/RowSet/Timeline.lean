import Rowflow.RowSet.Basic

/-!
# A row set in the course of time

One writer or reader uses a row set now, and others are going to do something to it later. A writer
waits for room and a reader for rows; both look up when the other side has done something, and at
the latest after the poll interval. The stop flag wakes nobody, so it is seen at the next look. Time
is counted in microseconds, and only waiting takes time.
-/

namespace Rowflow

/-- What somebody else is going to do. -/
inductive LaterAction where
  | stop
  | finish
  | take
  | put (entry : Entry)
  deriving Inhabited

/-- Who waits. -/
inductive Waiter where
  | reader
  | writer
  deriving DecidableEq, Repr

/-- Something that is going to happen. -/
structure Appointment where
  time : Nat
  action : LaterAction
  deriving Inhabited

/-- A row set with what is going to happen to it. -/
structure Timeline where
  rowSet : RowSet
  /-- Whether the stop flag is that of the row set. -/
  linked : Bool
  stopRequested : Bool := false
  poll : Nat
  clock : Nat := 0
  agenda : List Appointment := []

namespace Timeline

/-- Whether the row set sees that it is stopped. -/
def stopped (t : Timeline) : Bool := t.linked && t.stopRequested

/-- The row set after an entry has been offered, with what became of it. -/
def offer (t : Timeline) (e : Entry) : Timeline × RowSet.Admission :=
  match t.rowSet.admission t.stopped with
  | .room => ({ t with rowSet := t.rowSet.accept e }, .room)
  | a => (t, a)

/-- The row set after its next entry has been asked for, with the answer. -/
def poll? (t : Timeline) : Timeline × RowSet.Front :=
  match t.rowSet.front with
  | .row e => ({ t with rowSet := t.rowSet.advance }, .row e)
  | f => (t, f)

/-- Puts an appointment into the agenda, behind those of the same time. -/
def appoint (a : Appointment) : List Appointment → List Appointment
  | [] => [a]
  | b :: rest => if a.time < b.time then a :: b :: rest else b :: appoint a rest

/-- Does what is due, and says who is woken by it. What cannot be done yet is put off. -/
def perform (t : Timeline) (a : Appointment) : Timeline × Option Waiter :=
  let again := { t with agenda := appoint { a with time := t.clock + t.poll } t.agenda }
  match a.action with
  | .stop => ({ t with stopRequested := true }, none)
  | .finish => ({ t with rowSet := t.rowSet.finish }, none)
  | .take =>
    match t.poll? with
    | (t, .row _) => (t, some .writer)
    | (t, .done) => (t, none)
    | (_, .empty) => if t.stopped then (t, none) else (again, none)
  | .put e =>
    match t.offer e with
    | (t, .room) => (t, some .reader)
    | (_, .full) => (again, none)
    | (t, _) => (t, none)

/-- Whether a waiter is woken by an appointment; an end mark wakes everybody. -/
def wakes (who : Waiter) (a : Appointment) (woken : Option Waiter) : Bool :=
  match a.action with
  | .finish => true
  | _ => woken = some who

/-- Waits up to a time, or until the other side has done something. -/
def sleep (who : Waiter) (limit : Nat) : Nat → Timeline → Timeline
  | 0, t => { t with clock := limit }
  | fuel + 1, t =>
    match t.agenda with
    | [] => { t with clock := limit }
    | a :: rest =>
      if limit < a.time then { t with clock := limit }
      else
        let (t, woken) := ({ t with clock := max t.clock a.time, agenda := rest }).perform a
        if wakes who a woken then t else sleep who limit fuel t

/-- How often somebody looks before waiting is given up. -/
def patience : Nat := 1000000

/-- Writes an entry, waiting for room up to a time, if one is given. -/
def put (e : Entry) (deadline : Option Nat) : Nat → Timeline → Timeline × RowSet.Admission
  | 0, t => (t, .full)
  | fuel + 1, t =>
    match t.offer e with
    | (t, .full) =>
      match deadline with
      | some d =>
        if d ≤ t.clock then (t, .full)
        else put e deadline fuel (sleep .writer (min d (t.clock + t.poll)) patience t)
      | none => put e deadline fuel (sleep .writer (t.clock + t.poll) patience t)
    | answer => answer

/-- Reads an entry, waiting for one as long as more can come. -/
def get : Nat → Timeline → Timeline × Option Entry
  | 0, t => (t, none)
  | fuel + 1, t =>
    match t.poll? with
    | (t, .row e) => (t, some e)
    | (t, .done) => (t, none)
    | (t, .empty) =>
      if t.stopped then (t, none)
      else get fuel (sleep .reader (t.clock + t.poll) patience t)

/-- Reads an entry, waiting for one at most for a number of milliseconds, and only once. -/
def getWithin (t : Timeline) (millis : Nat) : Timeline × RowSet.Front :=
  match t.rowSet.front with
  | .empty => (sleep .reader (t.clock + millis * 1000) patience t).poll?
  | _ => t.poll?

/-- Raises the stop flag; whether this was the first time. -/
def requestStop (t : Timeline) : Timeline × Bool :=
  ({ t with stopRequested := true }, !t.stopRequested)

/-- Has something happen after a number of milliseconds. -/
def later (t : Timeline) (millis : Nat) (action : LaterAction) : Timeline :=
  { t with agenda := appoint ⟨t.clock + millis * 1000, action⟩ t.agenda }

/-- Waits until everything is done that was to happen. -/
def join : Nat → Timeline → Timeline
  | 0, t => t
  | fuel + 1, t =>
    match t.agenda with
    | [] => t
    | a :: rest => join fuel (({ t with clock := max t.clock a.time, agenda := rest }).perform a).1

end Timeline

end Rowflow
