import Rowflow.Transform.Error

/-!
# Listeners

A listener is told every row that a transform reads, writes and diverts, and keeps them in a
collector that it may share with other listeners. A listener may also break down when it is told of
a row.
-/

namespace Rowflow

/-- What happened to a row. -/
inductive RowEvent where
  | read
  | written
  | diverted
  deriving DecidableEq, Repr, Inhabited

/-- Rows by what happened to them, in the order of arrival. -/
structure Collector where
  read : Array Entry := #[]
  written : Array Entry := #[]
  diverted : Array Entry := #[]
  deriving Inhabited

namespace Collector

/-- The rows to which something happened. -/
def rows (c : Collector) : RowEvent → Array Entry
  | .read => c.read
  | .written => c.written
  | .diverted => c.diverted

/-- Keeps one more row. -/
def record (c : Collector) (event : RowEvent) (e : Entry) : Collector :=
  match event with
  | .read => { c with read := c.read.push e }
  | .written => { c with written := c.written.push e }
  | .diverted => { c with diverted := c.diverted.push e }

/-- The values of a field in all written rows that have it. -/
def writtenValues (c : Collector) (field : String) : List Value :=
  c.written.toList.filterMap fun e => e.row.valueOf? e.layout field

end Collector

/-- A listener: the collector it keeps rows in, and when it breaks down. -/
structure Listener where
  collector : Nat
  fails : RowEvent → Entry → Option Panic := fun _ _ => none

/-- Tells listeners of a row, in order, up to the first that breaks down. -/
def tell (listeners : List Listener) (event : RowEvent) (e : Entry) (collectors : Array Collector) :
    Array Collector × Option Panic :=
  match listeners with
  | [] => (collectors, none)
  | l :: rest =>
    match l.fails event e with
    | some p => (collectors, some p)
    | none => tell rest event e (collectors.modify l.collector (·.record event e))

end Rowflow
