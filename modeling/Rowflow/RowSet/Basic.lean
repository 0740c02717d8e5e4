import Rowflow.Row.Basic
import Rowflow.Text.Quoted

/-!
# Row sets

A row set is a bounded queue of entries with an end mark. It keeps everything it has accepted, in
order, and counts how many of these entries it has delivered, so that the entries waiting in it are
those accepted and not yet delivered.

A writer first asks for `admission` and then calls `accept`; a reader looks at the `front` and then
calls `advance`. Whether a writer or a reader waits is decided by its caller.
-/

namespace Rowflow

/-- Why a row set does not take an entry. -/
inductive RowSetError where
  /-- The row set has its end mark. -/
  | closed (name : String)
  /-- The run was stopped while the writer waited for room. -/
  | stopped (name : String)
  deriving DecidableEq, Repr, Inhabited

namespace RowSetError

/-- The text of an error. -/
protected def render : RowSetError → String
  | .closed name => "row set " ++ name ++ " is closed"
  | .stopped name => "run stopped while writing to row set " ++ name

/-- Whether the error only says that the run was stopped. -/
def isStop : RowSetError → Bool
  | .closed _ => false
  | .stopped _ => true

end RowSetError

/-- A bounded queue of entries with an end mark. -/
structure RowSet where
  /-- The writing side. -/
  origin : String := "producer"
  /-- The reading side. -/
  target : String := "consumer"
  /-- How many entries may wait. -/
  capacity : Nat
  capacity_pos : 0 < capacity := by decide
  /-- Every entry taken so far. -/
  accepted : Array Entry := #[]
  /-- How many of them have been handed out. -/
  delivered : Nat := 0
  delivered_le : delivered ≤ accepted.size := by simp
  /-- Whether no further entry is taken. -/
  isDone : Bool := false

namespace RowSet

/-- An empty row set; a capacity of zero counts as one. -/
def new (capacity : Nat) (origin : String := "producer") (target : String := "consumer") :
    RowSet where
  origin
  target
  capacity := max capacity 1
  capacity_pos := by omega

instance : Inhabited RowSet := ⟨new 1⟩

/-- The name, made of both sides. -/
def name (r : RowSet) : String := r.origin ++ " -> " ++ r.target

/-- The number of entries that wait. -/
def size (r : RowSet) : Nat := r.accepted.size - r.delivered

/-- The entries that wait, the next one first. -/
def waiting (r : RowSet) : List Entry := r.accepted.toList.drop r.delivered

/-- The fields of a row set in braces. -/
def describe (r : RowSet) : String :=
  "RowSet \x7b origin: " ++ Text.quote r.origin ++ ", destination: " ++ Text.quote r.target ++
    ", capacity: " ++ Text.showNat r.capacity ++ ", size: " ++ Text.showNat r.size ++
    ", done: " ++ (if r.isDone then "true" else "false") ++ " \x7d"

/-! ### Writing -/

/-- What a writer finds. -/
inductive Admission where
  | room
  | closed
  | stopped
  | full
  deriving DecidableEq, Repr

/-- Whether an entry would be taken now; a stop only counts if there is no room. -/
def admission (r : RowSet) (stopped : Bool) : Admission :=
  if r.isDone then .closed
  else if r.size < r.capacity then .room
  else if stopped then .stopped
  else .full

/-- The row set with one more entry. -/
def accept (r : RowSet) (e : Entry) : RowSet :=
  { r with
    accepted := r.accepted.push e
    delivered_le := by
      have := r.delivered_le
      simp only [Array.size_push]
      omega }

/-- The row set with its end mark. -/
def finish (r : RowSet) : RowSet := { r with isDone := true }

/-! ### Reading -/

/-- What a reader finds. -/
inductive Front where
  | row (entry : Entry)
  | empty
  | done
  deriving DecidableEq

/-- The next entry; without one, whether more can come. -/
def front (r : RowSet) : Front :=
  match r.accepted[r.delivered]? with
  | some e => .row e
  | none => if r.isDone then .done else .empty

/-- The row set after its next entry has been handed out. -/
def advance (r : RowSet) : RowSet :=
  if h : r.delivered < r.accepted.size then
    { r with delivered := r.delivered + 1, delivered_le := h }
  else r

end RowSet

end Rowflow
