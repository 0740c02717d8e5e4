import Rowflow.RowSet.Basic

/-!
# Several writers and readers on one row set

Every writer writes a range of integers, and all readers together read them, taking turns. What is
observed is what each reader got, whether there were ever too many rows in the row set, and how many
are left.
-/

namespace Rowflow

/-- A row set between writers and readers. -/
structure Pump where
  rowSet : RowSet
  /-- What each writer still has to write. -/
  writers : List (List Int)
  /-- What each reader got, the last integer first. -/
  readers : List (List Int)
  withinCapacity : Bool := true

namespace Pump

/-- The entry of an integer. -/
def entry (n : Int) : Entry := ⟨⟨[⟨"v", .integer, -1, -1⟩]⟩, ⟨[.integer (.ofInt n)]⟩⟩

/-- The integer of an entry. -/
def number (e : Entry) : Int :=
  match e.row.values with
  | [.integer n] => n.toInt
  | _ => 0

/-- Writers of ranges of integers one behind the other, and readers that have got nothing. -/
def new (rows capacity writers readers : Nat) : Pump where
  rowSet := .new capacity
  writers := (List.range writers).map fun p =>
    (List.range rows).map fun i => Int.ofNat (p * rows + i)
  readers := List.replicate readers []

/-- Each writer writes one integer if there is room; after the last one the row set is ended. -/
def write (p : Pump) : Pump :=
  let (rowSet, writers) := p.writers.foldl (fun (r, done) w =>
    match w with
    | [] => (r, [] :: done)
    | n :: rest =>
      if r.admission false = .room then (r.accept (entry n), rest :: done) else (r, w :: done))
    (p.rowSet, [])
  { p with
    rowSet := if writers.all List.isEmpty then rowSet.finish else rowSet
    writers := writers.reverse
    withinCapacity := p.withinCapacity && rowSet.size ≤ rowSet.capacity }

/-- Each reader reads one integer if there is one. -/
def read (p : Pump) : Pump :=
  let (rowSet, readers) := p.readers.foldl (fun (r, done) got =>
    match r.front with
    | .row e => (r.advance, (number e :: got) :: done)
    | _ => (r, got :: done))
    (p.rowSet, [])
  { p with rowSet, readers := readers.reverse }

/-- Writes and reads in turn until the row set has ended and is empty. -/
def run : Nat → Pump → Pump
  | 0, p => p
  | fuel + 1, p => if p.rowSet.front = .done then p else run fuel p.write.read

/-- All integers that were read, in ascending order. -/
def received (p : Pump) : List Int := p.readers.flatten.mergeSort (· ≤ ·)

/-- Whether every reader got the integers of every writer in ascending order. -/
def ordered (rows : Nat) (p : Pump) : Bool :=
  p.readers.all fun got =>
    let numbers := got.reverse
    (List.range p.writers.length).all fun w =>
      let own := numbers.filter fun n => n.toNat / rows = w
      (own.zip (own.drop 1)).all fun (m, n) => m < n

end Pump

end Rowflow
