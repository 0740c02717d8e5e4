import Rowflow.Log.Message
import Rowflow.Pipeline.Definition
import Rowflow.Transform.Error

/-!
# Diversion of failing rows

A diverted row is the row itself followed by four diagnostic fields: how many errors it stands for,
a description, the names of the bad fields and the error codes. The errors of a transform are
counted in 64-bit words, before the row is sent; a row that would take the count above the maximum
is refused and not counted. Whoever diverts a row that would take the count above what a word can
hold breaks down.
-/

namespace Rowflow

/-- How many errors a diagnosis stands for. -/
def Diagnosis.weight (why : Diagnosis) : UInt64 := if why.count = 0 then 1 else why.count

/-- What keeps a row from being counted. -/
inductive Obstacle where
  | refused (error : RouteError)
  /-- The count does not fit into a word. -/
  | broken (panic : Panic)
  deriving DecidableEq, Repr, Inhabited

namespace ErrorHandling

/-- The count after a row of the given weight, if it fits and is allowed. -/
def reserve (h : ErrorHandling) (count weight : UInt64) : Except Obstacle UInt64 :=
  match addWords count weight with
  | .error p => .error (.broken p)
  | .ok next =>
    match h.maxErrors with
    | some maximum =>
      if maximum < next then .error (.refused (.ceilingExceeded maximum next)) else .ok next
    | none => .ok next

/-- The layout of diverted rows. -/
def errorLayout (h : ErrorHandling) (input : Layout) : Layout :=
  input
    |>.push ⟨h.countField, .integer, -1, -1⟩
    |>.push ⟨h.descriptionField, .string, -1, -1⟩
    |>.push ⟨h.fieldsField, .string, -1, -1⟩
    |>.push ⟨h.codesField, .string, -1, -1⟩

end ErrorHandling

/-- The diagnostic values of a diverted row. -/
def Diagnosis.values (why : Diagnosis) : List Value :=
  let text : Option String → Value
    | some s => .string s
    | none => .null
  [.integer why.weight.toInt64, .string why.description, text why.fields, text why.codes]

/-- The diversion of the rows of one worker, with the layout of diverted rows for the input layout
that came last. -/
structure Diversion where
  /-- The transform whose rows are diverted. -/
  transform : String
  handling : ErrorHandling
  known : Option (Layout × Layout) := none
  deriving Inhabited

namespace Diversion

/-- The layout of diverted rows, from memory if the input layout is the last one. -/
def layoutFor (d : Diversion) (input : Layout) : Layout × Diversion :=
  let make := (d.handling.errorLayout input,
    { d with known := some (input, d.handling.errorLayout input) })
  match d.known with
  | some (last, layout) => if last = input then (layout, d) else make
  | none => make

/-- A row prepared for diversion. -/
structure Prepared where
  /-- The count of errors, this row included. -/
  count : UInt64
  entry : Entry
  diversion : Diversion

/-- Counts a row and adds its diagnosis, unless that is one error too many. -/
def prepare (d : Diversion) (count : UInt64) (e : Entry) (why : Diagnosis) :
    Except Obstacle Prepared := do
  let count ← d.handling.reserve count why.weight
  let (layout, d) := d.layoutFor e.layout
  return ⟨count, ⟨layout, e.row.append why.values⟩, d⟩

/-- What is written to the log when a row is refused. -/
def refusal (d : Diversion) : List Log.Message :=
  match d.handling.maxErrors with
  | some maximum => [.ceilingReached d.transform maximum]
  | none => []

end Diversion

end Rowflow
