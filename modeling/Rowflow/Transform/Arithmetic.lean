import Rowflow.Binary64.Round
import Rowflow.Transform.FieldPlace
import Rowflow.Transform.Options

/-!
# Transforms of one field

`Multiply` multiplies a numeric field by a constant: integers stay integers as long as the factor is
a whole number, everything else becomes a floating-point number. `ParseInteger` turns a text into
the integer that it denotes. Nulls pass through, and what cannot be computed is a row error with a
code.
-/

namespace Rowflow

/-! ### Multiplication -/

/-- Multiplies a field by a constant. -/
structure Multiply where
  factor : Binary64
  field : FieldResolver
  deriving Inhabited

namespace Multiply

/-- Multiplication by a finite factor. -/
def new (field : String) (factor : Binary64) : Except String Multiply :=
  if factor.isFinite then .ok ⟨factor, { field }⟩
  else .error ("factor " ++ factor.render .display ++ " is not a finite number")

/-- Multiplication as its options say. -/
def ofSpec (spec : TransformSpec) : Except String Multiply := do
  let (field, factor) ← spec.readOptions fun o => do
    let field ← Reading.part o "field" Reading.dataString
    let factor ← Reading.part o "factor" Reading.dataFloat
    return (← Reading.required "field" field, ← Reading.required "factor" factor)
  new field factor

/-- The factor as an integer, if it is whole and below `2 ^ 63` in magnitude. -/
def wholeFactor? (t : Multiply) : Option Int64 :=
  match t.factor.toInt? with
  | some n => if n.natAbs ≤ Int64.maxValue.toInt then some (.ofInt n) else none
  | none => none

/-- The kind of the product for the kind of the field. -/
def retype (t : Multiply) (kind : Kind) : Kind :=
  if kind = .integer && t.wholeFactor?.isSome then .integer else .number

/-- The product of a value with the factor. -/
def multiply (t : Multiply) (value : Value) (kind : Kind) : Except TransformError Value :=
  let field := t.field.field
  let rounded : Except TransformError Value :=
    match value.asNumber? with
    | some x => .ok (.number (x.mul t.factor))
    | none =>
      .error (.row ("value '" ++ value.render ++ "' of field '" ++ field ++ "' is not numeric")
        (some field) (some "MULTIPLY001"))
  match value, kind, t.wholeFactor? with
  | .null, _, _ => .ok .null
  | .integer n, .integer, some factor =>
    match Text.int64OfInt? (n.toInt * factor.toInt) with
    | some product => .ok (.integer product)
    | none =>
      .error (.row (Text.showInt64 n ++ " * " ++ Text.showInt64 factor ++ " overflows field '" ++
        field ++ "'") (some field) (some "MULTIPLY002"))
  | _, _, _ => rounded

/-- The row with the product in its field, for the place of the field. -/
def applyAt (t : Multiply) (place : FieldPlace) (row : Row) : Except TransformError Entry := do
  let kind := ((place.output.field? place.index).map Field.kind).getD .number
  let value ← t.multiply ((row.get? place.index).getD .null) kind
  return ⟨place.output, row.set place.index value⟩

end Multiply

/-! ### Reading integers -/

/-- Turns a text into an integer. -/
structure ParseInteger where
  field : FieldResolver
  deriving Inhabited

namespace ParseInteger

/-- Reading as its options say. -/
def ofSpec (spec : TransformSpec) : Except String ParseInteger := do
  let field ← spec.readOptions fun o => do
    Reading.required "field" (← Reading.part o "field" Reading.dataString)
  return ⟨{ field }⟩

/-- The integer that a value denotes. -/
def parse (field : String) (value : Value) : Except TransformError Value :=
  let refuse (wanted : String) : Except TransformError Value :=
    .error (.row ("value '" ++ value.render ++ "' of field '" ++ field ++ "' is not " ++ wanted)
      (some field) (some "PARSE001"))
  match value with
  | .null => .ok .null
  | .integer n => .ok (.integer n)
  | .string s =>
    match Text.readInt64? s with
    | some n => .ok (.integer n)
    | none => refuse "an integer"
  | _ => refuse "a string"

/-- The row with the integer in its field, for the place of the field. -/
def applyAt (t : ParseInteger) (place : FieldPlace) (row : Row) : Except TransformError Entry := do
  let value ← parse t.field.field ((row.get? place.index).getD .null)
  return ⟨place.output, row.set place.index value⟩

end ParseInteger

/-! ### Behaviour -/

/-- Reads a row, rewrites it and writes it. What the resolver learns about the layout is kept even
if the row is bad. -/
def rewriteField {σ : Type} (resolver : FieldResolver) (retype : Kind → Kind)
    (keep : FieldResolver → σ) (applyAt : FieldPlace → Row → Except TransformError Entry) :
    Attempt σ Bool := do
  let some input ← Attempt.read | return false
  let (place, resolver) ← liftExcept (resolver.resolve retype input.layout)
  Attempt.save (keep resolver)
  let output ← liftExcept (applyAt place input.row)
  Attempt.write output
  return true
where
  liftExcept {α : Type} (r : Except TransformError α) : Attempt σ α := ExceptT.mk (.finish r)

instance : Transform Multiply where
  name _ := "multiply"
  process t := rewriteField t.field t.retype (fun field => { t with field }) t.applyAt

instance : Transform ParseInteger where
  name _ := "parse_integer"
  process t := rewriteField t.field (fun _ => .integer) ParseInteger.mk t.applyAt

end Rowflow
