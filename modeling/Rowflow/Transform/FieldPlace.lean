import Rowflow.Transform.Plan

/-!
# The place of a field

A transform that rewrites one field needs its position and the layout that rows have afterwards.
Both depend on nothing but the input layout, and are kept until a row with another layout comes.
-/

namespace Rowflow

/-- Where a field stands, and the layout of the rewritten rows. -/
structure FieldPlace where
  index : Nat
  output : Layout
  deriving DecidableEq, Inhabited

/-- The error of a row without the field that a transform works on. -/
def missingField (field : String) (input : Layout) : TransformError :=
  .fatal ("field '" ++ field ++ "' not found in input row " ++ input.render)

/-- The place of the first field of the given name, where `retype` gives the kind of the rewritten
field from its kind in the input. -/
def FieldPlace.find (field : String) (retype : Kind → Kind) (input : Layout) :
    Except TransformError FieldPlace :=
  match input.indexOf? field with
  | none => .error (missingField field input)
  | some index =>
    match input.field? index with
    | none => .error (.fatal ("field '" ++ field ++ "' has no metadata"))
    | some f =>
      let kind := retype f.kind
      .ok ⟨index, if kind = f.kind then input else input.set index { f with kind }⟩

/-- A field by name, with its place for the layout that came last. -/
structure FieldResolver where
  field : String
  known : Option (Layout × FieldPlace) := none
  deriving Inhabited

/-- The place of the field, from memory if the layout is the last one; with the resolver that
remembers it. -/
def FieldResolver.resolve (r : FieldResolver) (retype : Kind → Kind) (input : Layout) :
    Except TransformError (FieldPlace × FieldResolver) :=
  let find := do
    let place ← FieldPlace.find r.field retype input
    return (place, { r with known := some (input, place) })
  match r.known with
  | some (layout, place) => if layout = input then .ok (place, r) else find
  | none => find

end Rowflow
