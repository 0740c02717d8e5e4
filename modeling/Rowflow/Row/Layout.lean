import Rowflow.Row.Value

/-!
# Layouts

A layout is the list of the fields of a row, each with a name, a kind and an informational length
and precision, where a negative number means that none is given. Names may repeat; a name stands for
the first field that has it.
-/

namespace Rowflow

/-- The description of one field. -/
structure Field where
  name : String
  kind : Kind
  length : Int32 := -1
  precision : Int32 := -1
  deriving DecidableEq, Inhabited

/-- The field with its kind and, as far as they are given, its length and precision. -/
protected def Field.render (f : Field) : String :=
  let size :=
    if 0 ≤ f.length.toInt then
      "(" ++ Text.showInt f.length.toInt ++
        (if 0 ≤ f.precision.toInt then ", " ++ Text.showInt f.precision.toInt else "") ++ ")"
    else ""
  f.name ++ " " ++ f.kind.title ++ size

/-- The fields of a row, in order. -/
structure Layout where
  fields : List Field
  deriving DecidableEq, Inhabited

namespace Layout

/-- The number of fields. -/
def size (l : Layout) : Nat := l.fields.length

/-- Whether there is no field. -/
def isEmpty (l : Layout) : Bool := l.fields.isEmpty

/-- The field at a position. -/
def field? (l : Layout) (i : Nat) : Option Field := l.fields[i]?

/-- The position of the first field with the given name. -/
def indexOf? (l : Layout) (name : String) : Option Nat := l.fields.findIdx? (·.name = name)

/-- The layout with one more field at its end. -/
def push (l : Layout) (f : Field) : Layout := ⟨l.fields ++ [f]⟩

/-- The layout with another field at a position; nothing changes beyond the end. -/
def set (l : Layout) (i : Nat) (f : Field) : Layout := ⟨l.fields.set i f⟩

/-- The names of the fields. -/
def names (l : Layout) : List String := l.fields.map (·.name)

/-- The fields in brackets. -/
protected def render (l : Layout) : String :=
  "[" ++ String.intercalate ", " (l.fields.map Field.render) ++ "]"

end Layout

end Rowflow
