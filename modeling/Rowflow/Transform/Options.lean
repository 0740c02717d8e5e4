import Rowflow.Reading.Data
import Rowflow.Pipeline.Definition
import Rowflow.Row.Value

/-!
# Typed options

A transform reads its options once, when it is made. The options that are there are read first, and
the ones that must be there are asked for afterwards, so that a fault in an option comes before a
missing one.
-/

namespace Rowflow.Reading

variable {α : Type}

/-- Reads an option, if it is there. -/
def part (options : Table Yaml) (name : String) (read : Yaml → Result α) : Result (Option α) :=
  match options.find? name with
  | some v => some <$> read v
  | none => .ok none

/-- Reads an option that may be absent or null. -/
def partOrNull (options : Table Yaml) (name : String) (read : Yaml → Result α) :
    Result (Option α) := do
  return (← part options name (dataSource.optional read)).join

/-- The kind of a field. -/
def dataKind (v : Yaml) : Result Kind := do
  let name ← dataVariant (Kind.all.map Kind.keyword) v
  return (Kind.ofKeyword? name).getD .string

end Rowflow.Reading

namespace Rowflow.TransformSpec

/-- Reads the options of a transform; a fault names the transform. -/
def readOptions {α : Type} (t : TransformSpec) (read : Table Yaml → Reading.Result α) :
    Except String α :=
  match read t.options with
  | .ok a => .ok a
  | .error fault => .error ("invalid options for '" ++ t.id ++ "': " ++ fault.render)

end Rowflow.TransformSpec
