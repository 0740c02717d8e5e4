import Rowflow.Transform.Arithmetic
import Rowflow.Transform.Flow
import Rowflow.Transform.GenerateRows

/-!
# The built-in transforms
-/

namespace Rowflow

/-- A transform of one of the built-in types. -/
inductive Builtin where
  | generateRows (transform : GenerateRows)
  | dummy (transform : Dummy)
  | multiply (transform : Multiply)
  | parseInteger (transform : ParseInteger)
  | filterRows (transform : FilterRows)
  | writeToLog (transform : WriteToLog)
  deriving Inhabited

namespace Builtin

/-- The names of the built-in types. -/
def types : List String :=
  ["generate_rows", "dummy", "multiply", "parse_integer", "filter_rows", "write_to_log"]

/-- The built-in transform of a type, as its options say. -/
def ofType (type : String) (spec : TransformSpec) : Except String Builtin :=
  match type with
  | "generate_rows" => .generateRows <$> GenerateRows.ofSpec spec
  | "dummy" => .ok (.dummy {})
  | "multiply" => .multiply <$> Multiply.ofSpec spec
  | "parse_integer" => .parseInteger <$> ParseInteger.ofSpec spec
  | "filter_rows" => .filterRows <$> FilterRows.ofSpec spec
  | "write_to_log" => .writeToLog <$> WriteToLog.ofSpec spec
  | other => .error ("Unknown local transform implementation: '" ++ other ++ "'")

/-- The built-in transform that a definition asks for. -/
def ofSpec (spec : TransformSpec) : Except String Builtin := ofType spec.type spec

end Builtin

instance : Transform Builtin where
  name
    | .generateRows t => Transform.name t
    | .dummy t => Transform.name t
    | .multiply t => Transform.name t
    | .parseInteger t => Transform.name t
    | .filterRows t => Transform.name t
    | .writeToLog t => Transform.name t
  init
    | .generateRows t => (Transform.init t).embed .generateRows
    | .dummy t => (Transform.init t).embed .dummy
    | .multiply t => (Transform.init t).embed .multiply
    | .parseInteger t => (Transform.init t).embed .parseInteger
    | .filterRows t => (Transform.init t).embed .filterRows
    | .writeToLog t => (Transform.init t).embed .writeToLog
  process
    | .generateRows t => (Transform.process t).embed .generateRows
    | .dummy t => (Transform.process t).embed .dummy
    | .multiply t => (Transform.process t).embed .multiply
    | .parseInteger t => (Transform.process t).embed .parseInteger
    | .filterRows t => (Transform.process t).embed .filterRows
    | .writeToLog t => (Transform.process t).embed .writeToLog

end Rowflow
