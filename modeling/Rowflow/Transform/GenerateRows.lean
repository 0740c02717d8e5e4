import Rowflow.Transform.Options
import Rowflow.Transform.Plan

/-!
# Generated rows

A source of rows with one field: it writes a list of values, in order and a number of times, and
then nothing more. All values have one kind, which is that of the first one unless it is given.
-/

namespace Rowflow

/-- The options of generated rows. -/
structure GenerateOptions where
  field : String
  kind : Option Kind := none
  values : List Yaml
  count : UInt64 := 1
  deriving Inhabited

/-- Writes a list of values a number of times. -/
structure GenerateRows where
  layout : Layout
  values : Array Value
  total : UInt64
  emitted : UInt64 := 0
  deriving Inhabited

namespace GenerateRows

/-- Reads the options. -/
def readOptions (o : Table Yaml) : Reading.Result GenerateOptions := do
  let field ← Reading.part o "field" Reading.dataString
  let kind ← Reading.partOrNull o "type" Reading.dataKind
  let values ← Reading.part o "values" Reading.dataItems
  let count ← Reading.part o "count" (Reading.dataWord "u64")
  return {
    field := ← Reading.required "field" field
    kind
    values := ← Reading.required "values" values
    count := count.getD 1 }

/-- The kind that a first value suggests. -/
def inferKind : Option Yaml → Kind
  | some (.bool _) => .boolean
  | some (.integer n) => if n ≤ Int64.maxValue.toInt then .integer else .number
  | some (.float _) => .number
  | _ => .string

/-- The values of the given kind, or the text of the first one that has no such form. -/
def convert (kind : Kind) (values : List Yaml) : Except String (List Value) :=
  values.mapM fun v =>
    match Value.ofYaml? v kind with
    | some w => .ok w
    | none => .error ("value " ++ v.describe ++ " is not a valid " ++ kind.title)

/-- The source with the given options; their number of rows must fit into 64 bits. -/
def new (o : GenerateOptions) : Except String GenerateRows := do
  let kind := o.kind.getD (inferKind o.values.head?)
  let values ← convert kind o.values
  let total := values.length * o.count.toNat
  if total < UInt64.size then
    return {
      layout := ⟨[⟨o.field, kind, -1, -1⟩]⟩
      values := values.toArray
      total := .ofNat total }
  else
    throw (Text.showNat values.length ++ " values repeated " ++ Text.showNat o.count.toNat ++
      " times is too many rows")

/-- The source as its options say. -/
def ofSpec (spec : TransformSpec) : Except String GenerateRows := do
  new (← spec.readOptions readOptions)

/-- The next row, if there is one. -/
def next? (t : GenerateRows) : Option Entry :=
  if t.emitted < t.total then
    some ⟨t.layout, ⟨[(t.values[t.emitted.toNat % t.values.size]?).getD .null]⟩⟩
  else none

end GenerateRows

instance : Transform GenerateRows where
  name _ := "generate_rows"
  process t : Attempt GenerateRows Bool :=
    match t.next? with
    | none => return false
    | some entry => do
      Attempt.write entry
      Attempt.save { t with emitted := t.emitted + 1 }
      return true

end Rowflow
