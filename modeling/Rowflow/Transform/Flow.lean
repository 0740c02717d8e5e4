import Rowflow.Transform.Options
import Rowflow.Transform.FieldPlace

/-!
# Transforms that pass rows on

`Dummy` passes every row on, `WriteToLog` writes it to the log first, and `FilterRows` compares one
field with a constant: it keeps the rows that match or, when one of its branches names an output,
sends each row along its branch and drops those whose branch names none.
-/

namespace Rowflow

/-! ### Passing on -/

/-- Passes every row on. -/
structure Dummy where
  deriving Inhabited

instance : Transform Dummy where
  name _ := "dummy"
  process _ : Attempt Dummy Bool := do
    let some entry ← Attempt.read | return false
    Attempt.write entry
    return true

/-! ### Writing to the log -/

/-- Writes every row to the log and passes it on. -/
structure WriteToLog where
  level : Log.Level
  logged : UInt64 := 0
  deriving Inhabited

/-- Logging as its options say. -/
def WriteToLog.ofSpec (spec : TransformSpec) : Except String WriteToLog := do
  let level ← spec.readOptions fun o => do
    return (← Reading.part o "level" Reading.dataString).getD "info"
  match Log.Level.ofText? level with
  | some level => return { level }
  | none => throw ("unknown log level '" ++ level ++ "'")

instance : Transform WriteToLog where
  name _ := "write_to_log"
  process t : Attempt WriteToLog Bool := do
    let some entry ← Attempt.read | return false
    let logged := t.logged + 1
    Attempt.save { t with logged }
    let view ← Attempt.look
    Attempt.report
      (.rowLogged view.spec.id t.level logged (entry.row.renderNamed entry.layout))
    Attempt.write entry
    return true

/-! ### Filtering -/

/-- How a field is compared with the constant. -/
inductive FilterOperator where
  | eq
  | ne
  | gt
  | lt
  | ge
  | le
  | isNull
  | notNull
  deriving DecidableEq, Repr, Inhabited

namespace FilterOperator

/-- All operators. -/
def all : List FilterOperator := [.eq, .ne, .gt, .lt, .ge, .le, .isNull, .notNull]

/-- The name in definitions. -/
def keyword : FilterOperator → String
  | .eq => "eq"
  | .ne => "ne"
  | .gt => "gt"
  | .lt => "lt"
  | .ge => "ge"
  | .le => "le"
  | .isNull => "is_null"
  | .notNull => "not_null"

/-- The name for people. -/
def title : FilterOperator → String
  | .eq => "Eq"
  | .ne => "Ne"
  | .gt => "Gt"
  | .lt => "Lt"
  | .ge => "Ge"
  | .le => "Le"
  | .isNull => "IsNull"
  | .notNull => "NotNull"

/-- Whether the operator compares with a constant. -/
def needsConstant : FilterOperator → Bool
  | .isNull | .notNull => false
  | _ => true

/-- Whether an order between value and constant satisfies the operator; there may be none. -/
def holds : FilterOperator → Option Ordering → Bool
  | .eq, o => o = some .eq
  | .ne, o => o = some .lt || o = some .gt
  | .gt, o => o = some .gt
  | .lt, o => o = some .lt
  | .ge, o => o = some .gt || o = some .eq
  | .le, o => o = some .lt || o = some .eq
  | .isNull, _ => false
  | .notNull, _ => false

end FilterOperator

/-- The options of a filter. -/
structure FilterOptions where
  field : String
  op : FilterOperator
  value : Option Yaml := none
  sendTrueTo : Option String := none
  sendFalseTo : Option String := none
  deriving Inhabited

/-- Keeps or routes rows by comparing one field with a constant. -/
structure FilterRows where
  options : FilterOptions
  constant : Option Value
  deriving Inhabited

namespace FilterRows

/-- Reads the options of a filter. -/
def readOptions (o : Table Yaml) : Reading.Result FilterOptions := do
  let field ← Reading.part o "field" Reading.dataString
  let op ← Reading.part o "op" fun v => do
    let name ← Reading.dataVariant (FilterOperator.all.map FilterOperator.keyword) v
    return (FilterOperator.all.find? (·.keyword = name)).getD .eq
  let value ← Reading.partOrNull o "value" .ok
  let sendTrueTo ← Reading.partOrNull o "send_true_to" Reading.dataString
  let sendFalseTo ← Reading.partOrNull o "send_false_to" Reading.dataString
  return {
    field := ← Reading.required "field" field
    op := ← Reading.required "op" op
    value, sendTrueTo, sendFalseTo }

/-- The constant that an option value stands for. -/
def constantOf (v : Yaml) : Except String Value :=
  let constant :=
    match v with
    | .integer n => Value.ofYaml? v (if n ≤ Int64.maxValue.toInt then .integer else .number)
    | .float _ => Value.ofYaml? v .number
    | .string _ => Value.ofYaml? v .string
    | .bool _ => Value.ofYaml? v .boolean
    | _ => none
  match constant with
  | some c => .ok c
  | none => .error ("unsupported filter value " ++ v.describe)

/-- The filter with the given options; a comparison needs a constant. -/
def new (options : FilterOptions) : Except String FilterRows :=
  if options.op.needsConstant then
    match options.value with
    | some v => do return ⟨options, some (← constantOf v)⟩
    | none =>
      .error ("operator " ++ options.op.title ++ " on field '" ++ options.field ++
        "' needs a value")
  else .ok ⟨options, none⟩

/-- The filter as its options say. -/
def ofSpec (spec : TransformSpec) : Except String FilterRows := do
  new (← spec.readOptions readOptions)

/-- How two values stand to each other: values of one kind by their own order, where false comes
before true, and everything else as numbers. -/
def compareValues (v w : Value) : Option Ordering :=
  match v, w with
  | .integer m, .integer n => some (compare m.toInt n.toInt)
  | .string s, .string t => some (compare s t)
  | .boolean a, .boolean b => some (compare a.toNat b.toNat)
  | v, w => do Binary64.compare? (← v.asNumber?) (← w.asNumber?)

/-- Whether a value satisfies the condition. -/
def accepts (t : FilterRows) (v : Value) : Bool :=
  match t.options.op with
  | .isNull => v.isNull
  | .notNull => !v.isNull
  | op => op.holds (t.constant.bind fun c => compareValues v c)

/-- Whether a branch names an output. -/
def isRouting (t : FilterRows) : Bool :=
  t.options.sendTrueTo.isSome || t.options.sendFalseTo.isSome

/-- Where a row goes. -/
inductive Branch where
  /-- To the outputs, as the movement says. -/
  | outputs
  /-- To one output. -/
  | output (target : String)
  /-- Nowhere. -/
  | nowhere
  deriving DecidableEq, Repr

/-- Where a row goes, once it is known whether it matches. -/
def branch (t : FilterRows) (matched : Bool) : Branch :=
  if t.isRouting then
    match if matched then t.options.sendTrueTo else t.options.sendFalseTo with
    | some target => .output target
    | none => .nowhere
  else if matched then .outputs else .nowhere

/-- Where a row with the given layout goes. -/
def route (t : FilterRows) (e : Entry) : Except TransformError Branch :=
  match e.layout.indexOf? t.options.field with
  | none => .error (missingField t.options.field e.layout)
  | some index => .ok (t.branch (((e.row.get? index).map t.accepts).getD false))

end FilterRows

instance : Transform FilterRows where
  name _ := "filter_rows"
  init t := .look fun view =>
    let named := [t.options.sendTrueTo, t.options.sendFalseTo].filterMap id
    match named.find? (· ∉ view.targets) with
    | some target =>
      .finish (.error (.fatal
        ("'" ++ target ++ "' is not an output hop of '" ++ view.spec.id ++ "'")))
    | none => .finish (.ok ())
  process t : Attempt FilterRows Bool := do
    let some entry ← Attempt.read | return false
    match t.route entry with
    | .error e => throw e
    | .ok .outputs => Attempt.write entry
    | .ok (.output target) => Attempt.writeTo target entry
    | .ok .nowhere => pure ()
    return true

end Rowflow
