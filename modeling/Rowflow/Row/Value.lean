import Rowflow.Json.Basic
import Rowflow.Yaml.Basic

/-!
# Values

A value is one typed field of a row; null fits every kind of field. Values are made from option
values and from JSON, where the first kind that fits is taken: an integer stays an integer as long
as it fits into 64 signed bits, and a list of bytes is binary.
-/

namespace Rowflow

/-- The kind of a field. -/
inductive Kind where
  | string
  | integer
  | number
  | boolean
  | binary
  deriving DecidableEq, Repr, Inhabited

namespace Kind

/-- All kinds in the order in which they are listed in messages. -/
def all : List Kind := [.string, .integer, .number, .boolean, .binary]

/-- The name for people. -/
def title : Kind → String
  | .string => "String"
  | .integer => "Integer"
  | .number => "Number"
  | .boolean => "Boolean"
  | .binary => "Binary"

/-- The name in definitions. -/
def keyword : Kind → String
  | .string => "string"
  | .integer => "integer"
  | .number => "number"
  | .boolean => "boolean"
  | .binary => "binary"

/-- The kind with a name in definitions. -/
def ofKeyword? (s : String) : Option Kind := all.find? (·.keyword = s)

end Kind

/-- A single typed field value. -/
inductive Value where
  | null
  | boolean (value : Bool)
  | integer (value : Int64)
  | number (value : Binary64)
  | string (value : String)
  | binary (bytes : List UInt8)
  deriving DecidableEq, Inhabited

namespace Value

/-! ### Kinds -/

/-- The kind of a value; null has none. -/
def kind? : Value → Option Kind
  | .null => none
  | .boolean _ => some .boolean
  | .integer _ => some .integer
  | .number _ => some .number
  | .string _ => some .string
  | .binary _ => some .binary

/-- The absent value. -/
def isNull : Value → Bool
  | .null => true
  | _ => false

/-- Whether the value may stand in a field of the given kind. -/
def fits (v : Value) (k : Kind) : Bool :=
  match v.kind? with
  | none => true
  | some k' => k' = k

/-! ### Views -/

/-- The value as an integer. -/
def asInteger? : Value → Option Int64
  | .integer n => some n
  | _ => none

/-- The value as a number; an integer is rounded to the nearest one. -/
def asNumber? : Value → Option Binary64
  | .number x => some x
  | .integer n => some (.ofInt n.toInt)
  | _ => none

/-- The value as a text. -/
def asString? : Value → Option String
  | .string s => some s
  | _ => none

/-- Equality of values of one kind; numbers are compared as numbers. -/
def equals : Value → Value → Bool
  | .number x, .number y => x.equals y
  | v, w => v = w

/-- The form for people. -/
protected def render : Value → String
  | .null => "<null>"
  | .boolean b => Yaml.boolText b
  | .integer n => Text.showInt64 n
  | .number x => x.render .display
  | .string s => s
  | .binary bytes => "<" ++ Text.showNat bytes.length ++ " bytes>"

/-! ### From option values -/

/-- The value of the given kind that an option value stands for. -/
def ofYaml? : Yaml → Kind → Option Value
  | .null, _ => some .null
  | .bool b, .boolean => some (.boolean b)
  | .integer n, .integer => (Text.int64OfInt? n).map .integer
  | .integer n, .number => some (.number (.ofInt n))
  | .float x, .number => some (.number x)
  | .string s, .string => some (.string s)
  | .string s, .integer => (Text.readInt64? s).map .integer
  | .string s, .number =>
    (Binary64.read? (String.ofList (Text.trim s.toList))).map .number
  | .string s, .binary => some (.binary s.toUTF8.toList)
  | .integer n, .string => some (.string (Text.showInt n))
  | .float x, .string => some (.string (x.render .yaml))
  | .bool b, .string => some (.string (Yaml.boolText b))
  | _, _ => none

/-! ### JSON -/

/-- The JSON form: a number that is not finite becomes null, and binary a list of bytes. -/
def toJson : Value → Json
  | .null => .null
  | .boolean b => .bool b
  | .integer n => .integer n.toInt
  | .number x => if x.isFinite then .number x else .null
  | .string s => .string s
  | .binary bytes => .array (bytes.map fun b => .integer b.toNat)

/-- The byte that a JSON value stands for. -/
def byteOfJson? : Json → Option UInt8
  | .integer n => if 0 ≤ n ∧ n < 256 then some (.ofNat n.toNat) else none
  | _ => none

/-- The value of the first kind that a JSON value fits. -/
def ofJson? : Json → Option Value
  | .null => some .null
  | .bool b => some (.boolean b)
  | .integer n =>
    match Text.int64OfInt? n with
    | some i => some (.integer i)
    | none => some (.number (.ofInt n))
  | .number x => some (.number x)
  | .string s => some (.string s)
  | .array items => (items.mapM byteOfJson?).map .binary
  | .object _ => none

end Value

end Rowflow
