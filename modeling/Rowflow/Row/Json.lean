import Rowflow.Json.Parse
import Rowflow.Reading.Fault
import Rowflow.Row.Basic
import Rowflow.Table

/-!
# Rows and layouts as JSON

A row is written as the list of its values or, with a layout, as an object whose members stand in
the order of their names, a later field taking the place of an earlier one with the same name. A
layout is written as an object with the list of its fields. Reading a layout names the first fault.
-/

namespace Rowflow

namespace Row

/-! ### Rows -/

/-- The row as a list. -/
def toJsonList (r : Row) : Json := .array (r.values.map Value.toJson)

/-- The row as an object of the names and values that both sides have. -/
def toJson (r : Row) (l : Layout) : Json :=
  .object (sortEntries ((l.fields.zip r.values).map fun (f, v) => (f.name, v.toJson)))

/-- The row that a JSON list stands for. -/
def ofJson? : Json → Option Row
  | .array items => (items.mapM Value.ofJson?).map Row.mk
  | _ => none

end Row

namespace Reading

/-! ### Layouts -/

/-- What a JSON value is, in the words of a fault. -/
def Found.ofJson : Json → Found
  | .null => .unit "null"
  | .bool b => .boolean b
  | .integer n => .integer n
  | .number x => .float (x.render .json)
  | .string s => .string s
  | .array _ => .sequence
  | .object _ => .map

/-- A text. -/
def jsonString : Json → Result String
  | .string s => .ok s
  | v => .error (.invalidType (.ofJson v) "a string")

/-- An integer of 32 bits. -/
def jsonInt32 : Json → Result Int32
  | .integer n =>
    if Int32.minValue.toInt ≤ n ∧ n ≤ Int32.maxValue.toInt then .ok (.ofInt n)
    else .error (.invalidValue (.integer n) "i32")
  | v => .error (.invalidType (.ofJson v) "i32")

/-- The name of a kind, alone or as the single member of an object with null. -/
def jsonKind (v : Json) : Result Kind :=
  let find (name : String) : Result Kind :=
    match Kind.ofKeyword? name with
    | some k => .ok k
    | none => .error (.unknownVariant name (Kind.all.map Kind.keyword))
  match v with
  | .string name => find name
  | .object [(name, content)] => do
    let k ← find name
    match content with
    | .null => return k
    | w => throw (.invalidType (.ofJson w) "unit")
  | .object _ => .error (.invalidValue .map "map with a single key")
  | v => .error (.invalidType (.ofJson v) "string or map")

/-- The parts of a field that have been read. -/
structure FieldDraft where
  name : Option String := none
  kind : Option Kind := none
  length : Int32 := -1
  precision : Int32 := -1

/-- Reads one member of a field; unknown members are passed over. -/
def FieldDraft.read (d : FieldDraft) : String × Json → Result FieldDraft
  | ("name", v) => do return { d with name := some (← jsonString v) }
  | ("type", v) => do return { d with kind := some (← jsonKind v) }
  | ("length", v) => do return { d with length := ← jsonInt32 v }
  | ("precision", v) => do return { d with precision := ← jsonInt32 v }
  | _ => .ok d

/-- The field, if its name and kind have been read. -/
def FieldDraft.finish (d : FieldDraft) : Result Field :=
  match d.name, d.kind with
  | none, _ => .error (.missingField "name")
  | _, none => .error (.missingField "type")
  | some name, some kind => .ok ⟨name, kind, d.length, d.precision⟩

/-- A field from an object, or from the list of its parts in order. -/
def jsonField : Json → Result Field
  | .object members => do
    (← (sortEntries members).foldlM FieldDraft.read {}).finish
  | .array items => do
    let parts := ["name", "type", "length", "precision"].zip items
    let expected := "struct ValueMeta with 4 elements"
    let d ← parts.foldlM FieldDraft.read {}
    if items.length < 2 then throw (.invalidLength items.length expected)
    else if 4 < items.length then
      throw (.invalidLength items.length "fewer elements in array")
    else d.finish
  | v => .error (.invalidType (.ofJson v) "struct ValueMeta")

/-- The fields of a layout. -/
def jsonFields : Json → Result (List Field)
  | .array items => items.mapM jsonField
  | v => .error (.invalidType (.ofJson v) "a sequence")

end Reading

namespace Layout

/-- The layout as an object. -/
def toJson (l : Layout) : Json :=
  .object [("fields", .array (l.fields.map fun f =>
    .object [("name", .string f.name), ("type", .string f.kind.keyword),
      ("length", .integer f.length.toInt), ("precision", .integer f.precision.toInt)]))]

/-- The layout that a JSON value stands for, or the first fault in it. -/
def ofJson : Json → Reading.Result Layout
  | .object members => do
    match (sortEntries members).lookup "fields" with
    | none => throw (.missingField "fields")
    | some v => return ⟨← Reading.jsonFields v⟩
  | .array [] => .error (.invalidLength 0 "struct RowMeta with 1 element")
  | .array (v :: rest) => do
    let fields ← Reading.jsonFields v
    if rest.isEmpty then return ⟨fields⟩
    else throw (.invalidLength (rest.length + 1) "fewer elements in array")
  | v => .error (.invalidType (Reading.Found.ofJson v) "struct RowMeta")

end Layout

end Rowflow
