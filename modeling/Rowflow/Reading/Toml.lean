import Rowflow.Reading.Source
import Rowflow.Toml.Document

/-!
# Reading from TOML text

No kind stands for another, and nothing is ever absent that is there. A list may stand for a record,
and a table with an empty collection in it for the name of that collection.
-/

namespace Rowflow.Reading

open Yaml (ofMembers)

/-- What a TOML value is, in the words of a fault. -/
def Found.ofToml : Toml → Found
  | .string s => .string s
  | .integer n => .integer n
  | .float x => .float (x.render .display)
  | .boolean b => .boolean b
  | .datetime _ => .map
  | .array _ => .sequence
  | .table _ => .map

/-- The fault of a TOML value that is not what is expected. -/
def mismatch {β : Type} (v : Toml) (expected : String) : Result β :=
  .error (.invalidType (.ofToml v) expected)

/-- The name of the single member under which a date or a time stands. -/
def datetimeKey : String := "$__toml_private_datetime"

mutual

/-- A TOML value as it stands. -/
def Data.ofToml : Toml → Yaml
  | .string s => .string s
  | .integer n => .integer n
  | .float x => .float x
  | .boolean b => .bool b
  | .datetime text => ofMembers [(datetimeKey, .string text)]
  | .array items => .sequence (Data.ofItems items)
  | .table members => .mapping (Data.ofTomlMembers members)

/-- The items of an array as they stand. -/
def Data.ofItems : List Toml → List Yaml
  | [] => []
  | v :: rest => Data.ofToml v :: Data.ofItems rest

/-- The members of a table as they stand. -/
def Data.ofTomlMembers : List (String × Toml) → List (Yaml × Yaml)
  | [] => []
  | (k, v) :: rest => (.string k, Data.ofToml v) :: Data.ofTomlMembers rest

end

/-- The members of a table; a date or a time is one with a single member. -/
def tomlMembers (expected : String) : Toml → Result (List (String × Toml))
  | .table members => .ok members
  | .datetime text => .ok [(datetimeKey, .string text)]
  | v => mismatch v expected

/-- One of the given names: a text, or the only member of a table if it is an empty collection. -/
def tomlVariant (names : List String) (v : Toml) : Result String := do
  let check (name : String) : Result String :=
    if name ∈ names then .ok name else .error (.unknownVariant name names)
  match v with
  | .string s => check s
  | .table [(name, .array [])] | .table [(name, .table [])] => check name
  | v => mismatch v "string or table"

/-- The members of a record, or its parts in their order. -/
def tomlRecord (r : Record) : Toml → Result (List (String × Toml))
  | .array items =>
    if items.length < r.least then .error (.invalidLength items.length r.expected)
    else .ok (r.parts.zip items)
  | v => tomlMembers r.expected v

/-- Reading from TOML text. -/
def tomlSource : Source Toml where
  string
    | .string s => .ok s
    | v => mismatch v "a string"
  boolean
    | .boolean b => .ok b
    | v => mismatch v "a boolean"
  word expected
    | .integer n =>
      if 0 ≤ n then .ok (.ofNat n.toNat) else .error (.invalidValue (.integer n) expected)
    | v => mismatch v expected
  float
    | .float x => .ok x
    | .integer n => .ok (.ofInt n)
    | v => mismatch v "f64"
  items
    | .array items => .ok items
    | v => mismatch v "a sequence"
  members := tomlMembers "a map"
  record := tomlRecord
  variant := tomlVariant
  isAbsent _ := .ok false
  data v := .ok (Data.ofToml v)

end Rowflow.Reading
