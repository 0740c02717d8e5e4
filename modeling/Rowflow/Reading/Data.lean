import Rowflow.Reading.Source

/-!
# Reading from values

Values read as they are: no kind stands for another, except that a whole number counts as a
floating-point number. Tags before a value are passed over, unless a name is asked for: there a tag
is the name, with null behind it. Null stands for an empty list and an empty table.
-/

namespace Rowflow.Reading

/-- What a value is, in the words of a fault. -/
def Found.ofYaml : Yaml → Found
  | .null => .unit "unit value"
  | .bool b => .boolean b
  | .integer n => .integer n
  | .float x =>
    let text := x.render .display
    .float (if x.isFinite && !text.toList.contains '.' then text ++ ".0" else text)
  | .string s => .string s
  | .sequence _ => .sequence
  | .mapping _ => .map
  | .tagged _ _ => .tagged

/-- A text. -/
def dataString (v : Yaml) : Result String :=
  match v.untagged with
  | .string s => .ok s
  | w => .error (.invalidType (.ofYaml w) "a string")

/-- A Boolean. -/
def dataBoolean (v : Yaml) : Result Bool :=
  match v.untagged with
  | .bool b => .ok b
  | w => .error (.invalidType (.ofYaml w) "a boolean")

/-- A natural number of 64 bits. -/
def dataWord (expected : String) (v : Yaml) : Result UInt64 :=
  match v.untagged with
  | .integer n =>
    if 0 ≤ n then .ok (.ofNat n.toNat) else .error (.invalidValue (.integer n) expected)
  | w => .error (.invalidType (.ofYaml w) expected)

/-- A floating-point number. -/
def dataFloat (v : Yaml) : Result Binary64 :=
  match v.untagged with
  | .integer n => .ok (.ofInt n)
  | .float x => .ok x
  | w => .error (.invalidType (.ofYaml w) "f64")

/-- A list. -/
def dataItems (v : Yaml) : Result (List Yaml) :=
  match v.untagged with
  | .sequence items => .ok items
  | .null => .ok []
  | w => .error (.invalidType (.ofYaml w) "a sequence")

/-- A table. -/
def dataMembers (expected : String) (v : Yaml) : Result (List (String × Yaml)) :=
  match v.untagged with
  | .mapping members => members.mapM fun (k, w) => do return (← dataString k, w)
  | .null => .ok []
  | w => .error (.invalidType (.ofYaml w) expected)

/-- One of the given names. -/
def dataVariant (names : List String) (v : Yaml) : Result String :=
  match v with
  | .string s => if s ∈ names then .ok s else .error (.unknownVariant s names)
  | .tagged tag content =>
    let name := if tag.startsWith "!" then (tag.drop 1).toString else tag
    if name ∈ names then
      match content with
      | .null => .ok name
      | w => .error (.invalidType (.ofYaml w) "unit")
    else .error (.unknownVariant name names)
  | w => .error (.invalidType (.ofYaml w) "a Value::Tagged enum")

/-- Reading from values. -/
def dataSource : Source Yaml where
  string := dataString
  boolean := dataBoolean
  word := dataWord
  float := dataFloat
  items := dataItems
  members := dataMembers "a map"
  record r := dataMembers r.expected
  variant := dataVariant
  isAbsent
    | .null => .ok true
    | _ => .ok false
  data := .ok

end Rowflow.Reading
