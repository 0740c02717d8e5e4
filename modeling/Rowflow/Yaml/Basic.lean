import Rowflow.Binary64.Text
import Rowflow.Text.Quoted

/-!
# YAML data

The values a YAML document holds, and the form in which they appear in messages. Integers lie
between `-2 ^ 63` and `2 ^ 64 - 1`; a mapping keeps its order and may have keys of any kind; a local
tag such as `!t` stays with the value it stands before.
-/

namespace Rowflow

/-- A YAML value. -/
inductive Yaml where
  | null
  | bool (value : Bool)
  | integer (value : Int)
  | float (value : Binary64)
  | string (value : String)
  | sequence (items : List Yaml)
  | mapping (members : List (Yaml × Yaml))
  | tagged (tag : String) (value : Yaml)
  deriving Inhabited

namespace Yaml

/-- A mapping with text keys. -/
def ofMembers (members : List (String × Yaml)) : Yaml :=
  .mapping (members.map fun (k, v) => (.string k, v))

/-- The value without the tags before it. -/
def untagged : Yaml → Yaml
  | .tagged _ v => v.untagged
  | v => v

/-- The text of a value that is a string, tags aside. -/
def asString? (v : Yaml) : Option String :=
  match v.untagged with
  | .string s => some s
  | _ => none

/-- The text of a Boolean. -/
def boolText (b : Bool) : String := if b then "true" else "false"

/-- A tag with its exclamation mark. -/
def tagText (tag : String) : String := if tag.startsWith "!" then tag else "!" ++ tag

mutual

/-- The form of a value in messages. -/
def describe : Yaml → String
  | .null => "Null"
  | .bool b => "Bool(" ++ boolText b ++ ")"
  | .integer n => "Number(" ++ Text.showInt n ++ ")"
  | .float x => "Number(" ++ x.render .yaml ++ ")"
  | .string s => "String(" ++ Text.quote s ++ ")"
  | .sequence items => "Sequence [" ++ String.intercalate ", " (describeItems items) ++ "]"
  | .mapping members =>
    "Mapping \x7b" ++ String.intercalate ", " (describeMembers members) ++ "\x7d"
  | .tagged tag v => "TaggedValue \x7b tag: " ++ tagText tag ++ ", value: " ++ describe v ++ " \x7d"

/-- The forms of the items of a sequence. -/
def describeItems : List Yaml → List String
  | [] => []
  | v :: rest => describe v :: describeItems rest

/-- The forms of the members of a mapping; a key that is a scalar stands without its kind. -/
def describeMembers : List (Yaml × Yaml) → List String
  | [] => []
  | (k, v) :: rest =>
    let key :=
      match k with
      | .bool b => boolText b
      | .integer n => Text.showInt n
      | .float x => x.render .yaml
      | .string s => Text.quote s
      | k => describe k
    (key ++ ": " ++ describe v) :: describeMembers rest

end

end Yaml

end Rowflow
