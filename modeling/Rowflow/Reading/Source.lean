import Rowflow.Reading.Fault
import Rowflow.Yaml.Basic

/-!
# Sources of typed data

A definition can stand in a value, in a YAML text or in a TOML text, which differ in what they
accept for a text, a number or a list. A `Source` collects those decisions, so that the definitions
themselves are read in one way from all of them.
-/

namespace Rowflow.Reading

/-- What is asked for where a record is read. Some sources take a list for a record: its items are
then the parts in their order, and the first `least` of them must be there. -/
structure Record where
  /-- The name of the record in a fault. -/
  expected : String
  parts : List String
  least : Nat

/-- How data of type `α` are read. -/
structure Source (α : Type) where
  /-- A text. -/
  string : α → Result String
  /-- A Boolean. -/
  boolean : α → Result Bool
  /-- A natural number of 64 bits; the text names what is expected. -/
  word : String → α → Result UInt64
  /-- A floating-point number. -/
  float : α → Result Binary64
  /-- A list. -/
  items : α → Result (List α)
  /-- The members of a table. -/
  members : α → Result (List (String × α))
  /-- The members of a record. -/
  record : Record → α → Result (List (String × α))
  /-- One of the given names. -/
  variant : List String → α → Result String
  /-- Whether an optional part is absent although its name is there. -/
  isAbsent : α → Result Bool
  /-- The value as it stands. -/
  data : α → Result Yaml

variable {α β : Type}

/-- An optional part. -/
def Source.optional (s : Source α) (read : α → Result β) (v : α) : Result (Option β) := do
  if ← s.isAbsent v then return none else some <$> read v

/-- A part that must be there. -/
def required (name : String) : Option β → Result β
  | some v => .ok v
  | none => .error (.missingField name)

end Rowflow.Reading
