import Rowflow.Binary64.Text
import Rowflow.Text.Quoted

/-!
# Why data cannot be read as what was asked for

A fault names what was found, where it stood in the way of reading, and what was expected there.
-/

namespace Rowflow.Reading

/-- What was found. -/
inductive Found where
  | unit (name : String)
  | boolean (value : Bool)
  | integer (value : Int)
  | float (text : String)
  | string (value : String)
  | sequence
  | map
  | tagged
  deriving Repr

/-- The words for what was found. -/
protected def Found.render : Found → String
  | .unit name => name
  | .boolean b => "boolean `" ++ (if b then "true" else "false") ++ "`"
  | .integer n => "integer `" ++ Text.showInt n ++ "`"
  | .float text => "floating point `" ++ text ++ "`"
  | .string s => "string " ++ Text.quote s
  | .sequence => "sequence"
  | .map => "map"
  | .tagged => "enum"

/-- Why a reading fails. -/
inductive Fault where
  | missingField (name : String)
  | duplicateField (name : String)
  | unknownVariant (name : String) (expected : List String)
  | invalidType (found : Found) (expected : String)
  | invalidValue (found : Found) (expected : String)
  | invalidLength (length : Nat) (expected : String)
  | other (text : String)
  deriving Repr

/-- Names between grave accents, as alternatives. -/
def alternatives : List String → String
  | [] => "there are no variants"
  | [a] => "expected `" ++ a ++ "`"
  | [a, b] => "expected `" ++ a ++ "` or `" ++ b ++ "`"
  | names => "expected one of " ++ String.intercalate ", " (names.map fun n => "`" ++ n ++ "`")

/-- The text of a fault. -/
protected def Fault.render : Fault → String
  | .missingField name => "missing field `" ++ name ++ "`"
  | .duplicateField name => "duplicate field `" ++ name ++ "`"
  | .unknownVariant name expected => "unknown variant `" ++ name ++ "`, " ++ alternatives expected
  | .invalidType found expected => "invalid type: " ++ found.render ++ ", expected " ++ expected
  | .invalidValue found expected => "invalid value: " ++ found.render ++ ", expected " ++ expected
  | .invalidLength n expected =>
    "invalid length " ++ Text.showNat n ++ ", expected " ++ expected
  | .other text => text

/-- A reading: what was asked for, or why there is none. -/
abbrev Result := Except Fault

end Rowflow.Reading
