import Rowflow.Binary64.Basic

/-!
# TOML data

The values a TOML document holds. Integers have 64 bits; a table keeps the order in which its
members were written; a date, a time or both are kept as their text.
-/

namespace Rowflow

/-- A TOML value. -/
inductive Toml where
  | string (value : String)
  | integer (value : Int)
  | float (value : Binary64)
  | boolean (value : Bool)
  | datetime (text : String)
  | array (items : List Toml)
  | table (members : List (String × Toml))
  deriving Inhabited

end Rowflow
