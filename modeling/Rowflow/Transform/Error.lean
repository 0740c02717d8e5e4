import Rowflow.RowSet.Basic

/-!
# Failures of transforms

A row error concerns the row at hand and can be diverted; every other error ends the worker. An
error that only says that the run was stopped is no failure.
-/

namespace Rowflow

/-- Why a row is not diverted. -/
inductive RouteError where
  /-- The row would take the number of errors above the maximum. -/
  | ceilingExceeded (maximum count : UInt64)
  | rowSet (error : RowSetError)
  deriving DecidableEq, Repr, Inhabited

namespace RouteError

/-- The text of an error. -/
protected def render : RouteError → String
  | .ceilingExceeded maximum count =>
    "maximum number of diverted errors (" ++ Text.showNat maximum.toNat ++ ") exceeded: " ++
      Text.showNat count.toNat ++ " errors"
  | .rowSet error => error.render

/-- Whether the error only says that the run was stopped. -/
def isStop : RouteError → Bool
  | .ceilingExceeded .. => false
  | .rowSet error => error.isStop

end RouteError

/-- Why a transform cannot go on. -/
inductive TransformError where
  /-- The current row is bad. -/
  | row (message : String) (field code : Option String)
  /-- The transform cannot continue at all. -/
  | fatal (message : String)
  /-- A row has more or fewer values than its layout has fields. -/
  | layoutMismatch (values fields : Nat)
  /-- A row was meant for a transform that is no output. -/
  | unknownTarget (target : String)
  | rowSet (error : RowSetError)
  | route (error : RouteError)
  deriving DecidableEq, Repr, Inhabited

namespace TransformError

/-- The text of an error. -/
protected def render : TransformError → String
  | .row message _ _ => message
  | .fatal message => message
  | .layoutMismatch values fields =>
    "row with " ++ Text.showNat values ++ " values does not match layout of " ++
      Text.showNat fields ++ " fields"
  | .unknownTarget target => "'" ++ target ++ "' is not an output of this transform"
  | .rowSet error => error.render
  | .route error => error.render

/-- Whether the error only says that the run was stopped. -/
def isStop : TransformError → Bool
  | .rowSet error => error.isStop
  | .route error => error.isStop
  | _ => false

end TransformError

/-- What is said about a row that is diverted. -/
structure Diagnosis where
  /-- How many errors the row stands for; zero counts as one. -/
  count : UInt64 := 1
  description : String
  fields : Option String := none
  codes : Option String := none
  deriving DecidableEq, Repr, Inhabited

/-- What a part that breaks down leaves behind. -/
inductive Panic where
  | text (message : String)
  | other
  deriving DecidableEq, Repr, Inhabited

/-- The text of a breakdown. -/
protected def Panic.render : Panic → String
  | .text message => message
  | .other => "unknown panic"

/-- What a sum of 64-bit words leaves behind that does not fit. -/
def Panic.overflow : Panic := .text "attempt to add with overflow"

/-- The sum of two 64-bit words; whoever asks for one that does not fit breaks down. -/
def addWords (a b : UInt64) : Except Panic UInt64 :=
  if a.toNat + b.toNat < UInt64.size then .ok (a + b) else .error .overflow

end Rowflow
