import Rowflow.Table
import Rowflow.Text.Duration
import Rowflow.Yaml.Basic

/-!
# Pipeline definitions

A pipeline is a list of transforms joined by hops, with options for the engine that runs it. The
engine options do not change results; what is not given has a default, and the capacity of row sets
and the poll interval are at least one.
-/

namespace Rowflow

/-- How a transform with several outputs spreads its rows. -/
inductive Movement where
  /-- Every output receives every row. -/
  | copy
  /-- The outputs take turns. -/
  | distribute
  deriving DecidableEq, Repr, Inhabited

/-- The name of a movement in definitions. -/
def Movement.keyword : Movement → String
  | .copy => "copy"
  | .distribute => "distribute"

/-- Where failing rows go, and the names of the fields that say why. -/
structure ErrorHandling where
  target : String
  maxErrors : Option UInt64 := none
  countField : String := "nr_errors"
  descriptionField : String := "error_description"
  fieldsField : String := "error_fields"
  codesField : String := "error_codes"
  deriving DecidableEq, Inhabited

/-- The definition of one transform. -/
structure TransformSpec where
  id : String
  type : String
  copies : Nat := 1
  movement : Movement := .copy
  inject : Bool := false
  errorHandling : Option ErrorHandling := none
  options : Table Yaml := .empty
  deriving Inhabited

namespace TransformSpec

/-- The value of an option. -/
def option? (t : TransformSpec) (key : String) : Option Yaml := t.options.find? key

/-- The text of an option. -/
def optionText? (t : TransformSpec) (key : String) : Option String :=
  (t.option? key).bind Yaml.asString?

end TransformSpec

/-- A directed edge between two transforms. -/
structure Hop where
  origin : String
  target : String
  enabled : Bool := true
  deriving DecidableEq, Repr, Inhabited

/-- Options for the engine. -/
structure EngineOptions where
  rowSetSize : Option UInt64 := none
  pollMillis : Option UInt64 := none
  shutdownMillis : Option UInt64 := none
  deriving DecidableEq, Inhabited

namespace EngineOptions

/-- The capacity of every row set. -/
def capacity (o : EngineOptions) : Nat := max 1 ((o.rowSetSize.map UInt64.toNat).getD 10000)

/-- How often a blocked wait looks at the stop flag, in milliseconds. -/
def pollInterval (o : EngineOptions) : Nat := max 1 ((o.pollMillis.map UInt64.toNat).getD 50)

/-- How long workers may take to report after a stop, in milliseconds. -/
def shutdownTimeout (o : EngineOptions) : Nat := (o.shutdownMillis.map UInt64.toNat).getD 5000

end EngineOptions

/-- A pipeline definition. -/
structure Pipeline where
  name : String := "pipeline"
  engine : EngineOptions := {}
  transforms : List TransformSpec
  hops : List Hop := []
  deriving Inhabited

namespace Pipeline

/-- The names of the transforms, in order of declaration. -/
def ids (p : Pipeline) : List String := p.transforms.map (·.id)

/-- The first transform with the given name. -/
def transform? (p : Pipeline) (id : String) : Option TransformSpec :=
  p.transforms.find? (·.id = id)

/-- The hops that take part in a run. -/
def enabledHops (p : Pipeline) : List Hop := p.hops.filter (·.enabled)

/-- The edges along which failing rows go. -/
def errorEdges (p : Pipeline) : List (String × String) :=
  p.transforms.filterMap fun t => t.errorHandling.map fun h => (t.id, h.target)

/-- All edges along which rows go: the enabled hops, then the edges of failing rows. -/
def edges (p : Pipeline) : List (String × String) :=
  p.enabledHops.map (fun h => (h.origin, h.target)) ++ p.errorEdges

end Pipeline

end Rowflow
