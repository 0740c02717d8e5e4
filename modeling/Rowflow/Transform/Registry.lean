import Rowflow.Transform.Builtin
import Rowflow.Text.Quoted

/-!
# Registries

A registry says how transforms of each type are made. Resolving a pipeline finds the constructor of
every transform and makes each transform once, so that a fault in its options is found before
anything else happens.
-/

namespace Rowflow

variable {σ : Type}

/-- Makes a transform from its definition. The number says which instance of this transform it is,
counted from one. -/
abbrev Constructor (σ : Type) := TransformSpec → Nat → Except String σ

/-- The constructors of the types of transforms. -/
structure Registry (σ : Type) where
  constructors : Table (Constructor σ) := .empty

namespace Registry

/-- The registry without types. -/
def empty : Registry σ := {}

/-- Sets the constructor of a type. -/
def register (r : Registry σ) (type : String) (make : Constructor σ) : Registry σ :=
  ⟨r.constructors.insert type make⟩

/-- The constructor of a type. -/
def find? (r : Registry σ) (type : String) : Option (Constructor σ) := r.constructors.find? type

/-- Whether a type has a constructor. -/
def contains (r : Registry σ) (type : String) : Bool := r.constructors.contains type

/-- The types in ascending order. -/
def types (r : Registry σ) : List String := r.constructors.keys

/-- The types in braces. -/
def describe (r : Registry σ) : String :=
  "TransformRegistry \x7b types: [" ++ String.intercalate ", " (r.types.map Text.quote) ++ "] \x7d"

/-- The registry of the built-in types. -/
def builtins (embed : Builtin → σ) : Registry σ :=
  Builtin.types.foldl
    (fun r type => r.register type fun spec _ => embed <$> Builtin.ofSpec spec) empty

end Registry

/-! ### Resolution -/

/-- Why a pipeline cannot be resolved. -/
inductive ResolutionError where
  | unknownType (transform type : String)
  | creationFailed (transform type reason : String)
  deriving DecidableEq, Repr, Inhabited

/-- The text of an error. -/
protected def ResolutionError.render : ResolutionError → String
  | .unknownType transform type =>
    "Transform type '" ++ type ++ "' used by '" ++ transform ++ "' is not registered"
  | .creationFailed transform type reason =>
    "Failed to create " ++ type ++ " transform '" ++ transform ++ "': " ++ reason

/-- A transform with the constructor of its type. -/
structure Resolved (σ : Type) where
  spec : TransformSpec
  make : Constructor σ

/-- The instance of the given number. -/
def Resolved.instantiate (r : Resolved σ) (number : Nat) : Except ResolutionError σ :=
  match r.make r.spec number with
  | .ok t => .ok t
  | .error reason => .error (.creationFailed r.spec.id r.spec.type reason)

/-- The transforms of a pipeline with their constructors. -/
abbrev TransformMap (σ : Type) := Table (Resolved σ)

namespace Registry

/-- Resolves one transform and makes it once. -/
def resolveOne (r : Registry σ) (spec : TransformSpec) (number : Nat) :
    Except ResolutionError (Resolved σ) :=
  match r.find? spec.type with
  | none => .error (.unknownType spec.id spec.type)
  | some make => do
    let resolved : Resolved σ := ⟨spec, make⟩
    let _ ← resolved.instantiate number
    return resolved

/-- Resolves transforms in order; of two with one name the later counts. -/
def resolveAll (r : Registry σ) : List TransformSpec → TransformMap σ →
    Except ResolutionError (TransformMap σ)
  | [], map => .ok map
  | spec :: rest, map => do
    let resolved ← r.resolveOne spec 1
    resolveAll r rest (map.insert spec.id resolved)

/-- Resolves every transform of a pipeline. -/
def resolve (r : Registry σ) (p : Pipeline) : Except ResolutionError (TransformMap σ) :=
  r.resolveAll p.transforms .empty

end Registry

end Rowflow
