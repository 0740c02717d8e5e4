import Rowflow.Log.Message
import Rowflow.Pipeline.Definition
import Rowflow.Transform.Error

/-!
# Plans

What a transform does in one call is a `Plan`: a tree of the operations it asks for, each with the
plan for every answer. A plan does nothing by itself; a worker performs it, one operation after the
other, while other workers perform theirs. Plans that end with a value are composed with `do`.

`Transform σ` says how a transform with the state `σ` behaves. A call changes the state by `save`,
so that what was saved stays saved when the call fails later.
-/

namespace Rowflow

/-! ### What a transform sees -/

/-- The row counters of one worker. -/
structure Counters where
  read : UInt64 := 0
  written : UInt64 := 0
  /-- Rows that were diverted. -/
  rejected : UInt64 := 0
  /-- Errors these rows stand for. -/
  errors : UInt64 := 0
  deriving DecidableEq, Repr, Inhabited

/-- One copy of a transform. -/
structure WorkerKey where
  id : String
  copy : Nat
  deriving DecidableEq, Repr, Inhabited

/-- The name of a worker. -/
protected def WorkerKey.render (k : WorkerKey) : String := k.id ++ "." ++ Text.showNat k.copy

/-- What a transform can look at. -/
structure View where
  spec : TransformSpec
  copy : Nat
  pipeline : String
  bindings : Table String
  /-- The transforms it writes to, in the order of the hops. -/
  targets : List String
  /-- Whether failing rows can be diverted. -/
  diverts : Bool
  stopped : Bool
  counters : Counters
  /-- The layout of the row that was read last. -/
  inputLayout : Option Layout
  deriving Inhabited

/-- What can be awaited. -/
inductive Milestone where
  /-- The worker of this name has finished. -/
  | finished (worker : String)
  /-- The worker of this name has set its mark. -/
  | marked (worker : String)
  deriving DecidableEq, Repr, Inhabited

/-- What a transform notes about an operation. -/
inductive Observation where
  | nothing
  | absent
  | accepted
  | noRow
  | row (row : Row)
  | failed (error : TransformError)
  | flag (value : Bool)
  | counters (value : Counters)
  | layout (value : Option Layout)
  | place (view : View)
  | option (value : Option Yaml)
  | variable (value : Option String)
  deriving Inhabited

/-! ### Plans -/

/-- What a transform with state `σ` does until it answers with an `α`. -/
inductive Plan (σ α : Type) where
  /-- Answers. -/
  | finish (answer : α)
  /-- Breaks down. -/
  | halt (panic : Panic)
  /-- Changes the state. -/
  | save (state : σ) (next : Plan σ α)
  | look (next : View → Plan σ α)
  /-- Reads the next row of any input; there is none at the end and after a stop. -/
  | read (next : Option Entry → Plan σ α)
  /-- Writes to the outputs as the transform's movement says. -/
  | write (entry : Entry) (next : Except TransformError Unit → Plan σ α)
  /-- Writes to one output. -/
  | writeTo (target : String) (entry : Entry) (next : Except TransformError Unit → Plan σ α)
  /-- Diverts a row. -/
  | divert (entry : Entry) (why : Diagnosis) (next : Except TransformError Unit → Plan σ α)
  /-- Stops the whole run. -/
  | stopAll (next : Plan σ α)
  | report (message : Log.Message) (next : Plan σ α)
  /-- Notes something in the journal of the run. -/
  | note (observation : Observation) (next : Plan σ α)
  /-- Sets the mark of the worker. -/
  | mark (next : Plan σ α)
  | await (milestone : Milestone) (next : Plan σ α)
  /-- Does nothing for a number of milliseconds. -/
  | pause (millis : Nat) (next : Plan σ α)

namespace Plan

variable {σ τ α β : Type}

/-- Does what a plan says, then what its answer asks for. -/
def bind (f : α → Plan σ β) : Plan σ α → Plan σ β
  | finish a => f a
  | halt p => halt p
  | save s p => save s (p.bind f)
  | look k => look fun v => (k v).bind f
  | read k => read fun e => (k e).bind f
  | write e k => write e fun r => (k r).bind f
  | writeTo t e k => writeTo t e fun r => (k r).bind f
  | divert e w k => divert e w fun r => (k r).bind f
  | stopAll p => stopAll (p.bind f)
  | report m p => report m (p.bind f)
  | note o p => note o (p.bind f)
  | mark p => mark (p.bind f)
  | await m p => await m (p.bind f)
  | pause n p => pause n (p.bind f)

/-- The same plan with its state inside a larger one. -/
def embed (f : σ → τ) : Plan σ α → Plan τ α
  | finish a => finish a
  | halt p => halt p
  | save s p => save (f s) (p.embed f)
  | look k => look fun v => (k v).embed f
  | read k => read fun e => (k e).embed f
  | write e k => write e fun r => (k r).embed f
  | writeTo t e k => writeTo t e fun r => (k r).embed f
  | divert e w k => divert e w fun r => (k r).embed f
  | stopAll p => stopAll (p.embed f)
  | report m p => report m (p.embed f)
  | note o p => note o (p.embed f)
  | mark p => mark (p.embed f)
  | await m p => await m (p.embed f)
  | pause n p => pause n (p.embed f)

instance : Monad (Plan σ) where
  pure := finish
  bind p f := p.bind f

end Plan

/-- A plan that may fail. -/
abbrev Attempt (σ α : Type) := ExceptT TransformError (Plan σ) α

namespace Attempt

variable {σ α : Type}

/-- Changes the state. -/
def save (s : σ) : Attempt σ Unit := ExceptT.mk (.save s (.finish (.ok ())))

/-- Looks around. -/
def look : Attempt σ View := ExceptT.mk (.look fun v => .finish (.ok v))

/-- Reads the next row. -/
def read : Attempt σ (Option Entry) := ExceptT.mk (.read fun e => .finish (.ok e))

/-- Writes a row. -/
def write (e : Entry) : Attempt σ Unit := ExceptT.mk (.write e .finish)

/-- Writes a row to one output. -/
def writeTo (target : String) (e : Entry) : Attempt σ Unit := ExceptT.mk (.writeTo target e .finish)

/-- Writes to the log. -/
def report (m : Log.Message) : Attempt σ Unit := ExceptT.mk (.report m (.finish (.ok ())))

end Attempt

/-! ### Transforms -/

/-- How a transform with a state behaves. -/
class Transform (σ : Type) where
  /-- The name of the kind of transform. -/
  name : σ → String
  /-- Gets ready, before any row flows. -/
  init : σ → Plan σ (Except TransformError Unit) := fun _ => .finish (.ok ())
  /-- Handles one unit of work, usually one row; answers whether there may be more to do. -/
  process : σ → Plan σ (Except TransformError Bool)
  /-- Lets go of what it holds. -/
  dispose : σ → Plan σ Unit := fun _ => .finish ()

instance {σ τ : Type} [Transform σ] [Transform τ] : Transform (σ ⊕ τ) where
  name
    | .inl s => Transform.name s
    | .inr t => Transform.name t
  init
    | .inl s => (Transform.init s).embed .inl
    | .inr t => (Transform.init t).embed .inr
  process
    | .inl s => (Transform.process s).embed .inl
    | .inr t => (Transform.process t).embed .inr
  dispose
    | .inl s => (Transform.dispose s).embed .inl
    | .inr t => (Transform.dispose t).embed .inr

end Rowflow
