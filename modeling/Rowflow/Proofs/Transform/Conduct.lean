import Mathlib.Tactic.Common
import Rowflow.Transform.Plan

/-!
# The conduct of a transform

A transform that handles its rows one by one is either a source, which has a list of rows of its
own, or a reader, which says of every row what becomes of it: a `Verdict`. This is its `Conduct`. A
`Role` adds the states in which the transform is ready for the next row, given the rows it has
handled so far.

`Plan.Opens` says that a plan is a call of a transform in such a role: it reads one row, or comes to
the next row of its own, and then acts on the verdict about that row by one operation at most
(`Plan.Serves`), saving nothing but states that are ready for the rows to come. What workers do with
such plans is told without looking at the transform again.
-/

namespace Rowflow

/-- What becomes of one row. -/
inductive Verdict where
  /-- An entry is written to the outputs as the movement says. -/
  | pass (entry : Entry)
  /-- An entry is written to one output. -/
  | send (target : String) (entry : Entry)
  /-- Nothing is written. -/
  | drop
  /-- The row is bad. -/
  | reject (message : String) (field code : Option String)
  /-- The transform cannot go on. -/
  | fail (error : TransformError)
  deriving DecidableEq

/-- Passes on what has been computed of a row. -/
def Verdict.ofResult : Except TransformError Entry → Verdict
  | .ok e => .pass e
  | .error (.row message field code) => .reject message field code
  | .error e => .fail e

/-- How a transform comes by its rows, and what becomes of each. -/
inductive Conduct where
  | source (rows : List Entry)
  | reader (verdict : Entry → Verdict)

/-- What becomes of a row; a source passes its rows on. -/
def Conduct.verdict : Conduct → Entry → Verdict
  | source _ => .pass
  | reader verdict => verdict

/-- A conduct with the states that are ready for the next row after some rows. -/
structure Role (σ : Type) where
  conduct : Conduct
  ready : List Entry → σ → Prop

/-- An error that ends a worker whatever the wiring: neither a bad row nor a stop. -/
structure TransformError.IsFatal (e : TransformError) : Prop where
  no_stop : e.isStop = false
  no_row : ∀ m f c, e ≠ .row m f c

namespace Plan

variable {σ : Type}

/-- The row is done with: the plan answers that there may be more, in a state ready for that. -/
inductive Settles (ready : σ → Prop) : σ → Plan σ (Except TransformError Bool) → Prop where
  | finish (state : σ) (now : ready state) : Settles ready state (.finish (.ok true))
  | save (state saved : σ) (next : Plan σ (Except TransformError Bool))
      (rest : Settles ready saved next) : Settles ready state (.save saved next)

/-- The plan acts on a verdict, in the given state. -/
inductive Serves (ready : σ → Prop) :
    Verdict → σ → Plan σ (Except TransformError Bool) → Prop where
  | pass (e : Entry) (state : σ)
      (next : Except TransformError Unit → Plan σ (Except TransformError Bool))
      (ok : Settles ready state (next (.ok ())))
      (error : ∀ err, next (.error err) = .finish (.error err)) :
      Serves ready (.pass e) state (.write e next)
  | send (target : String) (e : Entry) (state : σ)
      (next : Except TransformError Unit → Plan σ (Except TransformError Bool))
      (ok : Settles ready state (next (.ok ())))
      (error : ∀ err, next (.error err) = .finish (.error err)) :
      Serves ready (.send target e) state (.writeTo target e next)
  | drop (state : σ) (now : ready state) : Serves ready .drop state (.finish (.ok true))
  | reject (m : String) (f c : Option String) (state : σ) (now : ready state) :
      Serves ready (.reject m f c) state (.finish (.error (.row m f c)))
  | fail (err : TransformError) (state : σ) (fatal : err.IsFatal) :
      Serves ready (.fail err) state (.finish (.error err))
  | save (v : Verdict) (state saved : σ) (next : Plan σ (Except TransformError Bool))
      (rest : Serves ready v saved next) : Serves ready v state (.save saved next)
  | look (v : Verdict) (state : σ) (next : View → Plan σ (Except TransformError Bool))
      (rest : ∀ view, Serves ready v state (next view)) : Serves ready v state (.look next)
  | report (v : Verdict) (state : σ) (m : Log.Message)
      (next : Plan σ (Except TransformError Bool)) (rest : Serves ready v state next) :
      Serves ready v state (.report m next)

/-- The plan is a call of a transform in a role that has handled the rows `feed`. -/
inductive Opens (r : Role σ) (feed : List Entry) (state : σ) :
    Plan σ (Except TransformError Bool) → Prop where
  | read (verdict : Entry → Verdict)
      (next : Option Entry → Plan σ (Except TransformError Bool))
      (kind : r.conduct = .reader verdict) (dry : next none = .finish (.ok false))
      (row : ∀ e, Serves (r.ready (feed ++ [e])) (verdict e) state (next (some e))) :
      Opens r feed state (.read next)
  | emit (rows : List Entry) (e : Entry) (plan : Plan σ (Except TransformError Bool))
      (kind : r.conduct = .source rows) (more : feed ++ [e] <+: rows)
      (row : Serves (r.ready (feed ++ [e])) (.pass e) state plan) : Opens r feed state plan
  | exhausted (rows : List Entry) (kind : r.conduct = .source rows) (all : feed = rows) :
      Opens r feed state (.finish (.ok false))

/-- The plan does nothing but look around. -/
inductive Silent {α : Type} : Plan σ α → Prop where
  | finish (answer : α) : Silent (.finish answer)
  | look (next : View → Plan σ α) (rest : ∀ view, Silent (next view)) : Silent (.look next)

end Plan

/-- The transform plays the role: it handles row by row what becomes of it. -/
structure Role.Conforms {σ : Type} [Transform σ] (r : Role σ) : Prop where
  opens : ∀ feed state, r.ready feed state → Plan.Opens r feed state (Transform.process state)
  quiet : ∀ state : σ, Transform.dispose state = .finish ()

end Rowflow
