import Mathlib.Data.List.Infix
import Mathlib.Tactic.Common
import Rowflow.Engine.Context
import Rowflow.Proofs.Transform.Conduct

/-!
# What a worker makes of a list of rows

An `Outlet` says where the rows of a worker go. `Outlet.emit` is what a worker gives away for one
row, and `play` what it gives away for a list of rows, one after the other, up to the first row that
it cannot handle. Between two rows it remembers whose turn it is among its outputs and how many
errors have been counted (`Tally`).

- `play_append`, `reach_append`: a longer list goes on where the shorter one has ended.
- `play_mono`: so the entries given for a shorter list come first.
-/

namespace Rowflow

/-! ### Lists of inputs -/

section Play

variable {τ ι ο : Type} (act : τ → ι → Option (τ × List ο))

/-- The outputs for a list of inputs, up to the first one that is not handled. -/
def play : τ → List ι → List ο
  | _, [] => []
  | t, x :: xs =>
    match act t x with
    | some (t, ys) => ys ++ play t xs
    | none => []

/-- What is remembered after a list of inputs, if all are handled. -/
def reach : τ → List ι → Option τ
  | t, [] => some t
  | t, x :: xs =>
    match act t x with
    | some (t, _) => reach t xs
    | none => none

variable {act} {t u : τ} {x : ι} {xs ys : List ι} {os : List ο}

theorem reach_cons (h : act t x = some (u, os)) : reach act t (x :: xs) = reach act u xs := by
  rw [reach, h]

theorem reach_cons_none (h : act t x = none) : reach act t (x :: xs) = none := by
  rw [reach, h]

theorem play_cons (h : act t x = some (u, os)) : play act t (x :: xs) = os ++ play act u xs := by
  rw [play, h]

theorem play_cons_none (h : act t x = none) : play act t (x :: xs) = [] := by
  rw [play, h]

theorem reach_append (t : τ) (xs ys : List ι) :
    reach act t (xs ++ ys) = (reach act t xs).bind (reach act · ys) := by
  induction xs generalizing t with
  | nil => rfl
  | cons x xs ih =>
    rw [List.cons_append]
    rcases h : act t x with _ | ⟨t', os⟩
    · rw [reach_cons_none h, reach_cons_none h]
      rfl
    · rw [reach_cons h, reach_cons h, ih t']

theorem play_append (t : τ) (xs ys : List ι) :
    play act t (xs ++ ys) = play act t xs ++ ((reach act t xs).map (play act · ys)).getD [] := by
  induction xs generalizing t with
  | nil => rfl
  | cons x xs ih =>
    rw [List.cons_append]
    rcases h : act t x with _ | ⟨t', os⟩
    · rw [play_cons_none h, play_cons_none h, reach_cons_none h]
      rfl
    · rw [play_cons h, play_cons h, reach_cons h, ih t', List.append_assoc]

theorem play_mono (t : τ) (h : xs <+: ys) : play act t xs <+: play act t ys := by
  obtain ⟨zs, rfl⟩ := h
  rw [play_append]
  exact List.prefix_append _ _

theorem play_snoc (hr : reach act t xs = some u) {u' : τ} (hx : act u x = some (u', os)) :
    play act t (xs ++ [x]) = play act t xs ++ os ∧ reach act t (xs ++ [x]) = some u' := by
  rw [play_append, reach_append, hr, Option.map_some, Option.getD_some, Option.bind_some,
    play_cons hx, reach_cons hx]
  exact ⟨by rw [play, List.append_nil], rfl⟩

end Play

/-! ### Rows -/

/-- The entries for a row set, among entries with their row sets. -/
def sentTo (i : Nat) (ws : List (Nat × Entry)) : List Entry :=
  ws.filterMap fun x => if x.1 = i then some x.2 else none

theorem sentTo_append (i : Nat) (ws vs : List (Nat × Entry)) :
    sentTo i (ws ++ vs) = sentTo i ws ++ sentTo i vs := List.filterMap_append

/-- Where the rows of a worker go. -/
structure Outlet where
  movement : Movement
  /-- The outputs with the transforms they lead to. -/
  outputs : List (String × Nat)
  /-- Where failing rows go, and how. -/
  errors : Option (Nat × ErrorHandling)
  /-- Whether errors are counted; if not, any number of them is allowed. -/
  limited : Bool

/-- What a worker remembers from row to row. -/
structure Tally where
  /-- Whose turn it is among the outputs. -/
  turn : Nat := 0
  /-- The errors counted. -/
  errors : UInt64 := 0
  deriving DecidableEq

/-- What is said about a bad row. -/
def Diagnosis.ofRow (message : String) (field code : Option String) : Diagnosis :=
  ⟨1, message, field, code⟩

/-- The row as it is diverted. -/
def ErrorHandling.diverted (h : ErrorHandling) (e : Entry) (why : Diagnosis) : Entry :=
  ⟨h.errorLayout e.layout, e.row.append why.values⟩

namespace Outlet

/-- The errors counted with some more, if these are allowed. -/
def count (o : Outlet) (h : ErrorHandling) (errors more : UInt64) : Option UInt64 :=
  if o.limited then (h.reserve errors more).toOption else some errors

/-- The entries that are given for a row with a verdict, with the row sets that get them. There are
none if the worker cannot go on. -/
def emit (o : Outlet) (t : Tally) (e : Entry) : Verdict → Option (Tally × List (Nat × Entry))
  | .pass out =>
    if out.row.size = out.layout.size then
      match o.movement with
      | .copy => some (t, o.outputs.map fun x => (x.2, out))
      | .distribute =>
        let turn := t.turn % o.outputs.length
        match o.outputs[turn]? with
        | some (_, i) => some ({ t with turn := turn + 1 }, [(i, out)])
        | none => some (t, [])
    else none
  | .send target out =>
    if out.row.size = out.layout.size then
      (o.outputs.find? (·.1 = target)).map fun x => (t, [(x.2, out)])
    else none
  | .drop => some (t, [])
  | .reject message field code =>
    match o.errors with
    | none => none
    | some (i, h) =>
      (o.count h t.errors (Diagnosis.ofRow message field code).weight).map fun errors =>
        ({ t with errors }, [(i, h.diverted e (Diagnosis.ofRow message field code))])
  | .fail _ => none

/-- The entries that are given for a row by a worker of the given conduct. -/
def deal (o : Outlet) (conduct : Conduct) (t : Tally) (e : Entry) :
    Option (Tally × List (Nat × Entry)) := o.emit t e (conduct.verdict e)

end Outlet

/-- The outlet of a worker; unless limits count, as if any number of errors were allowed. -/
def Context.outlet (limited : Bool) (c : Context) : Outlet where
  movement := c.spec.movement
  outputs := c.outputs
  errors := c.errors.map fun r => (r.rowSet, r.diversion.handling)
  limited := limited

end Rowflow
