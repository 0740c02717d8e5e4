import Mathlib.Data.List.Basic
import Rowflow.Proofs.Context.Step

/-!
# What calls give

An operation has row sets to give a row to, in order (`Operation.targets`): all outputs, the one whose
turn it is, the one that is asked for, or the row set for failing rows. A call gives its row to them one
after the other, and when it comes back it has given the row to all of them, or been refused by one and
given it to those before, or it has been declined and given nothing (`Outset.ends`). Whose turn it is
among the outputs is told by how many rows have been dealt out (`Outset.rotation`), and a call that fails
leaves counters and listeners as they were (`Outset.failed`).
-/

namespace Rowflow

namespace Usage

/-- Whether an operation is a write that passes the check of the layout. -/
def Operation.deals : Operation → Bool
  | write e => e.row.size = e.layout.size
  | _ => false

/-- The row set for failing rows. -/
def Outset.route (x : Outset) : Option Nat := x.usage.context.errors.map (·.rowSet)

/-- The row sets that an operation is to give its row to, in order, if so many rows have been dealt out
before. -/
def Operation.targets (x : Outset) (turn : Nat) : Operation → List Nat
  | write _ =>
    match x.spec.movement with
    | .copy => x.wiring.outputs.map (·.2)
    | .distribute => (x.wiring.outputs[turn % x.wiring.outputs.length]?.map (·.2)).toList
  | writeTo target _ => ((x.wiring.outputs.find? (·.1 = target)).map (·.2)).toList
  | divert .. | redirect .. => x.route.toList
  | read => []

theorem Operation.targets_diverts {x : Outset} {turn : Nat} {op : Operation}
    (h : op.diverts = true) : op.targets x turn = x.route.toList := by
  cases op with
  | divert => rfl
  | redirect => rfl
  | _ => cases h

/-- How many rows have been dealt out. -/
def dealt (u : Usage) : Nat :=
  u.past.countP (·.op.deals) +
    match u.now with
    | some (call, stage) => if stage ≠ .called ∧ call.op.deals = true then 1 else 0
    | none => 0

variable {x : Outset} {u u' : Usage} {event : Event}

theorem eq_some_of_split {out : Option Nat} {done rest : List Nat} {i : Nat}
    (h : out.toList = done ++ i :: rest) : done = [] ∧ out = some i := by
  rcases out with _ | j
  · simp at h
  · rcases done with _ | ⟨k, done⟩
    · cases h
      exact ⟨rfl, rfl⟩
    · simp at h

/-! ### The turn among the outputs -/

section Steps

variable {s s' : Shared} {c c' : Context} {live : List Nat} {op : Operation} {stage : Stage}
  {act : Option Act} {outcome : Outcome} (h : Steps s c live op stage act s' c' outcome)
include h

theorem Steps.not_called : outcome ≠ .goesOn .called := by
  rintro rfl
  cases h

/-- The turn passes on when a row begins to be dealt out, and only then. -/
theorem Steps.nextOutput (hm : c.spec.movement = .distribute) (hne : c.outputs ≠ []) :
    c'.nextOutput % c.outputs.length =
      (c.nextOutput + if stage = .called ∧ op.deals = true then 1 else 0) % c.outputs.length := by
  have hlen : 0 < c.outputs.length := List.length_pos_of_ne_nil hne
  have hkept (hop : op.deals = false) : c.nextOutput % c.outputs.length =
      (c.nextOutput + if stage = .called ∧ op.deals = true then 1 else 0) % c.outputs.length := by
    rw [if_neg (fun h => by rw [hop] at h; exact absurd h.2 Bool.false_ne_true), Nat.add_zero]
  have hsame (hstage : stage ≠ .called) : c.nextOutput % c.outputs.length =
      (c.nextOutput + if stage = .called ∧ op.deals = true then 1 else 0) % c.outputs.length := by
    rw [if_neg (fun h => hstage h.1), Nat.add_zero]
  have hdiverts (hop : op.diverts = true) : op.deals = false := by
    cases op with
    | write => cases hop
    | _ => rfl
  cases h with
  | reads read => exact hkept (by rw [read]; rfl)
  | declines _ _ _ _ _ rotation why =>
    rw [rotation]
    cases why with
    | @misfit op e writes misfit =>
      refine hkept ?_
      cases op with
      | write e =>
        cases writes
        exact decide_eq_false misfit
      | _ => rfl
    | unknown => exact hkept rfl
    | undiverted diverts => exact hkept (hdiverts diverts)
  | fails _ _ rotation diverts =>
    rw [rotation]
    exact hkept (hdiverts diverts)
  | begins _ _ _ _ _ how =>
    generalize c'.nextOutput = rotation at how ⊢
    cases how with
    | copies _ movement => cases hm.symm.trans movement
    | deals fits =>
      rw [if_pos ⟨rfl, decide_eq_true fits⟩, Nat.mod_add_mod]
    | discards _ _ turn =>
      rw [List.getElem?_eq_getElem (Nat.mod_lt _ hlen)] at turn
      cases turn
    | aims => exact hkept rfl
    | diverts diverts => exact hkept (hdiverts diverts)
  | last _ _ _ _ _ _ _ settles =>
    obtain ⟨-, -, counters, rfl⟩ := settles.frame
    exact hsame fun h => by cases h
  | nowhere _ _ _ _ _ settles =>
    obtain ⟨-, -, counters, rfl⟩ := settles.frame
    exact hsame fun h => by cases h
  | _ => exact hsame fun h => by cases h

theorem dealt_proceed {call : Call} (hop : call.op = op) (hnow : u.now = some (call, stage)) :
    (u.proceed call act s' c' outcome).dealt =
      u.dealt + if stage = .called ∧ op.deals = true then 1 else 0 := by
  subst hop
  have hdealt : u.dealt = u.past.countP (·.op.deals) +
      if stage ≠ .called ∧ call.op.deals = true then 1 else 0 := by
    unfold dealt
    rw [hnow]
  rw [hdealt]
  cases outcome with
  | goesOn stage' =>
    have hstage : stage' ≠ .called := fun heq => h.not_called (heq ▸ rfl)
    by_cases h1 : stage = .called <;> by_cases h2 : call.op.deals = true <;>
      simp [dealt, proceed, hstage, h1, h2]
  | returns reply =>
    by_cases h1 : stage = .called <;> by_cases h2 : call.op.deals = true <;>
      simp [dealt, proceed, h1, h2, List.countP_append]

end Steps

/-- The turn among the outputs is told by how many rows have been dealt out. -/
theorem Outset.rotation (x : Outset) (hm : x.spec.movement = .distribute)
    (hne : x.wiring.outputs ≠ []) (events : List Event) :
    (x.after events).context.nextOutput % x.wiring.outputs.length =
      (x.after events).dealt % x.wiring.outputs.length := by
  refine x.induction (P := fun _ u => u.context.nextOutput % x.wiring.outputs.length =
    u.dealt % x.wiring.outputs.length) rfl (fun events u event u' _ hsound hmove ih => ?_) events
  cases hmove with
  | calls op free =>
    have hdealt : u.dealt = u.past.countP (·.op.deals) := by
      unfold dealt
      rw [free]
      rfl
    rw [hdealt] at ih
    simpa [dealt] using ih
  | steps call stage act s' c' outcome busy step =>
    rw [context_proceed, dealt_proceed step rfl busy, ← Nat.mod_add_mod, ← ih, Nat.mod_add_mod,
      ← hsound.outputs]
    exact step.nextOutput (hsound.spec ▸ hm) (hsound.outputs ▸ hne)
  | _ => exact ih

/-! ### What a call does -/

/-- What the call at hand has done so far. -/
def Underway (targets : List Nat) (call : Call) : Stage → Prop
  | .called => call.acts = []
  | .reading _ => call.given = []
  | .writing d => (∃ done, targets = done ++ d.pending ∧ call.given = done.map (·, d.entry)) ∧
      ∀ act ∈ call.acts, ∃ i ∈ targets, ∃ found, act = .offered i d.entry found

theorem Underway.offers {targets rest : List Nat} {call : Call} {d : Context.Delivery} {i : Nat}
    (h : Underway targets call (.writing d)) (pending : d.pending = i :: rest)
    (found : RowSet.Admission) : ∀ act ∈ call.acts ++ [.offered i d.entry found],
      ∃ i ∈ targets, ∃ found, act = .offered i d.entry found := by
  obtain ⟨⟨done, htargets, -⟩, hoffers⟩ := h
  have hi : i ∈ targets := by simp [htargets, pending]
  intro act hact
  rcases List.mem_append.mp hact with hact | hact
  · exact hoffers act hact
  · exact ⟨i, hi, found, List.mem_singleton.mp hact⟩

/-- A row that an operation can give to row sets: the row that it writes, or what it makes of the row
that it diverts. -/
def Operation.Gives (op : Operation) (e : Entry) : Prop :=
  (op.written? = some e ∧ e.row.size = e.layout.size) ∨ op.diverts = true

/-- What a call has done that has come back. -/
inductive Ends (x : Outset) (turn : Nat) (a : Return) : Prop where
  | read (read : a.op = .read) (given : a.given = [])
  | declined (err : TransformError) (reply : a.reply = .error err) (acts : a.acts = [])
      (why : Declines x.wiring.outputs a.op err)
  | overflows (diverts : a.op.diverts = true) (reply : a.reply = .broken .overflow)
      (acts : a.acts = [])
  | refused (e : Entry) (err : TransformError) (done rest : List Nat) (i : Nat)
      (found : RowSet.Admission) (gives : a.op.Gives e) (reply : a.reply = .error err)
      (targets : a.op.targets x turn = done ++ i :: rest) (given : a.given = done.map (·, e))
      (offers : ∀ act ∈ a.acts, ∃ i ∈ a.op.targets x turn, ∃ found, act = .offered i e found)
      (last : .offered i e found ∈ a.acts) (away : found ≠ .room)
  | taken (e : Entry) (gives : a.op.Gives e) (reply : a.reply = .ok ∨ ∃ p, a.reply = .broken p)
      (given : a.given = (a.op.targets x turn).map (·, e))
      (offers : ∀ act ∈ a.acts, ∃ i ∈ a.op.targets x turn, ∃ found, act = .offered i e found)

theorem Call.given_concat (call : Call) (act : Option Act) :
    ({ call with acts := call.acts ++ act.toList } : Call).given =
      call.given ++ (act.bind Act.given?).toList :=
  filterMap_concat Act.given? call.acts act

section Underway

variable {s s' : Shared} {c c' : Context} {live : List Nat} {call : Call} {stage : Stage}
  {act : Option Act} {targets : List Nat} (hunderway : Underway targets call stage)
include hunderway

theorem Steps.underway {stage' : Stage} (h : Steps s c live call.op stage act s' c' (.goesOn stage'))
    (hbegins : stage = .called → ∀ turn d, Begins c call.op turn d → targets = d.pending) :
    Underway targets { call with acts := call.acts ++ act.toList } stage' := by
  cases h with
  | reads =>
    show Call.given _ = []
    rw [call.given_concat, Call.given, hunderway]
    rfl
  | begins d _ _ _ _ how =>
    have hnil : call.acts = [] := hunderway
    rw [Option.toList_none, List.append_nil]
    refine ⟨⟨[], hbegins rfl _ d how, ?_⟩, fun a ha => ?_⟩
    · rw [Call.given, hnil]
      rfl
    · rw [hnil] at ha
      cases ha
  | full d i rest pending =>
    have hoffers := hunderway.offers pending .full
    obtain ⟨⟨done, htargets, hgiven⟩, -⟩ := hunderway
    refine ⟨⟨done, htargets, ?_⟩, hoffers⟩
    rw [call.given_concat, hgiven]
    exact List.append_nil _
  | partly d i j rest pending =>
    have hoffers := hunderway.offers pending .room
    obtain ⟨⟨done, htargets, hgiven⟩, -⟩ := hunderway
    refine ⟨⟨done ++ [i], by rw [htargets, pending]; simp, ?_⟩, hoffers⟩
    rw [call.given_concat, hgiven, List.map_append]
    rfl
  | _ =>
    show Call.given _ = []
    rw [call.given_concat, show call.given = [] from hunderway]
    rfl

/-- A call that comes back has done one of five things. -/
theorem Steps.ends {reply : Reply} (h : Steps s c live call.op stage act s' c' (.returns reply))
    (hsuits : stage.Suits call.op) {turn : Nat} (htargets : call.op.targets x turn = targets)
    (houtputs : c.outputs = x.wiring.outputs) (after : Standing) (stopped : Bool) :
    Ends x turn ⟨{ call with acts := call.acts ++ act.toList }, reply, after, stopped⟩ := by
  have hgives {d : Context.Delivery} (hd : (Stage.writing d).Suits call.op) :
      call.op.Gives d.entry := hd.imp (fun h => ⟨h.1, h.2.1⟩) (·.1)
  have hread {stage : ReadStage} {act : Option Act} (hstage : (Stage.reading stage).Suits call.op)
      (hu : Underway targets call (.reading stage)) (hact : act.bind Act.given? = none) :
      Ends x turn ⟨{ call with acts := call.acts ++ act.toList }, reply, after, stopped⟩ := by
    refine .read hstage ?_
    show Call.given _ = []
    rw [call.given_concat, hact, show call.given = [] from hu]
    rfl
  have hsettled {s₁ s₂ : Shared} {c₁ c₂ : Context} {d : Context.Delivery} {reply : Reply}
      (settles : Settles s₁ c₁ d s₂ c₂ reply) : reply = .ok ∨ ∃ p, reply = .broken p :=
    settles.imp (·.2) fun ⟨p, h⟩ => ⟨p, h.2⟩
  cases h with
  | declines err _ _ _ _ _ why =>
    refine .declined err rfl ?_ (houtputs ▸ why)
    show call.acts ++ [] = []
    rw [show call.acts = [] from hunderway]
    rfl
  | fails _ _ _ diverts =>
    refine .overflows diverts rfl ?_
    show call.acts ++ [] = []
    rw [show call.acts = [] from hunderway]
    rfl
  | dries => exact hread hsuits hunderway rfl
  | row => exact hread hsuits hunderway rfl
  | broken => exact hread hsuits hunderway rfl
  | refused d i rest err found pending away =>
    have hoffers := hunderway.offers pending found
    obtain ⟨⟨done, hsplit, hgiven⟩, -⟩ := hunderway
    have hnone : Act.given? (.offered i d.entry found) = none := by
      cases found with
      | room => exact absurd rfl away
      | _ => rfl
    refine .refused d.entry _ done rest i found (hgives hsuits) rfl
      (by rw [htargets, hsplit, pending]) ?_ (htargets ▸ hoffers) (by simp) away
    show Call.given _ = _
    rw [call.given_concat, hgiven, Option.bind_some, hnone]
    exact List.append_nil _
  | last d i _ _ _ pending _ settles =>
    have hoffers := hunderway.offers pending .room
    obtain ⟨⟨done, hsplit, hgiven⟩, -⟩ := hunderway
    refine .taken d.entry (hgives hsuits) (hsettled settles) ?_ (htargets ▸ hoffers)
    show Call.given _ = _
    rw [call.given_concat, hgiven, htargets, hsplit, pending, List.map_append]
    rfl
  | nowhere d _ _ _ pending settles =>
    obtain ⟨⟨done, hsplit, hgiven⟩, hoffers⟩ := hunderway
    refine .taken d.entry (hgives hsuits) (hsettled settles) ?_ fun a ha => ?_
    · show Call.given _ = _
      rw [call.given_concat, hgiven, htargets, hsplit, pending, List.append_nil]
      exact List.append_nil _
    · rw [htargets]
      rw [Option.toList_none, List.append_nil] at ha
      exact hoffers a ha

end Underway

theorem Begins.targets (x : Outset) (events : List Event) {call : Call}
    (hnow : (x.after events).now = some (call, .called)) {turn : Nat} {d : Context.Delivery}
    (how : Begins (x.after events).context call.op turn d) :
    call.op.targets x ((x.after events).past.countP (·.op.deals)) = d.pending := by
  have hsound := x.sound events
  have hdealt : (x.after events).dealt = (x.after events).past.countP (·.op.deals) := by
    unfold dealt
    rw [hnow]
    simp
  have hturn (hm : x.spec.movement = .distribute) :
      x.wiring.outputs[(x.after events).past.countP (·.op.deals) % x.wiring.outputs.length]? =
        x.wiring.outputs[(x.after events).context.nextOutput % x.wiring.outputs.length]? := by
    by_cases hne : x.wiring.outputs = []
    · simp [hne]
    · rw [x.rotation hm hne events, hdealt]
  have houtputs := hsound.outputs
  have hspec := hsound.spec
  have hroute := hsound.route
  generalize x.after events = u at *
  generalize call.op = op at how ⊢
  cases how with
  | copies fits movement =>
    rw [hspec] at movement
    simp only [Operation.targets, movement, houtputs]
  | deals fits movement turn =>
    rw [hspec] at movement
    rw [houtputs] at turn
    simp only [Operation.targets, movement, hturn movement, turn, Option.map_some, Option.toList_some]
  | discards fits movement turn =>
    rw [hspec] at movement
    rw [houtputs] at turn
    simp only [Operation.targets, movement, hturn movement, turn, Option.map_none, Option.toList_none]
  | aims fits output =>
    rw [houtputs] at output
    simp only [Operation.targets, output, Option.map_some, Option.toList_some]
  | diverts diverts route =>
    rw [hroute] at route
    rw [Operation.targets_diverts diverts, Outset.route, route]
    rfl

/-- The call at hand is under way to the row sets that its operation is to give the row to. -/
theorem Outset.underway (x : Outset) (events : List Event) : ∀ call stage,
    (x.after events).now = some (call, stage) →
      Underway (call.op.targets x ((x.after events).past.countP (·.op.deals))) call stage := by
  refine x.induction (P := fun _ u => ∀ call stage, u.now = some (call, stage) →
    Underway (call.op.targets x (u.past.countP (·.op.deals))) call stage)
    (fun call stage hnow => by cases hnow)
    (fun events u event u' hafter hsound hmove ih => ?_) events
  cases hmove with
  | calls op free =>
    rintro call stage ⟨⟩
    rfl
  | steps call stage act s' c' outcome busy step =>
    intro call' stage' hnow
    obtain ⟨rfl, rfl⟩ := now_proceed hnow
    have hkept : (u.proceed call act s' c' (.goesOn stage')).past = u.past := rfl
    rw [hkept]
    refine step.underway (ih call stage busy) fun hcalled turn d how => ?_
    subst hafter
    exact Begins.targets x events (hcalled ▸ busy) how
  | _ => exact ih

/-- **What calls give.** A call that has come back has given its row to the row sets that it was to give
it to, or to those before the one that refused it, or it has been declined, or the count of errors has
broken down. -/
theorem Outset.ends (x : Outset) (events : List Event) : ∀ before a after,
    (x.after events).past = before ++ a :: after → Ends x (before.countP (·.op.deals)) a := by
  refine x.induction (P := fun _ u => ∀ before a after, u.past = before ++ a :: after →
    Ends x (before.countP (·.op.deals)) a) (fun before a after h => by simp [Outset.usage] at h)
    (fun events u event u' hafter hsound hmove ih => ?_) events
  cases hmove with
  | steps call stage act s' c' outcome busy step =>
    cases outcome with
    | goesOn => exact ih
    | returns reply =>
      have hunderway := x.underway events call stage (hafter ▸ busy)
      rw [← hafter] at hunderway
      exact forall_split_concat.mpr ⟨ih, step.ends hunderway (hsound.suits call stage busy) rfl
        hsound.outputs _ _⟩
  | _ => exact ih

theorem Outset.exists_ends (x : Outset) (events : List Event) {a : Return}
    (ha : a ∈ (x.after events).past) : ∃ turn, Ends x turn a := by
  obtain ⟨before, after, hsplit⟩ := List.append_of_mem ha
  exact ⟨_, x.ends events before a after hsplit⟩

/-! ### Calls that fail -/

/-- Whether a call has come back without a row or with an error. -/
def Reply.fruitless : Reply → Bool
  | .noRow | .error _ => true
  | _ => false

/-- Whether a step brings a call on without success, or to an end without. -/
def Outcome.fruitless : Outcome → Bool
  | .goesOn _ => true
  | .returns reply => reply.fruitless

/-- Whether a call has come to nothing: it has come back without a row or with an error, or the count of
errors has broken down before anything was offered. -/
def Return.Vain (a : Return) : Prop :=
  a.reply.fruitless = true ∨ a.op.diverts = true ∧ a.reply = .broken .overflow ∧ a.acts = []

/-- A step changes counters and listeners only where a call has success or a listener breaks down, and
whose turn it is among the outputs only where a delivery begins. -/
theorem Steps.standing {s s' : Shared} {c c' : Context} {live : List Nat} {op : Operation}
    {stage : Stage} {act : Option Act} {outcome : Outcome}
    (h : Steps s c live op stage act s' c' outcome)
    (hout : outcome.fruitless = true ∨ stage = .called) :
    c'.counters = c.counters ∧ s'.collectors = s.collectors ∧
      ((∀ d, outcome ≠ .goesOn (.writing d)) → c'.nextOutput = c.nextOutput ∧
        ((∀ d, stage ≠ .writing d) ∨ (act ≠ none ∧ ∃ reply, outcome = .returns reply))) := by
  cases h with
  | declines _ _ _ quiet keeps rotation =>
    exact ⟨keeps.counters, quiet.collectors, fun _ => ⟨rotation, Or.inl fun _ h => by cases h⟩⟩
  | fails _ keeps rotation =>
    exact ⟨keeps.counters, rfl, fun _ => ⟨rotation, Or.inl fun _ h => by cases h⟩⟩
  | begins d _ _ quiet keeps =>
    exact ⟨keeps.counters, quiet.collectors, fun hd => absurd rfl (hd d)⟩
  | row => rcases hout with h | h <;> cases h
  | broken => rcases hout with h | h <;> cases h
  | full d => exact ⟨rfl, rfl, fun hd => absurd rfl (hd d)⟩
  | partly => exact ⟨rfl, rfl, fun hd => absurd rfl (hd _)⟩
  | refused => exact ⟨rfl, rfl, fun _ => ⟨rfl, Or.inr ⟨fun h => (by cases h), _, rfl⟩⟩⟩
  | last _ _ _ _ _ _ _ settles =>
    rcases settles with ⟨-, rfl⟩ | ⟨p, -, rfl⟩ <;> rcases hout with h | h <;> cases h
  | nowhere _ _ _ _ _ settles =>
    rcases settles with ⟨-, rfl⟩ | ⟨p, -, rfl⟩ <;> rcases hout with h | h <;> cases h
  | _ => exact ⟨rfl, rfl, fun _ => ⟨rfl, Or.inl fun _ h => by cases h⟩⟩

theorem Steps.called_of_vain {s s' : Shared} {c c' : Context} {live : List Nat} {call : Call}
    {stage : Stage} {act : Option Act} {reply : Reply} {after : Standing} {stopped : Bool}
    (h : Steps s c live call.op stage act s' c' (.returns reply)) (hsuits : stage.Suits call.op)
    (hvain : Return.Vain ⟨{ call with acts := call.acts ++ act.toList }, reply, after, stopped⟩) :
    reply.fruitless = true ∨ stage = .called := by
  refine hvain.imp_right fun ⟨hdiverts, hreply, hacts⟩ => ?_
  change call.op.diverts = true at hdiverts
  change reply = _ at hreply
  have hact : act = none := by
    rcases act with _ | a
    · rfl
    · simp at hacts
  subst hact hreply
  cases h with
  | fails => rfl
  | nowhere d _ _ _ pending =>
    rcases hsuits with ⟨hwrites, -⟩ | ⟨-, -, hne⟩
    · rw [Operation.written?_eq_none hdiverts] at hwrites
      cases hwrites
    · exact absurd pending hne

theorem Doing.collectors (doing : Doing) (s : Shared) : (doing.act s).collectors = s.collectors := by
  cases doing with
  | put i e =>
    simp only [act]
    split <;> rfl
  | take i =>
    simp only [act]
    split <;> rfl
  | _ => rfl

/-- A call that comes to nothing leaves counters and listeners as they were, and whose turn it is among
the outputs unless it has offered a row. -/
theorem Outset.failed (x : Outset) (events : List Event) :
    (∀ a ∈ (x.after events).past, a.Vain →
      a.after.counters = a.before.counters ∧ a.after.collectors = a.before.collectors ∧
        (a.acts = [] → a.after.rotation = a.before.rotation)) ∧
    ∀ call stage, (x.after events).now = some (call, stage) →
      call.before.counters = (x.after events).context.counters ∧
        call.before.collectors = (x.after events).shared.collectors ∧
        ((∀ d, stage ≠ .writing d) → call.before.rotation = (x.after events).context.nextOutput) := by
  refine x.induction (P := fun _ u => (∀ a ∈ u.past, a.Vain →
      a.after.counters = a.before.counters ∧ a.after.collectors = a.before.collectors ∧
        (a.acts = [] → a.after.rotation = a.before.rotation)) ∧
    ∀ call stage, u.now = some (call, stage) → call.before.counters = u.context.counters ∧
      call.before.collectors = u.shared.collectors ∧
      ((∀ d, stage ≠ .writing d) → call.before.rotation = u.context.nextOutput))
    ⟨fun a ha => (by cases ha), fun call stage hnow => by cases hnow⟩
    (fun events u event u' hafter hsound hmove ih => ?_) events
  obtain ⟨hpast, hnow⟩ := ih
  cases hmove with
  | idle => exact ⟨hpast, hnow⟩
  | others doing =>
    refine ⟨hpast, fun call stage h => ?_⟩
    rw [doing.collectors]
    exact hnow call stage h
  | forgets free => exact ⟨hpast, hnow⟩
  | calls op free =>
    refine ⟨hpast, ?_⟩
    rintro call stage ⟨⟩
    exact ⟨rfl, rfl, fun _ => rfl⟩
  | steps call stage act s' c' outcome busy step =>
    obtain ⟨hcounters, hcollectors, hrotation⟩ := hnow call stage busy
    cases outcome with
    | goesOn stage' =>
      obtain ⟨h1, h2, h3⟩ := step.standing (Or.inl rfl)
      refine ⟨hpast, ?_⟩
      rintro call' stage'' ⟨⟩
      refine ⟨hcounters.trans h1.symm, hcollectors.trans h2.symm, fun hstage => ?_⟩
      obtain ⟨hturn, hnot⟩ := h3 fun d hd => hstage d (by cases hd; rfl)
      exact (hrotation (hnot.resolve_right fun ⟨_, _, h⟩ => by cases h)).trans hturn.symm
    | returns reply =>
      refine ⟨fun a ha => ?_, fun call stage h => by cases h⟩
      rcases List.mem_append.mp ha with ha | ha
      · exact hpast a ha
      · cases List.mem_singleton.mp ha
        intro hvain
        obtain ⟨h1, h2, h3⟩ :=
          step.standing (step.called_of_vain (hsound.suits call stage busy) hvain)
        refine ⟨h1.trans hcounters.symm, h2.trans hcollectors.symm, fun hacts => ?_⟩
        obtain ⟨hturn, hstage⟩ := h3 fun d hd => by cases hd
        have hact : act = none := by
          rcases act with _ | a
          · rfl
          · exact absurd hacts (by simp)
        exact hturn.trans (hrotation (hstage.resolve_right fun h => h.1 hact)).symm

end Usage

end Rowflow
