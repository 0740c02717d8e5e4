import Mathlib.Data.List.Induction
import Mathlib.Data.List.InsertIdx
import Mathlib.Data.List.Nodup
import Rowflow.Proofs.Context.Usage

/-!
# What can happen to a context in use

`Steps` lists what a step of a call can do, and `Moves` what an event can do; nothing after this file
unfolds an operation or an event. `Sound` holds of a context in use at any time: what the wiring has given
it stays, the inputs in its list are those that have not been found done, and it waits for a row only as
long as there are inputs. What holds in the beginning and is kept by every move holds always
(`Outset.induction`).
-/

namespace Rowflow

namespace Usage

/-! ### Beginnings -/

/-- The row that an operation writes. -/
def Operation.written? : Operation → Option Entry
  | write e => some e
  | writeTo _ e => some e
  | _ => none

/-- Whether an operation diverts a row. -/
def Operation.diverts : Operation → Bool
  | divert .. | redirect .. => true
  | _ => false

theorem Operation.written?_eq_none {op : Operation} (h : op.diverts = true) : op.written? = none := by
  cases op with
  | write => cases h
  | writeTo => cases h
  | _ => rfl

/-- What the beginning of a call leaves alone in the context. -/
structure Keeps (c c' : Context) : Prop where
  spec : c'.spec = c.spec
  inputs : c'.inputs = c.inputs
  nextInput : c'.nextInput = c.nextInput
  outputs : c'.outputs = c.outputs
  listeners : c'.listeners = c.listeners
  counters : c'.counters = c.counters
  route : c'.errors.map (·.rowSet) = c.errors.map (·.rowSet)

/-- What the beginning of a call leaves alone in the common state. -/
structure Quiet (s s' : Shared) : Prop where
  rowSets : s'.rowSets = s.rowSets
  stopped : s'.stopped = s.stopped
  collectors : s'.collectors = s.collectors

theorem Keeps.refl (c : Context) : Keeps c c := ⟨rfl, rfl, rfl, rfl, rfl, rfl, rfl⟩

theorem Quiet.refl (s : Shared) : Quiet s s := ⟨rfl, rfl, rfl⟩

/-- Why an operation is refused at once. -/
inductive Declines (outputs : List (String × Nat)) : Operation → TransformError → Prop where
  | misfit {op : Operation} {e : Entry} (writes : op.written? = some e)
      (misfit : e.row.size ≠ e.layout.size) :
      Declines outputs op (.layoutMismatch e.row.size e.layout.size)
  | unknown {target : String} {e : Entry} (fits : e.row.size = e.layout.size)
      (unknown : outputs.find? (·.1 = target) = none) :
      Declines outputs (.writeTo target e) (.unknownTarget target)
  | undiverted {op : Operation} {err : TransformError} (diverts : op.diverts = true) :
      Declines outputs op err

/-- The delivery that an operation begins with, and the output whose turn it is afterwards. -/
inductive Begins (c : Context) : Operation → Nat → Context.Delivery → Prop where
  | copies {e : Entry} (fits : e.row.size = e.layout.size) (movement : c.spec.movement = .copy) :
      Begins c (.write e) c.nextOutput ⟨e, c.outputs.map (·.2), .output⟩
  | deals {e : Entry} {target : String} {i : Nat} (fits : e.row.size = e.layout.size)
      (movement : c.spec.movement = .distribute)
      (turn : c.outputs[c.nextOutput % c.outputs.length]? = some (target, i)) :
      Begins c (.write e) (c.nextOutput % c.outputs.length + 1) ⟨e, [i], .output⟩
  | discards {e : Entry} (fits : e.row.size = e.layout.size)
      (movement : c.spec.movement = .distribute)
      (turn : c.outputs[c.nextOutput % c.outputs.length]? = none) :
      Begins c (.write e) c.nextOutput ⟨e, [], .output⟩
  | aims {target target' : String} {e : Entry} {i : Nat} (fits : e.row.size = e.layout.size)
      (output : c.outputs.find? (·.1 = target) = some (target', i)) :
      Begins c (.writeTo target e) c.nextOutput ⟨e, [i], .output⟩
  | diverts {op : Operation} {e : Entry} {why : Diagnosis} {i : Nat} (diverts : op.diverts = true)
      (route : c.errors.map (·.rowSet) = some i) :
      Begins c op c.nextOutput ⟨e, [i], .error why⟩

/-! ### Steps of calls -/

/-- An entry that has been written is settled with an answer. -/
def Settles (s : Shared) (c : Context) (d : Context.Delivery) (s' : Shared) (c' : Context)
    (reply : Reply) : Prop :=
  (c.settle s d = (s', c', none) ∧ reply = .ok) ∨
    ∃ p, c.settle s d = (s', c', some p) ∧ reply = .broken p

theorem Settles.frame {s s' : Shared} {c c' : Context} {d : Context.Delivery} {reply : Reply}
    (h : Settles s c d s' c' reply) :
    s'.rowSets = s.rowSets ∧ s'.stopped = s.stopped ∧ ∃ counters, c' = { c with counters } := by
  obtain ⟨s'', counters, hs, ⟨heq, -⟩ | ⟨p, heq, -⟩⟩ := Context.settle_cases c s d <;>
    rcases h with ⟨h, -⟩ | ⟨p', h, -⟩ <;> rw [heq] at h <;> cases h <;>
    exact ⟨hs.rowSets, hs.stopped, counters, rfl⟩

theorem tell_frame {s s' : Shared} {ls : List Listener} {kind : RowEvent} {e : Entry}
    {p : Option Panic} (told : s.tell ls kind e = (s', p)) :
    s'.rowSets = s.rowSets ∧ s'.stopped = s.stopped := by
  have hs := s.same_tell ls kind e
  rw [told] at hs
  exact ⟨hs.rowSets, hs.stopped⟩

/-- Whether the next step of a read looks at an input. -/
def Looks (c : Context) : ReadStage → Prop
  | .check => False
  | .sweep left => left ≠ 0 ∧ c.inputs ≠ []
  | .wait _ => True

/-- What a step of a call can do, with what is written down for it. -/
inductive Steps (s : Shared) (c : Context) (live : List Nat) (op : Operation) :
    Stage → Option Act → Shared → Context → Outcome → Prop where
  | reads (read : op = .read) : Steps s c live op .called none s c (.goesOn (.reading .check))
  | declines (err : TransformError) (s' : Shared) (c' : Context) (quiet : Quiet s s')
      (keeps : Keeps c c') (rotation : c'.nextOutput = c.nextOutput) (why : Declines c.outputs op err) :
      Steps s c live op .called none s' c' (.returns (.error err))
  | fails (c' : Context) (keeps : Keeps c c') (rotation : c'.nextOutput = c.nextOutput)
      (diverts : op.diverts = true) :
      Steps s c live op .called none s c' (.returns (.broken .overflow))
  | begins (d : Context.Delivery) (s' : Shared) (c' : Context) (quiet : Quiet s s')
      (keeps : Keeps c c') (how : Begins c op c'.nextOutput d) :
      Steps s c live op .called none s' c' (.goesOn (.writing d))
  | sweeps (runs : s.stopped = false) :
      Steps s c live op (.reading .check) none s c (.goesOn (.reading (.sweep c.inputs.length)))
  | awaits (deadline : Nat) (inputs : c.inputs ≠ []) :
      Steps s c live op (.reading (.sweep 0)) none s c (.goesOn (.reading (.wait deadline)))
  | waits (deadline : Nat) (inputs : c.inputs ≠ []) :
      Steps s c live op (.reading (.wait deadline)) none s c (.goesOn (.reading (.wait deadline)))
  | dries (stage : ReadStage) (why : s.stopped = true ∨ c.inputs = []) :
      Steps s c live op (.reading stage) none s { c with currentRow := none } (.returns .noRow)
  | ended (stage stage' : ReadStage) (looks : Looks c stage) (place i : Nat) (here : live[c.turn]? = some place)
      (input : c.inputs[c.turn]? = some i) (found : s.front i = .done)
      (polls : ∀ t, stage' ≠ .wait t) :
      Steps s c live op (.reading stage) (some (.polled place .done)) s
        { c with inputs := c.inputs.eraseIdx c.turn, nextInput := c.turn }
        (.goesOn (.reading stage'))
  | empty (stage stage' : ReadStage) (looks : Looks c stage) (place i : Nat) (here : live[c.turn]? = some place)
      (input : c.inputs[c.turn]? = some i) (found : s.front i = .empty)
      (polls : ∀ t, stage' ≠ .wait t) :
      Steps s c live op (.reading stage) (some (.polled place .empty)) s
        { c with nextInput := c.turn + 1 } (.goesOn (.reading stage'))
  | row (stage : ReadStage) (looks : Looks c stage) (place i : Nat) (e : Entry) (s' : Shared)
      (here : live[c.turn]? = some place) (input : c.inputs[c.turn]? = some i)
      (found : s.front i = .row e) (told : (s.advance i).tell c.listeners .read e = (s', none)) :
      Steps s c live op (.reading stage) (some (.polled place (.row e))) s'
        { c with
          nextInput := c.turn + 1
          counters := { c.counters with read := c.counters.read + 1 }
          currentRow := if c.diverts then some e.row else c.currentRow
          inputLayout := some e.layout } (.returns (.row e))
  | broken (stage : ReadStage) (looks : Looks c stage) (place i : Nat) (e : Entry) (s' : Shared)
      (p : Panic)
      (here : live[c.turn]? = some place) (input : c.inputs[c.turn]? = some i)
      (found : s.front i = .row e) (told : (s.advance i).tell c.listeners .read e = (s', some p)) :
      Steps s c live op (.reading stage) (some (.polled place (.row e))) s'
        { c with
          nextInput := c.turn + 1
          counters := { c.counters with read := c.counters.read + 1 } } (.returns (.broken p))
  | full (d : Context.Delivery) (i : Nat) (rest : List Nat) (pending : d.pending = i :: rest)
      (found : s.admission i = .full) :
      Steps s c live op (.writing d) (some (.offered i d.entry .full)) s c (.goesOn (.writing d))
  | refused (d : Context.Delivery) (i : Nat) (rest : List Nat) (err : RowSetError)
      (found : RowSet.Admission) (pending : d.pending = i :: rest) (away : found ≠ .room) :
      Steps s c live op (.writing d) (some (.offered i d.entry found)) s c
        (.returns (.error (d.purpose.failure err)))
  | partly (d : Context.Delivery) (i j : Nat) (rest : List Nat) (pending : d.pending = i :: j :: rest)
      (found : s.admission i = .room) :
      Steps s c live op (.writing d) (some (.offered i d.entry .room)) (s.accept i d.entry) c
        (.goesOn (.writing { d with pending := j :: rest }))
  | last (d : Context.Delivery) (i : Nat) (s' : Shared) (c' : Context) (reply : Reply)
      (pending : d.pending = [i]) (found : s.admission i = .room)
      (settles : Settles (s.accept i d.entry) c d s' c' reply) :
      Steps s c live op (.writing d) (some (.offered i d.entry .room)) s' c' (.returns reply)
  | nowhere (d : Context.Delivery) (s' : Shared) (c' : Context) (reply : Reply)
      (pending : d.pending = []) (settles : Settles s c d s' c' reply) :
      Steps s c live op (.writing d) none s' c' (.returns reply)

variable {s : Shared} {c : Context} {live : List Nat} {op : Operation}

/-- A diversion is refused, or its count breaks down, or it begins with the row set for failing
rows. -/
theorem steps_divert {e : Entry} {why : Diagnosis} (hop : op.diverts = true) {c₀ : Context}
    (hkeeps : Keeps c₀ c) (hrotation : c.nextOutput = c₀.nextOutput) :
    Steps s c₀ live op .called none
      (Activity.step (α := Reply) ⟨s, c, ()⟩
        (.run (.divert e why fun r => .finish (.ofWrite r)))).1.shared
      (Activity.step (α := Reply) ⟨s, c, ()⟩
        (.run (.divert e why fun r => .finish (.ofWrite r)))).1.context
      (.ofActivity (Activity.step ⟨s, c, ()⟩
        (.run (.divert e why fun r => .finish (.ofWrite r)))).2) := by
  have hsayAll : ∀ ms, Quiet s (s.sayAll ms) := by
    intro ms
    unfold Shared.sayAll
    induction ms generalizing s with
    | nil => exact .refl s
    | cons m ms ih =>
      obtain ⟨h1, h2, h3⟩ := @ih (s.say m)
      exact ⟨h1, h2, h3⟩
  simp only [Activity.step, Activity.stepPlan]
  rcases Context.startDivert_cases c s e why with ⟨-, h⟩ | ⟨route, maximum, next, -, -, h⟩ |
    ⟨route, -, -, h⟩ | ⟨route, count, hroute, -, h⟩ <;> rw [h]
  · exact .declines _ s c (.refl s) hkeeps hrotation (.undiverted hop)
  · exact .declines _ _ c (hsayAll _) hkeeps hrotation (.undiverted hop)
  · exact .fails c hkeeps hrotation hop
  · refine .begins _ _ _ ⟨rfl, rfl, rfl⟩ ⟨hkeeps.spec, hkeeps.inputs, hkeeps.nextInput,
      hkeeps.outputs, hkeeps.listeners, hkeeps.counters, ?_⟩ ?_
    · rw [← hkeeps.route, hroute]
      rfl
    · show Begins c₀ op c.nextOutput _
      rw [hrotation]
      refine .diverts hop ?_
      rw [← hkeeps.route, hroute]
      rfl

theorem steps_called :
    Steps s c live op .called none (Stage.called.step s c op).1.shared
      (Stage.called.step s c op).1.context (.ofActivity (Stage.called.step s c op).2) := by
  cases op with
  | read => exact .reads rfl
  | write e =>
    simp only [Stage.step, Operation.begin, Activity.step, Activity.stepPlan]
    rcases Context.startWrite_cases c e with ⟨hsize, h⟩ | ⟨hsize, ⟨hm, h⟩ | ⟨hm, ht, h⟩ |
      ⟨t, i, hm, ht, h⟩⟩ <;> rw [h]
    · exact .declines _ s c (.refl s) (.refl c) rfl (.misfit rfl hsize)
    · exact .begins _ s c (.refl s) (.refl c) (.copies hsize hm)
    · exact .begins _ s c (.refl s) (.refl c) (.discards hsize hm ht)
    · exact .begins _ s _ (.refl s) ⟨rfl, rfl, rfl, rfl, rfl, rfl, rfl⟩ (.deals hsize hm ht)
  | writeTo target e =>
    simp only [Stage.step, Operation.begin, Activity.step, Activity.stepPlan]
    rcases Context.startWriteTo_cases c target e with ⟨hsize, h⟩ | ⟨hsize, ⟨hf, h⟩ | ⟨t, i, hf, h⟩⟩ <;>
      rw [h]
    · exact .declines _ s c (.refl s) (.refl c) rfl (.misfit rfl hsize)
    · exact .declines _ s c (.refl s) (.refl c) rfl (.unknown hsize hf)
    · exact .begins _ s c (.refl s) (.refl c) (.aims hsize hf)
  | divert e why => exact steps_divert rfl (.refl c) rfl
  | redirect message fields codes =>
    have hkeeps : Keeps c { c with currentRow := none } := ⟨rfl, rfl, rfl, rfl, rfl, rfl, rfl⟩
    simp only [Stage.step, Operation.begin]
    rcases c.atHand with _ | e
    · exact .declines _ s _ (.refl s) hkeeps rfl (.undiverted rfl)
    · exact steps_divert rfl hkeeps rfl

/-- A poll of an input takes a row, or finds that there is none, or that there will be none. -/
theorem poll_found (hlive : live.length = c.inputs.length) (hinputs : c.inputs ≠ []) :
    ∃ place i, live[c.turn]? = some place ∧ c.inputs[c.turn]? = some i ∧
      ((s.front i = .done ∧ c.poll s =
          (s, { c with inputs := c.inputs.eraseIdx c.turn, nextInput := c.turn }, .ended)) ∨
       (s.front i = .empty ∧ c.poll s = (s, { c with nextInput := c.turn + 1 }, .empty)) ∨
       ∃ e, s.front i = .row e ∧ c.poll s = ({ c with nextInput := c.turn + 1 } : Context).takeOver
         (s.advance i) e) := by
  have hlt : c.turn < c.inputs.length := Nat.mod_lt _ (List.length_pos_of_ne_nil hinputs)
  rcases Context.poll_cases c s with ⟨hnone, -⟩ | ⟨i, hi, h⟩
  · rw [List.getElem?_eq_getElem hlt] at hnone
    cases hnone
  · exact ⟨live[c.turn], i, List.getElem?_eq_getElem (hlive ▸ hlt), hi, h⟩

theorem takeOver_told (c : Context) (s : Shared) (e : Entry) :
    (∃ s' p, s.tell c.listeners .read e = (s', some p) ∧ c.takeOver s e =
      (s', { c with counters := { c.counters with read := c.counters.read + 1 } }, .broken p)) ∨
    ∃ s', s.tell c.listeners .read e = (s', none) ∧ c.takeOver s e =
      (s', { c with
        counters := { c.counters with read := c.counters.read + 1 }
        currentRow := if c.diverts then some e.row else c.currentRow
        inputLayout := some e.layout }, .row e) := by
  unfold Context.takeOver
  rcases ht : s.tell c.listeners .read e with ⟨s', _ | p⟩
  · refine Or.inr ⟨s', rfl, ?_⟩
    simp only [ht]
    rfl
  · refine Or.inl ⟨s', p, rfl, ?_⟩
    simp only [ht]

theorem steps_reading (hlive : live.length = c.inputs.length) {stage : ReadStage}
    (hwait : ∀ t, stage = .wait t → c.inputs ≠ []) :
    Steps s c live op (.reading stage) ((Stage.reading stage).act? s c live)
      ((Stage.reading stage).step s c op).1.shared ((Stage.reading stage).step s c op).1.context
      (.ofActivity ((Stage.reading stage).step s c op).2) := by
  cases stage with
  | check =>
    simp only [Stage.step, Activity.step, Activity.stepRead]
    by_cases hs : s.stopped = true
    · rw [if_pos hs]
      exact .dries _ (Or.inl hs)
    · rw [if_neg hs]
      exact .sweeps (Bool.not_eq_true _ ▸ hs)
  | sweep left =>
    simp only [Stage.step, Activity.step, Activity.stepRead]
    by_cases he : c.inputs.isEmpty = true
    · have hnil : c.inputs = [] := List.isEmpty_iff.mp he
      have hact : (Stage.reading (.sweep left)).act? s c live = none := by
        cases left <;> simp [Stage.act?, polled?, hnil]
      rw [if_pos he, hact]
      exact .dries _ (Or.inr hnil)
    · have hne : c.inputs ≠ [] := fun h => he (List.isEmpty_iff.mpr h)
      rw [if_neg he]
      cases left with
      | zero => exact .awaits _ hne
      | succ left =>
        have hlooks : Looks c (.sweep (left + 1)) := ⟨Nat.succ_ne_zero _, hne⟩
        obtain ⟨place, i, hp, hi, h⟩ := poll_found (s := s) hlive hne
        have hact : (Stage.reading (.sweep (left + 1))).act? s c live =
            some (.polled place (s.front i)) := by
          simp [Stage.act?, polled?, hp, hi]
        rw [hact]
        rcases h with ⟨hf, h⟩ | ⟨hf, h⟩ | ⟨e, hf, h⟩ <;> simp only [h, hf]
        · exact .ended _ _ hlooks place i hp hi hf fun t ht => by cases ht
        · exact .empty _ _ hlooks place i hp hi hf fun t ht => by cases ht
        · rcases takeOver_told { c with nextInput := c.turn + 1 } (s.advance i) e with
            ⟨s', p, ht, h'⟩ | ⟨s', ht, h'⟩ <;> simp only [h']
          · exact .broken _ hlooks place i e s' p hp hi hf ht
          · exact .row _ hlooks place i e s' hp hi hf ht
  | wait deadline =>
    simp only [Stage.step, Activity.step, Activity.stepRead]
    have hne := hwait deadline rfl
    have hlooks : Looks c (.wait deadline) := trivial
    obtain ⟨place, i, hp, hi, h⟩ := poll_found (s := s) hlive hne
    have hact : (Stage.reading (.wait deadline)).act? s c live =
        if s.front i ≠ .empty ∨ deadline ≤ s.clock then some (.polled place (s.front i)) else none := by
      simp only [Stage.act?, polled?, hp, hi, Option.map_some, Option.filter_some]
      by_cases h1 : s.front i = .empty <;> by_cases h2 : deadline ≤ s.clock <;> simp [h1, h2]
    rw [hact]
    rcases h with ⟨hf, h⟩ | ⟨hf, h⟩ | ⟨e, hf, h⟩ <;> simp only [h, hf]
    · exact .ended _ _ hlooks place i hp hi hf fun t ht => by cases ht
    · by_cases hd : deadline ≤ s.clock
      · simp only [hd, or_true, if_true]
        exact .empty _ _ hlooks place i hp hi hf fun t ht => by cases ht
      · simp only [hd, ne_eq, not_true_eq_false, or_false, if_false]
        exact .waits _ hne
    · rcases takeOver_told { c with nextInput := c.turn + 1 } (s.advance i) e with
        ⟨s', p, ht, h'⟩ | ⟨s', ht, h'⟩ <;> simp only [h']
      · exact .broken _ hlooks place i e s' p hp hi hf ht
      · exact .row _ hlooks place i e s' hp hi hf ht

theorem steps_writing (d : Context.Delivery) :
    Steps s c live op (.writing d) ((Stage.writing d).act? s c live)
      ((Stage.writing d).step s c op).1.shared ((Stage.writing d).step s c op).1.context
      (.ofActivity ((Stage.writing d).step s c op).2) := by
  have hsettle : ∀ s', ∃ s'' c' reply, Settles s' c d s'' c' reply := by
    intro s'
    rcases hset : c.settle s' d with ⟨s'', c', _ | p⟩
    · exact ⟨s'', c', .ok, Or.inl ⟨hset, rfl⟩⟩
    · exact ⟨s'', c', .broken p, Or.inr ⟨p, hset, rfl⟩⟩
  simp only [Stage.step, Activity.step, Context.deliver, Stage.act?]
  rcases hp : d.pending with _ | ⟨i, rest⟩
  · obtain ⟨s', c', reply, hs⟩ := hsettle s
    rcases id hs with ⟨h, rfl⟩ | ⟨p, h, rfl⟩ <;> simp only [h]
    · exact .nowhere d s' c' _ hp hs
    · exact .nowhere d s' c' _ hp hs
  · rcases ha : s.admission i with _ | _ | _ | _
    · rcases rest with _ | ⟨j, rest⟩
      · obtain ⟨s', c', reply, hs⟩ := hsettle (s.accept i d.entry)
        rcases id hs with ⟨h, rfl⟩ | ⟨p, h, rfl⟩ <;>
          simp only [List.isEmpty_nil, if_true, h, List.head?_cons, Option.map_some, ha]
        · exact .last d i s' c' _ hp ha hs
        · exact .last d i s' c' _ hp ha hs
      · simp only [List.isEmpty_cons, Bool.false_eq_true, if_false, List.head?_cons,
          Option.map_some, ha]
        exact .partly d i j rest hp ha
    · simp only [List.head?_cons, Option.map_some, ha]
      exact .refused d i rest _ _ hp (fun h => by cases h)
    · simp only [List.head?_cons, Option.map_some, ha]
      exact .refused d i rest _ _ hp (fun h => by cases h)
    · simp only [List.head?_cons, Option.map_some, ha]
      exact .full d i rest hp ha

/-- **A step of a call.** -/
theorem steps (stage : Stage) (hlive : live.length = c.inputs.length)
    (hwait : ∀ t, stage = .reading (.wait t) → c.inputs ≠ []) :
    Steps s c live op stage (stage.act? s c live) (stage.step s c op).1.shared
      (stage.step s c op).1.context (.ofActivity (stage.step s c op).2) := by
  cases stage with
  | called => exact steps_called
  | reading stage => exact steps_reading hlive fun t ht => hwait t (congrArg _ ht)
  | writing d => exact steps_writing d

/-! ### What steps leave alone -/

/-- A stage that a call of an operation can come to. -/
def Stage.Suits (op : Operation) : Stage → Prop
  | .called => True
  | .reading _ => op = .read
  | .writing d =>
    (op.written? = some d.entry ∧ d.entry.row.size = d.entry.layout.size ∧ d.purpose = .output) ∨
      op.diverts = true ∧ (∃ why, d.purpose = .error why) ∧ d.pending ≠ []

section Frame

variable {stage : Stage} {act : Option Act} {s' : Shared} {c' : Context} {outcome : Outcome}
  (h : Steps s c live op stage act s' c' outcome)
include h

theorem Steps.fixed : c'.spec = c.spec ∧ c'.outputs = c.outputs ∧ c'.listeners = c.listeners ∧
    c'.errors.map (·.rowSet) = c.errors.map (·.rowSet) := by
  cases h with
  | declines _ _ _ _ keeps => exact ⟨keeps.spec, keeps.outputs, keeps.listeners, keeps.route⟩
  | fails _ keeps => exact ⟨keeps.spec, keeps.outputs, keeps.listeners, keeps.route⟩
  | begins _ _ _ _ keeps => exact ⟨keeps.spec, keeps.outputs, keeps.listeners, keeps.route⟩
  | last _ _ _ _ _ _ _ settles =>
    obtain ⟨-, -, counters, rfl⟩ := settles.frame
    exact ⟨rfl, rfl, rfl, rfl⟩
  | nowhere _ _ _ _ _ settles =>
    obtain ⟨-, -, counters, rfl⟩ := settles.frame
    exact ⟨rfl, rfl, rfl, rfl⟩
  | _ => exact ⟨rfl, rfl, rfl, rfl⟩

/-- An input leaves the list when it is found done, and only then. -/
theorem Steps.inputs :
    (∃ place, act = some (.polled place .done) ∧ c'.inputs = c.inputs.eraseIdx c.turn) ∨
      (∀ place, act ≠ some (.polled place .done)) ∧ c'.inputs = c.inputs := by
  cases h with
  | declines _ _ _ _ keeps => exact Or.inr ⟨fun _ => (by rintro ⟨⟩), keeps.inputs⟩
  | fails _ keeps => exact Or.inr ⟨fun _ => (by rintro ⟨⟩), keeps.inputs⟩
  | begins _ _ _ _ keeps => exact Or.inr ⟨fun _ => (by rintro ⟨⟩), keeps.inputs⟩
  | last _ _ _ _ _ _ _ settles =>
    obtain ⟨-, -, counters, rfl⟩ := settles.frame
    exact Or.inr ⟨fun _ => (by rintro ⟨⟩), rfl⟩
  | nowhere _ _ _ _ _ settles =>
    obtain ⟨-, -, counters, rfl⟩ := settles.frame
    exact Or.inr ⟨fun _ => (by rintro ⟨⟩), rfl⟩
  | ended _ _ _ place => exact Or.inl ⟨place, rfl, rfl⟩
  | _ => exact Or.inr ⟨fun _ => (by rintro ⟨⟩), rfl⟩

theorem Steps.inputs_nil (hnil : c.inputs = []) : c'.inputs = [] := by
  rcases h.inputs with ⟨-, -, hi⟩ | ⟨-, hi⟩ <;> rw [hi, hnil]
  rfl

theorem Steps.inputs_ne {t : Nat} (ht : outcome = .goesOn (.reading (.wait t))) : c'.inputs ≠ [] := by
  cases h with
  | awaits _ inputs => exact inputs
  | waits _ inputs => exact inputs
  | ended _ _ _ _ _ _ _ _ polls =>
    cases ht
    exact absurd rfl (polls t)
  | empty _ _ _ _ _ _ _ _ polls =>
    cases ht
    exact absurd rfl (polls t)
  | _ => cases ht

theorem Steps.suits (hstage : stage.Suits op) {stage' : Stage} (ht : outcome = .goesOn stage') :
    stage'.Suits op := by
  cases h with
  | reads read =>
    cases ht
    exact read
  | begins d _ _ _ _ how =>
    cases ht
    generalize c'.nextOutput = rotation at how
    cases how with
    | copies fits => exact Or.inl ⟨rfl, fits, rfl⟩
    | deals fits => exact Or.inl ⟨rfl, fits, rfl⟩
    | discards fits => exact Or.inl ⟨rfl, fits, rfl⟩
    | aims fits => exact Or.inl ⟨rfl, fits, rfl⟩
    | diverts diverts => exact Or.inr ⟨diverts, ⟨_, rfl⟩, List.cons_ne_nil _ _⟩
  | sweeps =>
    cases ht
    exact hstage
  | awaits =>
    cases ht
    exact hstage
  | waits =>
    cases ht
    exact hstage
  | ended =>
    cases ht
    exact hstage
  | empty =>
    cases ht
    exact hstage
  | full =>
    cases ht
    exact hstage
  | partly =>
    cases ht
    exact hstage.imp_right fun h => ⟨h.1, h.2.1, List.cons_ne_nil _ _⟩
  | _ => cases ht

theorem Steps.here {place : Nat} {found : RowSet.Front} (ht : act = some (.polled place found)) :
    live[c.turn]? = some place ∧ ∃ i, c.inputs[c.turn]? = some i ∧ s.front i = found := by
  cases h with
  | ended _ _ _ _ i here input found =>
    cases ht
    exact ⟨here, i, input, found⟩
  | empty _ _ _ _ i here input found =>
    cases ht
    exact ⟨here, i, input, found⟩
  | row _ _ _ i _ _ here input found =>
    cases ht
    exact ⟨here, i, input, found⟩
  | broken _ _ _ i _ _ _ here input found =>
    cases ht
    exact ⟨here, i, input, found⟩
  | _ => cases ht

end Frame

/-! ### Moves -/

/-- What an event can do. -/
inductive Moves (u : Usage) : Event → Usage → Prop where
  | idle (event : Event) (own : ∀ doing, event ≠ .others doing)
      (free : event = .step → u.now = none) : Moves u event u
  | others (doing : Doing) : Moves u (.others doing) { u with shared := doing.act u.shared }
  | forgets (free : u.now = none) :
      Moves u .forget { u with context := { u.context with currentRow := none } }
  | calls (op : Operation) (free : u.now = none) :
      Moves u (.call op) { u with now := some ({ op, before := u.standing }, .called) }
  | steps (call : Call) (stage : Stage) (act : Option Act) (s' : Shared) (c' : Context)
      (outcome : Outcome) (busy : u.now = some (call, stage))
      (step : Steps u.shared u.context u.live call.op stage act s' c' outcome) :
      Moves u .step (u.proceed call act s' c' outcome)

/-- What holds of a context in use at any time. -/
structure Sound (x : Outset) (u : Usage) : Prop where
  wired : u.wired = x.wiring.inputs
  spec : u.context.spec = x.spec
  outputs : u.context.outputs = x.wiring.outputs
  listeners : u.context.listeners = x.listeners
  route : u.context.errors.map (·.rowSet) = x.usage.context.errors.map (·.rowSet)
  /-- The inputs in the list are those that have not been found done. -/
  inputs : u.live.map (u.wired[·]?) = u.context.inputs.map some
  waits : ∀ call t, u.now = some (call, .reading (.wait t)) → u.context.inputs ≠ []
  suits : ∀ call stage, u.now = some (call, stage) → stage.Suits call.op

theorem filterMap_concat {α β : Type} (f : α → Option β) (l : List α) (a : Option α) :
    (l ++ a.toList).filterMap f = l.filterMap f ++ (a.bind f).toList := by
  rw [List.filterMap_append]
  rcases a with _ | a
  · rfl
  · cases hf : f a <;> simp [hf]

section Notes

variable {u : Usage} {call : Call} {stage : Stage} {act : Option Act} {s' : Shared} {c' : Context}
  {outcome : Outcome}

theorem calls_proceed : (u.proceed call act s' c' outcome).calls =
    u.past.map (·.toCall) ++ [{ call with acts := call.acts ++ act.toList }] := by
  cases outcome <;> simp [calls, proceed]

theorem calls_busy (h : u.now = some (call, stage)) : u.calls = u.past.map (·.toCall) ++ [call] := by
  simp [calls, h]

theorem acts_proceed (h : u.now = some (call, stage)) :
    (u.proceed call act s' c' outcome).acts = u.acts ++ act.toList := by
  simp [acts, calls_proceed, calls_busy h]

theorem polls_proceed (h : u.now = some (call, stage)) :
    (u.proceed call act s' c' outcome).polls = u.polls ++ (act.bind Act.poll?).toList := by
  unfold polls
  rw [acts_proceed h, filterMap_concat]

theorem mem_polls {place : Nat} {found : RowSet.Front} :
    (place, found) ∈ u.polls ↔ .polled place found ∈ u.acts := by
  unfold polls
  rw [List.mem_filterMap]
  constructor
  · rintro ⟨a, ha, hpoll⟩
    cases a with
    | polled place found =>
      cases hpoll
      exact ha
    | offered => cases hpoll
  · exact fun h => ⟨_, h, rfl⟩

theorem polls_call (op : Operation) (standing : Standing) (h : u.now = none) :
    ({ u with now := some ({ op, before := standing }, .called) } : Usage).polls = u.polls := by
  simp [polls, acts, calls, h]

theorem wired_proceed : (u.proceed call act s' c' outcome).wired = u.wired := by
  cases outcome <;> rfl

theorem shared_proceed : (u.proceed call act s' c' outcome).shared = s' := by
  cases outcome <;> rfl

theorem context_proceed : (u.proceed call act s' c' outcome).context = c' := by
  cases outcome <;> rfl

theorem now_proceed {call' : Call} {stage' : Stage}
    (h : (u.proceed call act s' c' outcome).now = some (call', stage')) :
    outcome = .goesOn stage' ∧ call' = { call with acts := call.acts ++ act.toList } := by
  cases outcome with
  | goesOn stage =>
    cases h
    exact ⟨rfl, rfl⟩
  | returns reply => cases h

end Notes

theorem forall_split_concat {α : Type} {P : List α → α → Prop} {l : List α} {r : α} :
    (∀ before a after, l ++ [r] = before ++ a :: after → P before a) ↔
      (∀ before a after, l = before ++ a :: after → P before a) ∧ P l r := by
  refine ⟨fun h => ⟨fun before a after hl => h before a (after ++ [r]) (by simp [hl]), h l r [] rfl⟩,
    fun ⟨hl, hr⟩ before a after heq => ?_⟩
  rcases List.eq_nil_or_concat after with rfl | ⟨after, b, rfl⟩
  · obtain ⟨rfl, h⟩ := List.append_inj' heq rfl
    cases h
    exact hr
  · have : l ++ [r] = (before ++ a :: after) ++ [b] := by simpa using heq
    exact hl before a after (List.append_inj' this rfl).1

/-! ### The inputs in the list -/

theorem nodup_live (u : Usage) : u.live.Nodup := List.nodup_range.filter _

theorem left_concat (n : Nat) (polls : List (Nat × RowSet.Front)) (p : Nat) (found : RowSet.Front) :
    left n (polls ++ [(p, found)]) =
      if found = .done then (left n polls).filter (· ≠ p) else left n polls := by
  unfold left
  by_cases hf : found = .done
  · subst hf
    rw [if_pos rfl, List.filter_filter]
    refine List.filter_congr fun q _ => ?_
    simp [and_comm]
  · rw [if_neg hf]
    refine List.filter_congr fun q _ => ?_
    simp [Ne.symm hf]

theorem filter_ne_eq_eraseIdx {l : List Nat} (hl : l.Nodup) {k p : Nat} (h : l[k]? = some p) :
    l.filter (· ≠ p) = l.eraseIdx k := by
  obtain ⟨hk, rfl⟩ := List.getElem?_eq_some_iff.mp h
  rw [← hl.erase_getElem k hk, hl.erase_eq_filter]
  refine List.filter_congr fun q _ => ?_
  rw [Bool.eq_iff_iff]
  simp

variable {x : Outset} {u u' : Usage}

theorem Sound.input (h : Sound x u) {k place i : Nat} (hplace : u.live[k]? = some place)
    (hi : u.context.inputs[k]? = some i) : u.wired[place]? = some i := by
  have := congrArg (·[k]?) h.inputs
  simpa [hplace, hi] using this

theorem Sound.length_live (h : Sound x u) : u.live.length = u.context.inputs.length := by
  simpa using congrArg List.length h.inputs

section Live

variable {call : Call} {stage : Stage} {act : Option Act} {s' : Shared} {c' : Context}
  {outcome : Outcome} (h : u.now = some (call, stage))
include h

theorem live_done {place : Nat} (hact : act = some (.polled place .done)) :
    (u.proceed call act s' c' outcome).live = u.live.filter (· ≠ place) := by
  unfold live
  rw [polls_proceed h, wired_proceed, hact]
  simp [Act.poll?, left_concat]

theorem live_same (hact : ∀ place, act ≠ some (.polled place .done)) :
    (u.proceed call act s' c' outcome).live = u.live := by
  unfold live
  rw [polls_proceed h, wired_proceed]
  rcases act with _ | ⟨place, found⟩ | _
  · simp
  · have hfound : found ≠ .done := fun hf => hact place (by rw [hf])
    simp [Act.poll?, left_concat, hfound]
  · simp [Act.poll?]

end Live

theorem sound_begin (x : Outset) : Sound x x.usage := by
  have hfree : x.usage.now = none := rfl
  refine ⟨rfl, rfl, rfl, rfl, rfl, ?_, fun _ _ h => (by cases hfree.symm.trans h),
    fun _ _ h => (by cases hfree.symm.trans h)⟩
  have hlive : x.usage.live = List.range x.wiring.inputs.length := by
    simp [live, left, polls, acts, calls, Outset.usage]
  rw [hlive]
  refine List.ext_getElem? fun k => ?_
  rcases Nat.lt_or_ge k x.wiring.inputs.length with hk | hk
  · simp [Outset.usage, Context.new, hk]
  · simp [Outset.usage, Context.new, hk]

theorem Sound.move (h : Sound x u) {event : Event} (hmove : u.Moves event u') : Sound x u' := by
  cases hmove with
  | idle => exact h
  | others => exact ⟨h.wired, h.spec, h.outputs, h.listeners, h.route, h.inputs, h.waits, h.suits⟩
  | forgets => exact ⟨h.wired, h.spec, h.outputs, h.listeners, h.route, h.inputs, h.waits, h.suits⟩
  | calls op free =>
    refine ⟨h.wired, h.spec, h.outputs, h.listeners, h.route, ?_, ?_, ?_⟩
    · have hlive : ({ u with now := some ({ op, before := u.standing }, .called) } : Usage).live =
          u.live := by
        unfold live
        rw [polls_call op _ free]
      rw [hlive]
      exact h.inputs
    · rintro call t ⟨⟩
    · rintro call stage ⟨⟩
      trivial
  | steps call stage act s' c' outcome busy step =>
    obtain ⟨h1, h2, h3, h4⟩ := step.fixed
    refine ⟨wired_proceed.trans h.wired, ?_, ?_, ?_, ?_, ?_, fun call' t hnow => ?_,
      fun call' stage' hnow => ?_⟩
    · rw [context_proceed, h1, h.spec]
    · rw [context_proceed, h2, h.outputs]
    · rw [context_proceed, h3, h.listeners]
    · rw [context_proceed, h4, h.route]
    · rw [wired_proceed, context_proceed]
      rcases step.inputs with ⟨place, hact, hinputs⟩ | ⟨hact, hinputs⟩
      · rw [live_done busy hact, hinputs, filter_ne_eq_eraseIdx u.nodup_live (step.here hact).1,
          ← List.eraseIdx_map, ← List.eraseIdx_map, ← h.inputs]
      · rw [live_same busy hact, hinputs, h.inputs]
    · rw [context_proceed]
      exact step.inputs_ne (now_proceed hnow).1
    · obtain ⟨hout, rfl⟩ := now_proceed hnow
      exact step.suits (h.suits call stage busy) hout

theorem Moves.polls {event : Event} (hmove : u.Moves event u') : u'.polls = u.polls ∨
    ∃ place i, u.live[u.context.turn]? = some place ∧
      u.context.inputs[u.context.turn]? = some i ∧
      u'.polls = u.polls ++ [(place, u.shared.front i)] := by
  cases hmove with
  | idle => exact Or.inl rfl
  | others => exact Or.inl rfl
  | forgets => exact Or.inl rfl
  | calls op free => exact Or.inl (polls_call op _ free)
  | steps call stage act s' c' outcome busy step =>
    rw [polls_proceed busy]
    rcases act with _ | ⟨place, found⟩ | _
    · exact Or.inl (List.append_nil _)
    · obtain ⟨hplace, i, hi, hfound⟩ := step.here rfl
      exact Or.inr ⟨place, i, hplace, hi, by rw [hfound]; rfl⟩
    · exact Or.inl (List.append_nil _)

theorem Moves.past {event : Event} (hmove : u.Moves event u') : u.past <+: u'.past := by
  cases hmove with
  | steps call stage act s' c' outcome =>
    cases outcome with
    | goesOn => exact List.prefix_rfl
    | returns => exact List.prefix_append _ _
  | _ => exact List.prefix_rfl

/-- **An event is a move.** -/
theorem Sound.perform (h : Sound x u) (event : Event) : u.Moves event (u.perform event) := by
  cases event with
  | call op =>
    simp only [Usage.perform]
    split
    · exact .calls op ‹_›
    · exact .idle _ (fun _ h => by cases h) fun h => by cases h
  | step =>
    simp only [Usage.perform]
    split
    · exact .idle _ (fun _ h => by cases h) fun _ => ‹_›
    · rename_i call stage hnow
      exact .steps call stage _ _ _ _ hnow (steps stage h.length_live fun t ht =>
        h.waits call t (ht ▸ hnow))
  | forget =>
    simp only [Usage.perform]
    split
    · exact .forgets ‹_›
    · exact .idle _ (fun _ h => by cases h) fun h => by cases h
  | others doing => exact .others doing

theorem Sound.past_run (h : Sound x u) (more : List Event) : u.past <+: (u.run more).past := by
  induction more generalizing u with
  | nil => exact List.prefix_rfl
  | cons event more ih =>
    have hmove := h.perform event
    exact hmove.past.trans (ih (h.move hmove))

theorem Outset.after_append (x : Outset) (events more : List Event) :
    x.after (events ++ more) = (x.after events).run more := List.foldl_append

theorem Outset.after_concat (x : Outset) (events : List Event) (event : Event) :
    x.after (events ++ [event]) = (x.after events).perform event := x.after_append events [event]

/-- A context in use is sound at any time. -/
theorem Outset.sound (x : Outset) (events : List Event) : Sound x (x.after events) := by
  induction events using List.reverseRecOn with
  | nil => exact sound_begin x
  | append_singleton events event ih =>
    rw [x.after_concat]
    exact ih.move (ih.perform event)

/-- **What holds in the beginning and is kept by every move holds at any time.** -/
theorem Outset.induction (x : Outset) {P : List Event → Usage → Prop} (begins : P [] x.usage)
    (moves : ∀ events u event u', u = x.after events → Sound x u → u.Moves event u' → P events u →
      P (events ++ [event]) u') (events : List Event) : P events (x.after events) := by
  induction events using List.reverseRecOn with
  | nil => exact begins
  | append_singleton events event ih =>
    have hsound := x.sound events
    rw [x.after_concat]
    exact moves _ _ _ _ rfl hsound (hsound.perform event) ih

end Usage

end Rowflow
