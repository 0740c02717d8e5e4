import Rowflow.Proofs.Course.Anytime
import Rowflow.Proofs.Course.Doing
import Rowflow.Proofs.Transform.Typing

/-!
# Rows fit their layouts

A row that is put into a row set conforms to the layout that it is put in with, whoever puts it there
and whenever. Transforms see to it as long as the rows that they read conform (`Plan.Typed`); a row
that is diverted has been read by the call at hand, and its diagnosis fits the fields that are added
for it. So conforming rows from outside are all that a run needs (`Course.streams_conform`).
-/

namespace Rowflow

variable {σ : Type} {good : σ → Prop}

/-! ### Diverted rows -/

theorem ErrorHandling.conforms_errorLayout (h : ErrorHandling) (why : Diagnosis) {e : Entry}
    (he : e.Conforms) : (Entry.mk (h.errorLayout e.layout) (e.row.append why.values)).Conforms := by
  have hlayout : h.errorLayout e.layout = ⟨e.layout.fields ++ [⟨h.countField, .integer, -1, -1⟩,
      ⟨h.descriptionField, .string, -1, -1⟩, ⟨h.fieldsField, .string, -1, -1⟩,
      ⟨h.codesField, .string, -1, -1⟩]⟩ := by
    simp [errorLayout, Layout.push]
  show (e.row.append why.values).conforms (h.errorLayout e.layout) = true
  rw [hlayout]
  refine Row.conforms_append he (.cons rfl (.cons rfl (.cons ?_ (.cons ?_ .nil))))
  · rcases why.fields with _ | s <;> rfl
  · rcases why.codes with _ | s <;> rfl

/-! ### What is accepted -/

namespace Shared

/-- Everything that has ever been put into a row set conforms. -/
def Typed (s : Shared) : Prop := ∀ i, ∀ e ∈ s.accepted i, e.Conforms

theorem Typed.rowSet {s : Shared} (hs : s.Typed) {r : RowSet} (hr : r ∈ s.rowSets) {e : Entry}
    (he : e ∈ r.accepted) : e.Conforms := by
  obtain ⟨i, hi, rfl⟩ := Array.mem_iff_getElem.mp hr
  refine hs i e ?_
  unfold accepted rowSet?
  rw [Array.getElem?_eq_getElem hi]
  exact Array.mem_toList_iff.mpr he

theorem Typed.act {s s' : Shared} {d : Option Deed} (hs : s.Typed)
    (h : s'.rowSets = Deed.act? s.rowSets d) (hd : ∀ i e, d = some (.gave i e) → e.Conforms) :
    s'.Typed := by
  intro i e he
  rcases mem_accepted_act h i he with he | hgave
  · exact hs i e he
  · exact hd i e hgave

theorem Typed.front {s : Shared} (hs : s.Typed) {i : Nat} {e : Entry} (h : s.front i = .row e) :
    e.Conforms :=
  hs i e (List.mem_of_getElem? (front_eq_row_iff.mp h))

end Shared

/-! ### Contexts -/

namespace Context

theorem conforms_of_startWrite {c : Context} {e : Entry} (he : e.Conforms) :
    ∀ del, (c.startWrite e).2 = .ok del → del.entry.Conforms := by
  rcases startWrite_cases c e with ⟨-, hw⟩ | ⟨-, ⟨-, hw⟩ | ⟨-, -, hw⟩ | ⟨t, i, -, -, hw⟩⟩ <;> rw [hw]
  · exact fun del hdel => by cases hdel
  all_goals exact fun del hdel => by cases hdel; exact he

theorem conforms_of_startWriteTo {c : Context} {target : String} {e : Entry} (he : e.Conforms) :
    ∀ del, c.startWriteTo target e = .ok del → del.entry.Conforms := by
  rcases startWriteTo_cases c target e with ⟨-, hw⟩ | ⟨-, ⟨-, hw⟩ | ⟨t, i, -, hw⟩⟩ <;> rw [hw]
  · exact fun del hdel => by cases hdel
  · exact fun del hdel => by cases hdel
  · exact fun del hdel => by cases hdel; exact he

/-- Beginning to divert a conforming row begins to deliver one. -/
theorem Recalls.conforms_of_startDivert {admits : Entry → Prop} {c : Context} (h : c.Recalls admits)
    (s : Shared) {e : Entry} (he : e.Conforms) (why : Diagnosis) :
    ∀ del, (c.startDivert s e why).2.2 = .ok (.ok del) → del.entry.Conforms := by
  intro del hdel
  obtain ⟨r, -, rfl⟩ := (h.startDivert s e why).2 del hdel
  exact r.diversion.handling.conforms_errorLayout why he

end Context

/-! ### Activities -/

namespace Activity

/-- The rest of an activity writes and diverts rows that conform, if those it reads do. -/
def Typed {α : Type} (good : σ → Prop) : Activity σ α → Prop
  | .run plan => plan.Typed good
  | .reading _ next => (Plan.read next).Typed good
  | .writing del next => (Plan.write del.entry next).Typed good
  | .resting _ next => next.Typed good
  | .done _ | .broken _ => True

/-- An activity at a desk with all that it needs. -/
structure TypedAt {α : Type} (good : σ → Prop) (d : Desk σ) (a : Activity σ α) : Prop where
  state : good d.state
  context : d.context.Recalls Entry.Conforms
  rest : a.Typed good

variable {α : Type} {d : Desk σ}

theorem Typed.delivery {a : Activity σ α} (h : a.Typed good) : ∀ del ∈ a.delivery?, del.entry.Conforms := by
  intro del hdel
  cases a
  case writing =>
    cases hdel
    exact h.1
  all_goals cases hdel

theorem typed_startDelivery {r : Except TransformError Context.Delivery}
    {next : Except TransformError Unit → Plan σ α} (hstate : good d.state)
    (hnext : ∀ r, (next r).Typed good) (hr : ∀ del, r = .ok del → del.entry.Conforms) :
    good (startDelivery d r next).1.state ∧ (startDelivery d r next).2.Typed good := by
  rcases r with e | del
  · exact ⟨hstate, hnext _⟩
  · exact ⟨hstate, hr del rfl, hnext⟩

theorem typed_startDiversion {r : Except Panic (Except TransformError Context.Delivery)}
    {next : Except TransformError Unit → Plan σ α} (hstate : good d.state)
    (hnext : ∀ r, (next r).Typed good) (hr : ∀ del, r = .ok (.ok del) → del.entry.Conforms) :
    good (startDiversion d r next).1.state ∧ (startDiversion d r next).2.Typed good := by
  rcases r with p | r
  · exact ⟨hstate, trivial⟩
  · exact typed_startDelivery hstate hnext fun del hdel => hr del (congrArg _ hdel)

theorem TypedAt.stepPlan {plan : Plan σ α} (h : TypedAt good d (.run plan)) :
    good (stepPlan d plan).1.state ∧ (stepPlan d plan).2.Typed good := by
  obtain ⟨s, c, state⟩ := d
  obtain ⟨hstate, hcontext, hrest⟩ := h
  cases plan
  case finish => exact ⟨hstate, trivial⟩
  case halt => exact ⟨hstate, trivial⟩
  case save => exact hrest
  case look => exact ⟨hstate, hrest _⟩
  case write =>
    exact typed_startDelivery hstate hrest.2 (Context.conforms_of_startWrite hrest.1)
  case writeTo =>
    exact typed_startDelivery hstate hrest.2 (Context.conforms_of_startWriteTo hrest.1)
  case divert e why next =>
    exact typed_startDiversion hstate hrest.2 (hcontext.conforms_of_startDivert s hrest.1 why)
  case await =>
    simp only [Activity.stepPlan]
    split <;> exact ⟨hstate, hrest⟩
  all_goals exact ⟨hstate, hrest⟩

theorem TypedAt.stepRead {stage : ReadStage} {next : Option Entry → Plan σ α}
    (h : TypedAt good d (.reading stage next)) (hs : d.shared.Typed) :
    good (stepRead d stage next).1.state ∧ (stepRead d stage next).2.Typed good := by
  obtain ⟨hkept, hstep⟩ := stepRead_spec d stage next
  refine ⟨hkept ▸ h.state, ?_⟩
  have hrest : (Plan.read next).Typed good := h.rest
  generalize (Activity.stepRead d stage next).1.shared = s' at hstep
  generalize (Activity.stepRead d stage next).1.context = c' at hstep
  generalize (Activity.stepRead d stage next).2 = a' at hstep ⊢
  generalize (Activity.reading stage next : Activity σ α).deed? _ _ = deed at hstep
  cases hstep
  case on => exact hrest
  case dry => exact hrest.1
  case row found _ _ => exact hrest.2 _ (hs.front found)
  case broken => trivial

/-- **A step of an activity** that gets conforming rows. -/
theorem TypedAt.step {a : Activity σ α} (h : TypedAt good d a) (hs : d.shared.Typed) :
    TypedAt good (a.step d).1 (a.step d).2 := by
  have hcontext := a.step_recalls h.context fun _ _ => hs.front
  suffices hrest : good (a.step d).1.state ∧ (a.step d).2.Typed good from ⟨hrest.1, hcontext, hrest.2⟩
  cases a
  case run => exact h.stepPlan
  case reading => exact h.stepRead hs
  case writing del next =>
    obtain ⟨s, c, state⟩ := d
    have hrest := h.rest
    have hstep := Context.deliver_spec c s del
    simp only [Activity.step]
    rcases hd : c.deliver s del with ⟨s', c', del' | r | p⟩ <;> rw [hd] at hstep
    · refine ⟨h.state, ?_⟩
      show (Plan.write del'.entry next).Typed good
      rw [hstep.pending_same.1]
      exact hrest
    · exact ⟨h.state, hrest.2 r⟩
    · exact ⟨h.state, trivial⟩
  case resting =>
    simp only [Activity.step]
    split <;> exact ⟨h.state, h.rest⟩
  all_goals exact ⟨h.state, h.rest⟩

end Activity

/-! ### Workers -/

/-- What the worker is doing writes and diverts rows that conform. -/
def Phase.Typed (good : σ → Prop) : Phase σ → Prop
  | .initializing a => a.Typed good
  | .working a => a.Typed good
  | .diverting _ a => a.Typed good
  | .disposing _ a => a.Typed good
  | _ => True

theorem Phase.typed_iff_doing {phase : Phase σ} :
    phase.Typed good ↔ phase.doing True (Activity.Typed good) := by
  cases phase <;> exact Iff.rfl

namespace Worker

/-- The worker writes and diverts rows that conform, if those it reads do. -/
structure Typed (good : σ → Prop) (x : Worker σ) : Prop where
  state : good x.state
  context : x.context.Recalls Entry.Conforms
  phase : x.phase.Typed good

variable {s : Shared}

theorem Typed.given {x : Worker σ} (h : x.Typed good) {i : Nat} {e : Entry}
    (hd : x.deed? s = some (.gave i e)) : e.Conforms := by
  obtain ⟨del, hdel, rfl, -⟩ := delivery_of_gave hd
  exact Phase.of_delivery (Phase.typed_iff_doing.mp h.phase) (fun ha => ha.delivery) del hdel

variable [Transform σ]

/-- **A step of a worker** that gets conforming rows. -/
theorem Typed.step (hk : Transform.KeepsTypes good) {x : Worker σ} (h : x.Typed good)
    (hs : s.Typed) : (x.step s).2.Typed good := by
  have hkeep : Upholds s (fun c state => good state ∧ c.Recalls Entry.Conforms)
      fun _ => Activity.Typed good :=
    { stepped := by
        rintro α a d rfl ⟨hstate, hcontext⟩ ha
        obtain ⟨hstate', hcontext', ha'⟩ := Activity.TypedAt.step ⟨hstate, hcontext, ha⟩ hs
        exact ⟨⟨hstate', hcontext'⟩, ha'⟩
      forgotten := fun _ _ h => ⟨h.1, h.2.forget rfl rfl⟩
      process := fun _ state h => hk.process state h.1
      dispose := fun _ state h => hk.dispose state h.1
      diverted := fun _ _ layout row _ _ _ h hlayout hrow => by
        obtain ⟨-, layout', hl, hconforms⟩ := h.2.current row hrow
        obtain rfl : layout = layout' := Option.some.inj (hlayout.symm.trans hl)
        exact ⟨hconforms, fun _ => trivial⟩ }
  obtain ⟨⟨hstate, hcontext⟩, hdoes⟩ :=
    Upheld.step hkeep ⟨⟨h.state, h.context⟩, Phase.typed_iff_doing.mp h.phase⟩
  exact ⟨hstate, hcontext, Phase.typed_iff_doing.mpr hdoes⟩

end Worker

/-! ### Worlds -/

theorem Shared.typed_of_bare {s : Shared} {p : Pipeline}
    (h : s.rowSets = #[] ∨ s.rowSets = p.rowSets.toArray) : s.Typed := by
  intro i e he
  rw [accepted_of_bare h] at he
  exact absurd he List.not_mem_nil

theorem Worker.Typed.launch {x : Worker σ} (h : x.Typed good) : x.launch.Typed good :=
  ⟨h.state, h.context, trivial⟩

/-- **Rows stay typed** if transforms are made in good states, which they keep. -/
theorem Worker.Typed.lasting [Transform σ] (hk : Transform.KeepsTypes good) (p : Pipeline)
    {ts : TransformMap σ}
    (hmade : ∀ id r n state, ts.find? id = some r → r.instantiate n = .ok state → good state) :
    Worker.Lasting p ts Entry.Conforms Shared.Typed (Worker.Typed good) where
  like s s' hrows _ hs := hs.act (d := none) hrows fun _ _ hd => by cases hd
  stepped s x hs hx :=
    ⟨hs.act (x.step_effect s).rowSets fun _ _ hd => hx.given hd, hx.step hk hs⟩
  injected s i _ e _ he hs :=
    hs.act (d := some (.gave i e)) rfl fun _ _ hd => by cases hd; exact he
  finished s i hs := hs.act (d := some (.closed i)) rfl fun _ _ hd => by cases hd
  bare _ hrows _ := Shared.typed_of_bare (p := p) (Or.inl hrows)
  laid _ s' hrows _ _ := Shared.typed_of_bare (Or.inr hrows)
  enrolled k r n state hr _ _ hi :=
    have hgood := hmade k.id r n state hr hi
    ⟨hgood, .new _ _ _ _, hk.init state hgood⟩
  abandoned x hx := ⟨hx.state, hx.context, trivial⟩
  heard id l x hx := by
    unfold Worker.hear
    split
    · exact ⟨hx.state, hx.context.keep rfl rfl rfl, hx.phase⟩
    · exact hx

/-! ### Runs -/

namespace Course

variable {p : Pipeline}

/-- **Rows fit their layouts.** In every state of every run of built-in transforms, every entry that a
row set has ever accepted conforms to its layout, provided that the entries injected do. -/
theorem streams_conform {o : Orchestrator Builtin} {hooks : Hooks} {bindings : Table String}
    (hnew : Orchestrator.new p (.builtins id) = .ok o) (events : List Event)
    (hinjected : ∀ i e, Event.inject i e ∈ events → e.row.conforms e.layout = true) :
    ∀ r ∈ ((begin o hooks bindings).run events).shared.rowSets, ∀ e ∈ r.accepted,
      e.row.conforms e.layout = true := by
  have hlasting : Worker.Lasting p o.transforms Entry.Conforms Shared.Typed
      (Worker.Typed Builtin.Typed) :=
    Worker.Typed.lasting Builtin.keepsTypes p fun _ _ _ _ hr hi =>
      Builtin.typed_of_ofSpec (Orchestrator.builtin_of_new hnew hr hi)
  have htyped : ((begin o hooks bindings).run events).shared.Typed :=
    (always hnew hlasting.each (fun _ h => h.launch fun _ => Worker.Typed.launch) events
      hinjected).shared
  exact fun r hr e he => htyped.rowSet hr he

/-! ### A diverted row -/

namespace Diverted

/-- Integers are read from rows that come from outside; bad rows go to another transform. -/
def pipeline : Pipeline where
  transforms := [
    { id := "parse"
      type := "parse_integer"
      inject := true
      errorHandling := some { target := "rejects" }
      options := .ofList [("field", .string "n")] },
    { id := "rejects", type := "dummy" }]

/-- The run of the two. -/
def orchestrator : Orchestrator Builtin where
  pipeline := pipeline
  transforms := ((Registry.builtins id).resolve pipeline).toOption.getD .empty
  world := { shared := { pipeline := pipeline.name, poll := 50000 } }
  built := .ofList (pipeline.ids.map (·, 1))

theorem new_ok : Orchestrator.new pipeline (.builtins id) = .ok orchestrator := by rfl

/-- A row without an integer. -/
def entry : Entry := ⟨⟨[⟨"n", .boolean, -1, -1⟩]⟩, ⟨[.boolean true]⟩⟩

/-- The row is read and diverted. -/
def events : List Event :=
  [.prepare, .produce "parse", .start, .inject 1 entry] ++ List.replicate 14 (.step 0)

theorem conforms_of_inject {i : Nat} {e : Entry} (h : Event.inject i e ∈ events) :
    e.row.conforms e.layout = true := by
  obtain ⟨-, rfl⟩ : i = 1 ∧ e = entry := by simpa [events] using h
  decide

/-- The state of the run after that. -/
def reached : Course Builtin := (begin orchestrator Hooks.none .empty).run events

end Diverted

theorem streams_conform_diverted :
    (∀ i e, Event.inject i e ∈ Diverted.events → e.row.conforms e.layout = true) ∧
      (Diverted.reached.shared.accepted 0).map (·.layout.size) = [5] ∧
      ∀ r ∈ Diverted.reached.shared.rowSets, ∀ e ∈ r.accepted, e.row.conforms e.layout = true :=
  ⟨fun _ _ => Diverted.conforms_of_inject, by decide +kernel,
    streams_conform Diverted.new_ok Diverted.events fun _ _ => Diverted.conforms_of_inject⟩

end Course

end Rowflow
