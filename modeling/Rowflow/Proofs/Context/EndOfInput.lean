import Rowflow.Proofs.Context.Exchange

/-!
# The end of input

A read has no row only when the stop flag is raised or every input has been found done, and from then
on no read has (`Spent`). A row that is taken out of an input is the answer to the read that takes it.
Main statement: `end_of_input`.
-/

namespace Rowflow

namespace Usage

/-- The row that an answer hands out. -/
def Reply.row? : Reply → Option Entry
  | .row e => some e
  | _ => none

variable {x : Outset} {u u' : Usage} {event : Event}

/-! ### What has been found done -/

/-- An input that has been found done is done and drained. -/
theorem Outset.observed (x : Outset) (events : List Event) : ∀ p i, x.wiring.inputs[p]? = some i →
    (p, .done) ∈ (x.after events).polls → (x.after events).shared.front i = .done := by
  refine x.induction (P := fun _ u => ∀ p i, x.wiring.inputs[p]? = some i →
    (p, .done) ∈ u.polls → u.shared.front i = .done) (fun p i _ hp => by cases hp)
    (fun events u event u' _ hsound hmove ih p i hi hp => ?_) events
  refine hsound.front_done hmove ?_
  rcases hmove.polls with hpolls | ⟨place, j, hplace, hj, hpolls⟩ <;> rw [hpolls] at hp
  · exact ih p i hi hp
  · rcases List.mem_append.mp hp with hp | hp
    · exact ih p i hi hp
    · obtain ⟨rfl, hfound⟩ := Prod.mk.inj (List.mem_singleton.mp hp)
      have hwired := hsound.input hplace hj
      rw [hsound.wired, hi] at hwired
      cases hwired
      exact hfound.symm

theorem Sound.found_done (h : Sound x u) (hnil : u.context.inputs = []) :
    ∀ p < x.wiring.inputs.length, (p, .done) ∈ u.polls := by
  have hlive : u.live = [] := List.length_eq_zero_iff.mp (by rw [h.length_live, hnil]; rfl)
  intro p hp
  have hmem : p ∉ u.live := by simp [hlive]
  unfold live left at hmem
  rw [List.mem_filter, List.mem_range, h.wired] at hmem
  simpa [hp] using hmem

theorem Sound.turn_lt (h : Sound x u) {call : Call} {stage : ReadStage}
    (hnow : u.now = some (call, .reading stage)) (hlooks : Looks u.context stage) :
    u.context.turn < u.context.inputs.length := by
  refine Nat.mod_lt _ (List.length_pos_of_ne_nil ?_)
  cases stage with
  | check => exact absurd hlooks id
  | sweep left => exact hlooks.2
  | wait t => exact h.waits call t hnow

/-! ### No row -/

theorem Steps.dry {s s' : Shared} {c c' : Context} {live : List Nat} {op : Operation}
    {stage : Stage} {act : Option Act} (h : Steps s c live op stage act s' c' (.returns .noRow)) :
    act = none ∧ s' = s ∧ (s.stopped = true ∨ c.inputs = []) := by
  generalize hreply : Outcome.returns .noRow = outcome at h
  cases h with
  | dries _ why => exact ⟨rfl, rfl, why⟩
  | last _ _ _ _ _ _ _ settles => rcases settles with ⟨-, rfl⟩ | ⟨p, -, rfl⟩ <;> cases hreply
  | nowhere _ _ _ _ _ settles => rcases settles with ⟨-, rfl⟩ | ⟨p, -, rfl⟩ <;> cases hreply
  | _ => cases hreply

theorem Outset.no_row (x : Outset) (events : List Event) :
    ∀ before a after, (x.after events).past = before ++ a :: after → a.reply = .noRow →
      a.stopped = true ∨
        ∀ p < x.wiring.inputs.length, .polled p .done ∈ (before ++ [a]).flatMap (·.acts) := by
  refine x.induction (P := fun _ u => ∀ before a after, u.past = before ++ a :: after →
    a.reply = .noRow → a.stopped = true ∨
      ∀ p < x.wiring.inputs.length, .polled p .done ∈ (before ++ [a]).flatMap (·.acts))
    (fun before a after h => by simp [Outset.usage] at h)
    (fun events u event u' _ hsound hmove ih => ?_) events
  cases hmove with
  | steps call stage act s' c' outcome busy step =>
    cases outcome with
    | goesOn stage' => exact ih
    | returns reply =>
      refine forall_split_concat.mpr ⟨ih, fun hreply => ?_⟩
      cases hreply
      obtain ⟨rfl, rfl, hs | hi⟩ := step.dry
      · exact Or.inl hs
      · refine Or.inr fun p hp => ?_
        have hacts := mem_polls.mp (hsound.found_done hi p hp)
        rw [acts, calls_busy busy] at hacts
        simpa [List.flatMap_map] using hacts
  | _ => exact ih

/-! ### The end is permanent -/

/-- How many steps a call takes at most if there is no row to read. -/
def Stage.rest : Stage → Nat
  | .called => 3
  | .reading .check => 2
  | _ => 1

/-- There is no row to read any more, and a read at hand will find that out. -/
structure Spent (u : Usage) : Prop where
  dry : u.shared.stopped = true ∨ u.context.inputs = []
  now : ∀ call stage, u.now = some (call, stage) → call.op = .read →
    1 < stage.rest ∨ u.context.inputs = []

theorem Steps.stopped {s s' : Shared} {c c' : Context} {live : List Nat} {op : Operation}
    {stage : Stage} {act : Option Act} {outcome : Outcome}
    (h : Steps s c live op stage act s' c' outcome) : s'.stopped = s.stopped := by
  cases h with
  | declines _ _ _ quiet => exact quiet.stopped
  | begins _ _ _ quiet => exact quiet.stopped
  | row _ _ _ _ _ _ _ _ _ told => exact (tell_frame told).2
  | broken _ _ _ _ _ _ _ _ _ _ told => exact (tell_frame told).2
  | last _ _ _ _ _ _ _ settles => exact settles.frame.2.1
  | nowhere _ _ _ _ _ settles => exact settles.frame.2.1
  | _ => rfl

/-- A step of a read that is spent goes on towards its end, or it is the end. -/
theorem Steps.spent {s s' : Shared} {c c' : Context} {live : List Nat} {stage : Stage}
    {act : Option Act} {outcome : Outcome} (h : Steps s c live .read stage act s' c' outcome)
    (hsuits : stage.Suits .read) (hdry : s.stopped = true ∨ c.inputs = [])
    (hstage : 1 < stage.rest ∨ c.inputs = []) :
    outcome = .returns .noRow ∨ ∃ stage', outcome = .goesOn stage' ∧ stage'.rest < stage.rest ∧
      (1 < stage'.rest ∨ c.inputs = []) := by
  -- nothing is looked at before the stop flag, and afterwards there is nothing to look at
  have hlook {stage : ReadStage} {i : Nat} (hs : 1 < (Stage.reading stage).rest ∨ c.inputs = [])
      (hlooks : Looks c stage) (hi : c.inputs[c.turn]? = some i) : False := by
    rcases hs with hs | hs
    · cases stage with
      | check => exact hlooks
      | sweep => exact absurd hs (Nat.lt_irrefl 1)
      | wait => exact absurd hs (Nat.lt_irrefl 1)
    · rw [hs] at hi
      cases hi
  have hwrites {d : Context.Delivery} (hd : (Stage.writing d).Suits .read) : False := by
    rcases hd with ⟨h, -⟩ | ⟨h, -⟩ <;> cases h
  cases h with
  | reads => exact Or.inr ⟨_, rfl, Nat.lt_succ_self 2, Or.inl (Nat.lt_succ_self 1)⟩
  | declines _ _ _ _ _ _ why =>
    cases why with
    | misfit writes => cases writes
    | undiverted diverts => cases diverts
  | fails _ _ _ diverts => cases diverts
  | begins _ _ _ _ _ how =>
    generalize c'.nextOutput = rotation at how
    cases how with
    | diverts diverts => cases diverts
  | sweeps runs =>
    rw [runs] at hdry
    exact Or.inr ⟨_, rfl, Nat.lt_succ_self 1, Or.inr (hdry.resolve_left Bool.false_ne_true)⟩
  | awaits _ inputs => exact absurd (hstage.resolve_left (Nat.lt_irrefl 1)) inputs
  | waits _ inputs => exact absurd (hstage.resolve_left (Nat.lt_irrefl 1)) inputs
  | dries => exact Or.inl rfl
  | ended _ _ looks _ _ _ input => exact absurd input (hlook hstage looks)
  | empty _ _ looks _ _ _ input => exact absurd input (hlook hstage looks)
  | row _ looks _ _ _ _ _ input => exact absurd input (hlook hstage looks)
  | broken _ looks _ _ _ _ _ _ input => exact absurd input (hlook hstage looks)
  | full => exact absurd hsuits hwrites
  | refused => exact absurd hsuits hwrites
  | partly => exact absurd hsuits hwrites
  | last => exact absurd hsuits hwrites
  | nowhere => exact absurd hsuits hwrites

theorem Doing.stopped {doing : Doing} {s : Shared} (h : s.stopped = true) :
    (doing.act s).stopped = true := by
  cases doing with
  | put i e =>
    simp only [act]
    split <;> exact h
  | take i =>
    simp only [act]
    split <;> exact h
  | stop => rfl
  | _ => exact h

theorem Spent.move (hspent : u.Spent) (h : Sound x u) (hmove : u.Moves event u') : u'.Spent := by
  cases hmove with
  | idle => exact hspent
  | others doing => exact ⟨hspent.dry.imp_left Doing.stopped, hspent.now⟩
  | forgets => exact ⟨hspent.dry, hspent.now⟩
  | calls op free =>
    refine ⟨hspent.dry, fun call stage hnow hop => Or.inl ?_⟩
    cases hnow
    exact Nat.lt_succ_of_lt (Nat.lt_succ_self 1)
  | steps call stage act s' c' outcome busy step =>
    refine ⟨?_, fun call' stage' hnow hop => ?_⟩
    · rw [shared_proceed, context_proceed, step.stopped]
      exact hspent.dry.imp_right step.inputs_nil
    · obtain ⟨rfl, rfl⟩ := now_proceed hnow
      rw [context_proceed]
      have hsuits := h.suits call stage busy
      change call.op = .read at hop
      rw [hop] at step hsuits
      rcases step.spent hsuits hspent.dry (hspent.now call stage busy hop) with hout |
        ⟨stage'', hout, -, hrest⟩
      · cases hout
      · cases hout
        exact hrest.imp_right step.inputs_nil

/-- When a read has had no row, what is left is spent. -/
theorem Outset.spent (x : Outset) (events : List Event) :
    ∀ a ∈ (x.after events).past, a.reply = .noRow → (x.after events).Spent := by
  refine x.induction (P := fun _ u => ∀ a ∈ u.past, a.reply = .noRow → u.Spent)
    (fun a ha => by cases ha) (fun events u event u' _ hsound hmove ih => ?_) events
  have hold (a : Return) (ha : a ∈ u.past) (hreply : a.reply = .noRow) : u'.Spent :=
    (ih a ha hreply).move hsound hmove
  cases hmove with
  | steps call stage act s' c' outcome busy step =>
    cases outcome with
    | goesOn => exact hold
    | returns reply =>
      intro a ha hreply
      rcases List.mem_append.mp ha with ha | ha
      · exact hold a ha hreply
      · cases List.mem_singleton.mp ha
        cases hreply
        obtain ⟨-, hs, hdry⟩ := step.dry
        exact ⟨hs ▸ hdry.imp_right step.inputs_nil, fun call stage hnow => by cases hnow⟩
  | _ => exact hold

theorem Outset.permanent (x : Outset) (events : List Event) : (x.after events).past.Pairwise
    fun a b => a.reply = .noRow → b.op = .read → b.reply = .noRow := by
  refine x.induction (P := fun _ u => u.past.Pairwise
    fun a b => a.reply = .noRow → b.op = .read → b.reply = .noRow) List.Pairwise.nil
    (fun events u event u' hafter hsound hmove ih => ?_) events
  cases hmove with
  | steps call stage act s' c' outcome busy step =>
    cases outcome with
    | goesOn => exact ih
    | returns reply =>
      refine List.pairwise_append.mpr ⟨ih, List.pairwise_singleton _ _, fun a ha b hb hreply hop => ?_⟩
      cases List.mem_singleton.mp hb
      change call.op = .read at hop
      have hspent : u.Spent := hafter ▸ x.spent events a (hafter ▸ ha) hreply
      have hsuits := hsound.suits call stage busy
      rw [hop] at step hsuits
      rcases step.spent hsuits hspent.dry (hspent.now call stage busy hop) with hout | ⟨_, hout, -⟩
      · cases hout
        rfl
      · cases hout
  | _ => exact ih

theorem Spent.returns (hspent : u.Spent) (h : Sound x u) {call : Call} {stage : Stage}
    (hnow : u.now = some (call, stage)) (hop : call.op = .read) (more : List Event)
    (hmore : stage.rest ≤ more.count .step) :
    ∃ b later, (u.run more).past = u.past ++ b :: later ∧ b.op = .read ∧ b.reply = .noRow := by
  induction more generalizing u call stage with
  | nil =>
    have hpos : 0 < stage.rest := by
      unfold Stage.rest
      split <;> decide
    exact absurd hmore (Nat.not_le.mpr hpos)
  | cons event more ih =>
    have hmove := h.perform event
    have hspent' := hspent.move h hmove
    have hsound' := h.move hmove
    change ∃ b later, ((u.perform event).run more).past = _ ∧ _
    generalize u.perform event = u' at hmove hspent' hsound'
    cases hmove with
    | idle _ _ free =>
      have hevent : event ≠ .step := fun he => by cases hnow.symm.trans (free he)
      rw [List.count_cons_of_ne hevent] at hmore
      exact ih hspent h hnow hop hmore
    | others doing =>
      rw [List.count_cons_of_ne (fun h => by cases h)] at hmore
      exact ih hspent' hsound' hnow hop hmore
    | forgets free => cases hnow.symm.trans free
    | calls _ free => cases hnow.symm.trans free
    | steps call' stage' act s' c' outcome busy step =>
      cases hnow.symm.trans busy
      rw [List.count_cons_self] at hmore
      have hsuits := h.suits call stage busy
      rw [hop] at step hsuits
      rcases step.spent hsuits hspent.dry (hspent.now call stage busy hop) with rfl |
        ⟨stage', rfl, hrest, -⟩
      · obtain ⟨later, hlater⟩ := hsound'.past_run more
        exact ⟨_, later, hlater.symm.trans (List.append_assoc _ _ _), hop, rfl⟩
      · exact ih hspent' hsound' rfl hop (by omega)

/-! ### What is handed out -/

/-- A call hands out the row that it takes as it comes back, unless a listener breaks down. -/
theorem Steps.handed {s s' : Shared} {c c' : Context} {live : List Nat} {op : Operation}
    {stage : Stage} {act : Option Act} {outcome : Outcome}
    (h : Steps s c live op stage act s' c' outcome) :
    match outcome with
    | .goesOn _ => act.bind Act.taken? = none
    | .returns reply => act.bind Act.taken? = reply.row? ∨ ∃ l ∈ c.listeners, ∃ e p,
        l.fails .read e = some p ∧ act.bind Act.taken? = some e ∧ reply = .broken p := by
  cases h with
  | broken _ _ _ i e _ p _ _ _ told =>
    obtain ⟨l, hl, hp⟩ := exists_of_tell (congrArg Prod.snd told)
    exact Or.inr ⟨l, hl, e, p, hp, rfl, rfl⟩
  | last _ _ _ _ _ _ _ settles =>
    rcases settles with ⟨-, rfl⟩ | ⟨p, -, rfl⟩
    · exact Or.inl rfl
    · exact Or.inl rfl
  | nowhere _ _ _ _ _ settles =>
    rcases settles with ⟨-, rfl⟩ | ⟨p, -, rfl⟩
    · exact Or.inl rfl
    · exact Or.inl rfl
  | refused _ _ _ _ found => exact Or.inl (by cases found <;> rfl)
  | declines => exact Or.inl rfl
  | fails => exact Or.inl rfl
  | dries => exact Or.inl rfl
  | row => exact Or.inl rfl
  | _ => rfl

theorem Call.taken_concat (call : Call) (act : Option Act) :
    ({ call with acts := call.acts ++ act.toList } : Call).taken =
      call.taken ++ (act.bind Act.taken?).toList :=
  filterMap_concat Act.taken? call.acts act

/-- What a call has taken is what it hands out, unless a listener breaks down; a call at hand has taken
nothing. -/
theorem Outset.handed (x : Outset) (events : List Event) :
    (∀ a ∈ (x.after events).past, a.taken = a.reply.row?.toList ∨ ∃ l ∈ x.listeners, ∃ e p,
        l.fails .read e = some p ∧ a.taken = [e] ∧ a.reply = .broken p) ∧
      ∀ call ∈ (x.after events).now, call.1.taken = [] := by
  refine x.induction (P := fun _ u => (∀ a ∈ u.past, a.taken = a.reply.row?.toList ∨
      ∃ l ∈ x.listeners, ∃ e p, l.fails .read e = some p ∧ a.taken = [e] ∧ a.reply = .broken p) ∧
    ∀ call ∈ u.now, call.1.taken = []) ⟨fun a ha => (by cases ha), fun call hcall => (by cases hcall)⟩
    (fun events u event u' _ hsound hmove ih => ?_) events
  cases hmove with
  | calls op free => exact ⟨ih.1, fun call hcall => by cases hcall; rfl⟩
  | steps call stage act s' c' outcome busy step =>
    have htaken := call.taken_concat act
    rw [ih.2 _ busy, List.nil_append] at htaken
    have hhanded := step.handed
    cases outcome with
    | goesOn stage' =>
      refine ⟨ih.1, fun call' hcall => ?_⟩
      cases hcall
      rw [htaken, hhanded]
      rfl
    | returns reply =>
      refine ⟨fun a ha => ?_, fun call' hcall => by cases hcall⟩
      rcases List.mem_append.mp ha with ha | ha
      · exact ih.1 a ha
      · cases List.mem_singleton.mp ha
        rw [← hsound.listeners, htaken]
        rcases hhanded with hrow | ⟨l, hl, e, p, hp, he, hreply⟩
        · exact Or.inl (by rw [hrow])
        · exact Or.inr ⟨l, hl, e, p, hp, by rw [he]; rfl, hreply⟩
  | _ => exact ih

/-! ### Main statement -/

/-- **The end of input is exact and permanent.** -/
theorem end_of_input (x : Outset) (events : List Event) :
    let u := x.after events
    -- the list holds the inputs that have not been found done, and what has been found done stays so
    u.live.map (x.wiring.inputs[·]?) = u.context.inputs.map some ∧
    (∀ p i, x.wiring.inputs[p]? = some i → (p, .done) ∈ u.polls → u.shared.front i = .done) ∧
    -- a read has no row only if the stop flag is raised or every input has been found done
    (∀ before a after, u.past = before ++ a :: after → a.reply = .noRow → a.stopped = true ∨
      ∀ p < x.wiring.inputs.length, .polled p .done ∈ (before ++ [a]).flatMap (·.acts)) ∧
    -- after that every read that comes back has no row, and a further one does come back
    (u.past.Pairwise fun a b => a.reply = .noRow → b.op = .read → b.reply = .noRow) ∧
    (∀ a ∈ u.past, a.reply = .noRow → u.now = none → ∀ more : List Event, 3 ≤ more.count .step →
      ∃ b later, (x.after (events ++ .call .read :: more)).past = u.past ++ b :: later ∧
        b.op = .read ∧ b.reply = .noRow) ∧
    -- a row that is taken is the answer to the read that takes it, unless a listener breaks down
    (∀ a ∈ u.past, a.taken = a.reply.row?.toList ∨ ∃ l ∈ x.listeners, ∃ e p,
      l.fails .read e = some p ∧ a.taken = [e] ∧ a.reply = .broken p) ∧
    (∀ call ∈ u.now, call.1.taken = []) ∧
    -- the rows of an input come in its order, and all of them if nobody else takes any
    (∀ i, ∃ l, (u.shared.accepted i).take (u.shared.delivered i) =
        (x.shared.accepted i).take (x.shared.delivered i) ++ l ∧ (u.takenFrom i).Sublist l ∧
      (.others (.take i) ∉ events → l = u.takenFrom i)) ∧
    -- an input that is looked at is in the list
    (∀ call stage, u.now = some (call, .reading stage) → Looks u.context stage →
      u.context.turn < u.context.inputs.length) := by
  have hsound := x.sound events
  obtain ⟨hhanded, hnow⟩ := x.handed events
  refine ⟨hsound.wired ▸ hsound.inputs, x.observed events, x.no_row events, x.permanent events,
    fun a ha hreply hfree more hmore => ?_, hhanded, hnow, x.taken events,
    fun call stage hcall hlooks => hsound.turn_lt hcall hlooks⟩
  have hspent := x.spent events a ha hreply
  have hmove := hsound.perform (.call .read)
  have hperform : (x.after events).perform (.call .read) = { x.after events with
      now := some ({ op := .read, before := (x.after events).standing }, .called) } := by
    simp only [perform, hfree]
  rw [hperform] at hmove
  rw [x.after_append]
  change ∃ b later, (((x.after events).perform (.call .read)).run more).past = _ ∧ _
  rw [hperform]
  exact (hspent.move hsound hmove).returns (hsound.move hmove) rfl rfl more hmore

-- the only input holds a row and has its end mark
example :
    let e : Entry := ⟨⟨[⟨"n", .integer, -1, -1⟩]⟩, ⟨[.integer 1]⟩⟩
    let x : Outset := {
      shared := { pipeline := "p", rowSets := #[((RowSet.new 2).accept e).finish] }
      spec := { id := "a", type := "dummy" }
      copy := 0
      wiring := { inputs := [0] }
      slot := 0 }
    let read : List Event := [.call .read, .step, .step, .step, .step]
    (x.after (read ++ read ++ read)).past.map (·.reply) = [.row e, .noRow, .noRow] := by
  decide +kernel

end Usage

end Rowflow
