import Rowflow.Proofs.Course.Custody
import Rowflow.Proofs.Dataflow.Emission

/-!
# Accounts

What a worker whose transform plays a role has given away, compared with what it should: up to the
row at hand it has given what `play` says for the rows it has taken on, in that order, and it is
never ahead (`Loses`). While a row is being written the rest is due (`Owes`); between two rows
nothing is. Only a worker that has lost its way gives less, and then it gives no more.

`Activity.Accounts` says this for every point of a call, `Activity.Redirects` for the diversion of a
row, `Phase.Accounts` for all of a worker's life.
-/

namespace Rowflow

variable {σ : Type}

/-! ### Rows taken on -/

/-- The rows that have been taken on: all that were read, or the first ones of a source. -/
def Conduct.Feeds (conduct : Conduct) (ds : List Deed) (feed : List Entry) : Prop :=
  match conduct with
  | .source rows => feed <+: rows ∧ Deed.reads ds = []
  | .reader _ => feed = Deed.reads ds

/-- Whether no row is left: a source has none, and a reader has been told so. -/
def Conduct.Complete (conduct : Conduct) (feed : List Entry) (dry : Prop) : Prop :=
  match conduct with
  | .source rows => feed = rows
  | .reader _ => dry

/-- The rows that are to be handled: those of a source, or those that are read. -/
def Conduct.rows (conduct : Conduct) (input : List Entry) : List Entry :=
  match conduct with
  | .source rows => rows
  | .reader _ => input

theorem Conduct.Feeds.prefix_rows {conduct : Conduct} {ds : List Deed} {feed input : List Entry}
    (h : conduct.Feeds ds feed) (hr : Deed.reads ds <+: input) : feed <+: conduct.rows input := by
  rcases conduct with rows | verdict
  · exact h.1
  · rwa [show feed = Deed.reads ds from h]

theorem Conduct.Feeds.eq_rows {conduct : Conduct} {ds : List Deed} {feed input : List Entry}
    {dry : Prop} (h : conduct.Feeds ds feed) (hc : conduct.Complete feed dry)
    (hr : dry → Deed.reads ds = input) : feed = conduct.rows input := by
  rcases conduct with rows | verdict
  · exact hc
  · exact Eq.trans h (hr hc)

theorem Conduct.Feeds.congr {conduct : Conduct} {ds later : List Deed} {feed : List Entry}
    (h : conduct.Feeds ds feed) (hr : Deed.reads later = Deed.reads ds) :
    conduct.Feeds later feed := by
  unfold Feeds at h ⊢
  rw [hr]
  exact h

theorem Conduct.Complete.imp {conduct : Conduct} {feed : List Entry} {dry dry₁ : Prop}
    (h : conduct.Complete feed dry) (hd : dry → dry₁) : conduct.Complete feed dry₁ := by
  unfold Complete at h ⊢
  split at h
  · exact h
  · exact hd h

/-- What a tally stands for: the turn among the outputs and the errors counted, if they matter. -/
structure Marks where
  turn : Nat
  count : Option UInt64

/-- The marks of a worker; errors matter if limits count. -/
def Context.marks (limited : Bool) (s : Shared) (c : Context) : Marks where
  turn := c.nextOutput
  count := if limited then c.errors.map (s.errorCount ·.slot) else none

/-- The tally stands for the marks. -/
structure Tally.Agrees (t : Tally) (m : Marks) : Prop where
  turn : t.turn = m.turn
  errors : ∀ n ∈ m.count, t.errors = n

/-! ### What has been given -/

section Law

variable (r : Role σ) (o : Outlet) (m : Marks) (ds : List Deed)

/-- All rows of the feed are handled, and of what they amount to, the rest is due. -/
structure Owes (feed : List Entry) (due : List (Nat × Entry)) : Prop where
  feeds : r.conduct.Feeds ds feed
  writes : Deed.writes ds ++ due = play (o.deal r.conduct) {} feed
  tally : ∃ t, reach (o.deal r.conduct) {} feed = some t ∧ t.Agrees m

/-- All rows of the feed are handled, and one more is at hand. -/
structure Faces (feed : List Entry) (e : Entry) : Prop where
  feeds : r.conduct.Feeds ds (feed ++ [e])
  writes : Deed.writes ds = play (o.deal r.conduct) {} feed
  tally : ∃ t, reach (o.deal r.conduct) {} feed = some t ∧ t.Agrees m

/-- What has been given is no more than should be. -/
def Loses : Prop :=
  ∃ feed, r.conduct.Feeds ds feed ∧ Deed.writes ds <+: play (o.deal r.conduct) {} feed

/-- A stop error that ends a call or a diversion has been the answer to an operation. -/
def StopGiven (err : TransformError) : Prop :=
  err.isStop = true → ∃ e, Deed.refused e ∈ ds ∧ e.isStop = true

/-- The row is the one that is diverted if the call at hand fails. -/
def Context.Held (c : Context) (e : Entry) : Prop :=
  c.inputLayout = some e.layout ∧ (c.diverts = true → c.currentRow = some e.row)

/-- What the answer of a call says about what has been given. -/
inductive Answers (c : Context) (state : σ) (dry : Prop) : Except TransformError Bool → Prop where
  | more (feed : List Entry) (owes : Owes r o m ds feed []) (ready : r.ready feed state) :
      Answers c state dry (.ok true)
  | exhausted (feed : List Entry) (owes : Owes r o m ds feed [])
      (complete : r.conduct.Complete feed dry) : Answers c state dry (.ok false)
  | bad (feed : List Entry) (e : Entry) (message : String) (field code : Option String)
      (faces : Faces r o m ds feed e) (held : c.Held e)
      (verdict : r.conduct.verdict e = .reject message field code)
      (ready : r.ready (feed ++ [e]) state) : Answers c state dry (.error (.row message field code))
  | lost (err : TransformError) (loses : Loses r o ds) (norow : ∀ m f c, err ≠ .row m f c)
      (stop : StopGiven ds err) : Answers c state dry (.error err)

/-- What a call at any of its points says about what has been given. -/
inductive Activity.Accounts (c : Context) (state : σ) :
    Activity σ (Except TransformError Bool) → Prop where
  | opening (feed : List Entry) (plan : Plan σ (Except TransformError Bool))
      (owes : Owes r o m ds feed []) (opens : plan.Opens r feed state) : Accounts c state (.run plan)
  | reading (feed : List Entry) (stage : ReadStage)
      (next : Option Entry → Plan σ (Except TransformError Bool))
      (owes : Owes r o m ds feed []) (opens : (Plan.read next).Opens r feed state) :
      Accounts c state (.reading stage next)
  | serving (feed : List Entry) (e : Entry) (plan : Plan σ (Except TransformError Bool))
      (faces : Faces r o m ds feed e) (held : ∀ v, r.conduct = .reader v → c.Held e)
      (serves : plan.Serves (r.ready (feed ++ [e])) (r.conduct.verdict e) state) :
      Accounts c state (.run plan)
  | writing (feed : List Entry) (del : Context.Delivery)
      (next : Except TransformError Unit → Plan σ (Except TransformError Bool))
      (owes : Owes r o m ds feed (del.pending.map (·, del.entry)))
      (ok : (next (.ok ())).Settles (r.ready feed) state)
      (error : ∀ err, next (.error err) = .finish (.error err)) :
      Accounts c state (.writing del next)
  | settling (feed : List Entry) (plan : Plan σ (Except TransformError Bool))
      (owes : Owes r o m ds feed []) (settles : plan.Settles (r.ready feed) state) :
      Accounts c state (.run plan)
  | ending (answer : Except TransformError Bool)
      (answers : Answers r o m ds c state (Deed.callIsDry ds) answer) :
      Accounts c state (.run (.finish answer))
  | ended (answer : Except TransformError Bool)
      (answers : Answers r o m ds c state (Deed.callIsDry ds) answer) : Accounts c state (.done answer)
  | broken (p : Panic) (loses : Loses r o ds) : Accounts c state (.broken p)

/-- What the end of a diversion says about what has been given. -/
inductive Redirected (state : σ) : Except TransformError Unit → Prop where
  | ok (feed : List Entry) (owes : Owes r o m ds feed []) (ready : r.ready feed state) :
      Redirected state (.ok ())
  | lost (err : TransformError) (loses : Loses r o ds) (stop : StopGiven ds err) :
      Redirected state (.error err)

/-- What the diversion of a row at any of its points says about what has been given. -/
inductive Activity.Redirects (state : σ) : Activity σ (Except TransformError Unit) → Prop where
  | starting (feed : List Entry) (e : Entry) (message : String) (field code : Option String)
      (faces : Faces r o m ds feed e)
      (verdict : r.conduct.verdict e = .reject message field code)
      (ready : r.ready (feed ++ [e]) state) :
      Redirects state (.run (.divert e (.ofRow message field code) .finish))
  | writing (feed : List Entry) (del : Context.Delivery)
      (owes : Owes r o m ds feed (del.pending.map (·, del.entry))) (ready : r.ready feed state) :
      Redirects state (.writing del .finish)
  | ending (answer : Except TransformError Unit) (end_ : Redirected r o m ds state answer) :
      Redirects state (.run (.finish answer))
  | ended (answer : Except TransformError Unit) (end_ : Redirected r o m ds state answer) :
      Redirects state (.done answer)
  | broken (p : Panic) (loses : Loses r o ds) : Redirects state (.broken p)

/-- A worker that has left: it has not given too much, and with status `Done` it has handled all of
its rows. -/
structure Closed : Prop where
  loses : Loses r o ds
  done : Deed.left .done ∈ ds → ∃ feed t, r.conduct.Feeds ds feed ∧
    Deed.writes ds = play (o.deal r.conduct) {} feed ∧
    reach (o.deal r.conduct) {} feed = some t ∧ r.conduct.Complete feed (Deed.endedDry ds)

/-- What the phase of a worker says about what it has given. -/
def Phase.Accounts (c : Context) (state : σ) : Phase σ → Prop
  | .initializing _ | .initialized _ => False
  | .starting | .checking => ∃ feed, Owes r o m ds feed [] ∧ r.ready feed state
  | .working a => a.Accounts r o m ds c state
  | .judging answer => Answers r o m ds c state (Deed.endedDry ds) answer
  | .diverting _ a => a.Redirects r o m ds state
  | .failing _ | .crashed _ => Loses r o ds
  | .disposing _ a => Closed r o ds ∧ (a = .run (.finish ()) ∨ a = .done ())
  | _ => Closed r o ds

end Law

/-! ### What deeds do to an account -/

theorem Deed.reads_cons {d : Deed} {ds : List Deed} (hd : ∀ i e, d ≠ .took i e) :
    reads (d :: ds) = reads ds := by
  cases d
  case took i e => exact absurd rfl (hd i e)
  all_goals rfl

section Transfer

variable {r : Role σ} {o : Outlet} {m : Marks} {ds later : List Deed} {feed : List Entry}
  {due : List (Nat × Entry)} {e : Entry}

theorem Owes.transfer (h : Owes r o m ds feed due) {m₁ : Marks} (hm : m₁ = m)
    (hr : Deed.reads later = Deed.reads ds) {rest : List (Nat × Entry)}
    (hw : Deed.writes later ++ rest = Deed.writes ds ++ due) : Owes r o m₁ later feed rest := by
  subst hm
  exact ⟨h.feeds.congr hr, hw.trans h.writes, h.tally⟩

theorem Owes.loses (h : Owes r o m ds feed due) (hr : Deed.reads later = Deed.reads ds)
    (hw : Deed.writes later = Deed.writes ds) : Loses r o later :=
  ⟨feed, h.feeds.congr hr, by rw [hw, ← h.writes]; exact List.prefix_append _ _⟩

theorem Faces.loses (h : Faces r o m ds feed e) (hr : Deed.reads later = Deed.reads ds)
    (hw : Deed.writes later = Deed.writes ds) : Loses r o later :=
  ⟨feed ++ [e], h.feeds.congr hr, by rw [hw, h.writes]; exact play_mono _ (List.prefix_append _ _)⟩

theorem Loses.transfer (h : Loses r o ds) (hr : Deed.reads later = Deed.reads ds)
    (hw : Deed.writes later = Deed.writes ds) : Loses r o later := by
  obtain ⟨feed, hf, hp⟩ := h
  exact ⟨feed, hf.congr hr, by rwa [hw]⟩

theorem Faces.owes (h : Faces r o m ds feed e) {m₁ : Marks}
    (hemit : ∀ t : Tally, t.Agrees m → ∃ u, o.deal r.conduct t e = some (u, due) ∧ u.Agrees m₁) :
    Owes r o m₁ ds (feed ++ [e]) due := by
  obtain ⟨t, ht, hagrees⟩ := h.tally
  obtain ⟨u, hu, hagrees₁⟩ := hemit t hagrees
  obtain ⟨hplay, hreach⟩ := play_snoc ht hu
  exact ⟨h.feeds, by rw [hplay, h.writes], u, hreach, hagrees₁⟩

end Transfer

/-! ### What operations do to an account -/

section Operations

variable {r : Role σ} {o : Outlet} {limited : Bool} {s : Shared} {c : Context} {ds : List Deed}
  {feed : List Entry} {e : Entry}

/-- What of a context its outlet is made of. -/
theorem Context.outlet_congr {c c' : Context} (hspec : c'.spec = c.spec)
    (hout : c'.outputs = c.outputs)
    (herr : c'.errors.map ErrorRoute.fixed = c.errors.map ErrorRoute.fixed) :
    c'.outlet limited = c.outlet limited := by
  have herr : c'.errors.map (fun r => (r.rowSet, r.diversion.handling)) =
      c.errors.map fun r => (r.rowSet, r.diversion.handling) := by
    have := congrArg (Option.map fun x : Nat × Nat × String × ErrorHandling => (x.1, x.2.2.2)) herr
    simpa only [Option.map_map, Function.comp_def, ErrorRoute.fixed] using this
  unfold Context.outlet
  rw [hspec, hout, herr]

theorem Context.Leads.outlet {s : Shared} {c c' : Context} (h : c.Leads s c') :
    c'.outlet limited = c.outlet limited := outlet_congr h.spec h.outputs h.errors

theorem Context.Wired.outlet {p : Pipeline} {s : Shared} {c c₀ : Context} (h : c.Wired p s)
    (hc₀ : p.context? c.key = some c₀) :
    c.spec = c₀.spec ∧ c.outlet limited = c₀.outlet limited := by
  obtain ⟨c₁, hc₁, hspec, hout, herr⟩ := h.origin
  rw [hc₀] at hc₁
  cases hc₁
  exact ⟨hspec, outlet_congr hspec hout herr⟩

theorem Faces.startWrite (h : Faces r (c.outlet limited) (c.marks limited s) ds feed e)
    {out : Entry} (hv : r.conduct.verdict e = .pass out) :
    (∃ err, (c.startWrite out).2 = .error err ∧ err.IsFatal) ∨
    ∃ del, (c.startWrite out).2 = .ok del ∧
      Owes r (c.outlet limited) ((c.startWrite out).1.marks limited s) ds (feed ++ [e])
        (del.pending.map (·, del.entry)) := by
  have hemit : ∀ t, (c.outlet limited).deal r.conduct t e = (c.outlet limited).emit t e (.pass out) := by
    intro t
    rw [Outlet.deal, hv]
  rcases Context.startWrite_cases c out with ⟨-, hw⟩ | ⟨hsize, ⟨hm, hw⟩ | ⟨hm, ho, hw⟩ | ⟨t, i, hm, ho, hw⟩⟩ <;>
    rw [hw]
  · exact Or.inl ⟨_, rfl, rfl, fun m f c => by simp⟩
  all_goals refine Or.inr ⟨_, rfl, h.owes fun tally hagrees => ?_⟩
  all_goals
    rw [hemit, Outlet.emit, if_pos hsize, show (c.outlet limited).movement = c.spec.movement from rfl,
      hm]
  · exact ⟨tally, by simp [Context.outlet], hagrees⟩
  · refine ⟨tally, ?_, hagrees⟩
    dsimp only [Context.outlet]
    rw [hagrees.turn, show (c.marks limited s).turn = c.nextOutput from rfl, ho]
    rfl
  · refine ⟨{ tally with turn := c.nextOutput % c.outputs.length + 1 }, ?_, rfl, hagrees.errors⟩
    dsimp only [Context.outlet]
    rw [hagrees.turn, show (c.marks limited s).turn = c.nextOutput from rfl, ho]
    rfl

theorem Faces.startWriteTo (h : Faces r (c.outlet limited) (c.marks limited s) ds feed e)
    {target : String} {out : Entry} (hv : r.conduct.verdict e = .send target out) :
    (∃ err, c.startWriteTo target out = .error err ∧ err.IsFatal) ∨
    ∃ del, c.startWriteTo target out = .ok del ∧
      Owes r (c.outlet limited) (c.marks limited s) ds (feed ++ [e])
        (del.pending.map (·, del.entry)) := by
  rcases Context.startWriteTo_cases c target out with ⟨-, hw⟩ | ⟨hsize, ⟨-, hw⟩ | ⟨t, i, ho, hw⟩⟩ <;>
    rw [hw]
  · exact Or.inl ⟨_, rfl, rfl, fun m f c => by simp⟩
  · exact Or.inl ⟨_, rfl, rfl, fun m f c => by simp⟩
  · refine Or.inr ⟨_, rfl, h.owes fun tally hagrees => ⟨tally, ?_, hagrees⟩⟩
    rw [Outlet.deal, hv, Outlet.emit, if_pos hsize]
    dsimp only [Context.outlet]
    rw [ho]
    rfl

theorem Faces.startDivert (h : Faces r (c.outlet limited) (c.marks limited s) ds feed e)
    (hc : c.Coherent) (hslot : ∀ x ∈ c.errors, x.slot < s.errorCounts.size) {message : String}
    {field code : Option String} (hv : r.conduct.verdict e = .reject message field code) :
    (∃ p, (c.startDivert s e (.ofRow message field code)).2.2 = .error p) ∨
    (∃ err, (c.startDivert s e (.ofRow message field code)).2.2 = .ok (.error err) ∧
      err.isStop = false) ∨
    ∃ del, (c.startDivert s e (.ofRow message field code)).2.2 = .ok (.ok del) ∧
      Owes r (c.outlet limited)
        ((c.startDivert s e (.ofRow message field code)).2.1.marks limited
          (c.startDivert s e (.ofRow message field code)).1) ds (feed ++ [e])
        (del.pending.map (·, del.entry)) := by
  rcases Context.startDivert_cases c s e (.ofRow message field code) with ⟨-, hw⟩ |
    ⟨route, maximum, next, -, -, hw⟩ | ⟨route, -, -, hw⟩ | ⟨route, count, hr, hcount, hw⟩ <;> rw [hw]
  · exact Or.inr (Or.inl ⟨_, rfl, rfl⟩)
  · exact Or.inr (Or.inl ⟨_, rfl, rfl⟩)
  · exact Or.inl ⟨_, rfl⟩
  · have hroute : route ∈ c.errors := hr
    have hlayout := (Context.layoutFor_coherent (hc route hroute) e.layout).1
    refine Or.inr (Or.inr ⟨_, rfl, h.owes fun tally hagrees => ?_⟩)
    have herrors : (c.outlet limited).errors = some (route.rowSet, route.diversion.handling) := by
      unfold Context.outlet
      rw [hr]
      rfl
    rw [Outlet.deal, hv, Outlet.emit, herrors]
    rcases limited with _ | _
    · refine ⟨tally, ?_, hagrees.turn, fun n hn => (by cases hn)⟩
      dsimp only [Outlet.count, Context.outlet, Bool.false_eq_true, if_false]
      rw [hlayout]
      rfl
    · have herr : tally.errors = s.errorCount route.slot := by
        refine hagrees.errors _ ?_
        show _ ∈ c.errors.map _
        rw [hr]
        rfl
      refine ⟨{ tally with errors := count }, ?_, hagrees.turn, ?_⟩
      · dsimp only [Outlet.count, Context.outlet, if_true]
        rw [herr, hcount, hlayout]
        rfl
      · rintro n ⟨⟩
        unfold Shared.errorCount
        dsimp only
        rw [Array.getElem?_setIfInBounds_self_of_lt (hslot route hroute)]
        rfl

end Operations

/-! ### Calls -/

section Calls

variable {r : Role σ} {limited : Bool} {s s' : Shared} {c c' : Context} {ds : List Deed}
  {state : σ}

theorem Context.marks_congr (hturn : c'.nextOutput = c.nextOutput) (herr : c'.errors = c.errors)
    (hs : s'.errorCounts = s.errorCounts) : c'.marks limited s' = c.marks limited s := by
  unfold Context.marks Shared.errorCount
  rw [hturn, herr, hs]

theorem Activity.Accounts.startDelivery {o : Outlet} {m : Marks} {feed : List Entry}
    {res : Except TransformError Context.Delivery}
    {next : Except TransformError Unit → Plan σ (Except TransformError Bool)}
    (hres : (∃ err, res = .error err ∧ err.IsFatal) ∨
      ∃ del, res = .ok del ∧ Owes r o m ds feed (del.pending.map (·, del.entry)))
    (hloses : Loses r o ds) (ok : (next (.ok ())).Settles (r.ready feed) state)
    (error : ∀ err, next (.error err) = .finish (.error err)) (d : Activity.Desk σ) :
    (Activity.startDelivery d res next).2.Accounts r o m ((Deed.ofRefusal res).toList ++ ds) c
      state := by
  rcases hres with ⟨err, rfl, hfatal⟩ | ⟨del, rfl, howes⟩
  · dsimp only [Activity.startDelivery, Deed.ofRefusal]
    rw [error]
    refine .ending _ (.lost err (hloses.transfer rfl rfl) hfatal.no_row fun hs => ?_)
    rw [hfatal.no_stop] at hs
    cases hs
  · exact .writing feed del next howes ok error

/-- A step of a call that acts on the row at hand. -/
theorem Activity.Accounts.serve {plan : Plan σ (Except TransformError Bool)} {feed : List Entry}
    {e : Entry} (faces : Faces r (c.outlet limited) (c.marks limited s) ds feed e)
    (held : ∀ v, r.conduct = .reader v → c.Held e)
    (serves : plan.Serves (r.ready (feed ++ [e])) (r.conduct.verdict e) state) :
    ((Activity.run plan).step ⟨s, c, state⟩).2.Accounts r (c.outlet limited)
      (((Activity.run plan).step ⟨s, c, state⟩).1.context.marks limited
        ((Activity.run plan).step ⟨s, c, state⟩).1.shared)
      (((Activity.run plan).deed? s c).toList ++ ds)
      ((Activity.run plan).step ⟨s, c, state⟩).1.context
      ((Activity.run plan).step ⟨s, c, state⟩).1.state := by
  generalize hv : r.conduct.verdict e = v at serves
  cases serves
  case pass out next error ok =>
    simp only [Activity.step, Activity.stepPlan, startDelivery_desk]
    exact .startDelivery (faces.startWrite hv) (faces.loses rfl rfl) ok error _
  case send target out next error ok =>
    simp only [Activity.step, Activity.stepPlan, startDelivery_desk]
    exact .startDelivery (faces.startWriteTo hv) (faces.loses rfl rfl) ok error _
  case drop now =>
    refine .ended _ (.more (feed ++ [e]) (faces.owes fun t ht => ⟨t, ?_, ht⟩) now)
    rw [Outlet.deal, hv]
    rfl
  case reject message field code now =>
    have hheld : c.Held e := by
      rcases hc : r.conduct with rows | verdict
      · rw [hc] at hv
        cases hv
      · exact held verdict hc
    exact .ended _ (.bad feed e message field code faces hheld hv now)
  case fail err fatal =>
    refine .ended _ (.lost err (faces.loses rfl rfl) fatal.no_row fun hs => ?_)
    rw [fatal.no_stop] at hs
    cases hs
  case save saved next rest => exact .serving feed e next faces held (hv ▸ rest)
  case look next rest => exact .serving feed e _ faces held (hv ▸ rest _)
  case report m next rest => exact .serving feed e next faces held (hv ▸ rest)

theorem Activity.Accounts.read {d : Option Deed} {feed : List Entry}
    {next : Option Entry → Plan σ (Except TransformError Bool)}
    {a : Activity σ (Except TransformError Bool)}
    (owes : Owes r (c.outlet limited) (c.marks limited s) ds feed [])
    (opens : (Plan.read next).Opens r feed state) (h : Activity.ReadStep s c next d s' c' a) :
    a.Accounts r (c.outlet limited) (c'.marks limited s') (d.toList ++ ds) c' state := by
  obtain ⟨verdict, kind, dry, row⟩ : ∃ verdict, r.conduct = .reader verdict ∧
      next none = .finish (.ok false) ∧
      ∀ e, (next (some e)).Serves (r.ready (feed ++ [e])) (verdict e) state := by
    cases opens
    case read verdict kind dry row => exact ⟨verdict, kind, dry, row⟩
    case emit row => cases row
  have hfeed : feed = Deed.reads ds := by
    have := owes.feeds
    rwa [kind] at this
  have htook : ∀ {i e}, r.conduct.Feeds (.took i e :: ds) (feed ++ [e]) := by
    intro i e
    rw [kind, hfeed]
    rfl
  cases h
  case on inputs turn stage _ _ => exact .reading feed stage next owes opens
  case dry =>
    rw [dry]
    refine .ending _ (.exhausted feed ⟨owes.feeds.congr rfl, owes.writes, owes.tally⟩ ?_)
    rw [kind]
    trivial
  case row i e turn counters input found _ same =>
    have hmarks : Context.marks limited s' { c with
        nextInput := turn
        counters
        currentRow := if c.diverts then some e.row else c.currentRow
        inputLayout := some e.layout } = c.marks limited s :=
      Context.marks_congr rfl rfl same.errorCounts
    refine .serving feed e _ ⟨htook, ?_, ?_⟩ (fun _ _ => ⟨rfl, fun hd => if_pos hd⟩) ?_
    · rw [← owes.writes, List.append_nil]
      rfl
    · rw [hmarks]
      exact owes.tally
    · rw [kind]
      exact row e
  case broken i e turn counters p input found _ same =>
    refine .broken p ⟨feed ++ [e], htook, ?_⟩
    have hw : Deed.writes (.took i e :: ds) = play ((c.outlet limited).deal r.conduct) {} feed := by
      rw [← owes.writes, List.append_nil]
      rfl
    rw [Option.toList_some, List.singleton_append, hw]
    exact play_mono _ (List.prefix_append _ _)

/-- What a step of a delivery leaves due. -/
theorem Owes.deliver {o : Outlet} {d : Option Deed} {feed : List Entry}
    {del : Context.Delivery} {res : Context.Progress}
    (owes : Owes r o (c.marks limited s) ds feed (del.pending.map (·, del.entry)))
    (h : Context.Delivered s c del d s' c' res) :
    (∃ del₁, res = .pending del₁ ∧ Owes r o (c'.marks limited s') (d.toList ++ ds) feed
      (del₁.pending.map (·, del₁.entry))) ∨
    (res.IsOver ∧ Owes r o (c'.marks limited s') (d.toList ++ ds) feed []) ∨
    ∃ err, res = .answered (.error err) ∧ Loses r o (d.toList ++ ds) ∧
      (∀ m f k, err ≠ .row m f k) ∧ StopGiven (d.toList ++ ds) err := by
  cases h
  case full => exact Or.inl ⟨del, rfl, owes⟩
  case refused i rest err pending found =>
    refine Or.inr (Or.inr ⟨_, rfl, owes.loses rfl rfl, fun m f k => ?_, fun hs => ?_⟩)
    · rcases del.purpose with _ | why <;> exact fun h => by cases h
    · exact ⟨_, List.mem_cons_self, hs⟩
  case partly i j rest pending found =>
    refine Or.inl ⟨_, rfl, owes.transfer ?_ ?_ ?_⟩
    · exact Context.marks_congr rfl rfl rfl
    · rfl
    · rw [pending]
      exact List.append_assoc _ _ _
  case last i counters pending found same ended _ =>
    refine Or.inr (Or.inl ⟨ended, owes.transfer ?_ ?_ ?_⟩)
    · exact Context.marks_congr rfl rfl same.errorCounts
    · rfl
    · rw [pending, List.append_nil]
      rfl
  case nowhere counters pending same ended _ =>
    refine Or.inr (Or.inl ⟨ended, owes.transfer ?_ ?_ ?_⟩)
    · exact Context.marks_congr rfl rfl same.errorCounts
    · rfl
    · rw [pending]
      rfl

/-- **A step of a call** keeps the account. -/
theorem Activity.Accounts.step {a : Activity σ (Except TransformError Bool)}
    (ha : a.Accounts r (c.outlet limited) (c.marks limited s) ds c state) :
    (a.step ⟨s, c, state⟩).2.Accounts r (c.outlet limited)
      ((a.step ⟨s, c, state⟩).1.context.marks limited (a.step ⟨s, c, state⟩).1.shared)
      ((a.deed? s c).toList ++ ds) (a.step ⟨s, c, state⟩).1.context
      (a.step ⟨s, c, state⟩).1.state := by
  cases ha
  case opening feed plan owes opens =>
    have hopens := opens
    cases opens
    case read => exact .reading feed .check _ owes hopens
    case emit rows e kind more row =>
      have hfaces : Faces r (c.outlet limited) (c.marks limited s) ds feed e := by
        refine ⟨?_, by rw [← owes.writes, List.append_nil], owes.tally⟩
        have := owes.feeds
        rw [kind] at this ⊢
        exact ⟨more, this.2⟩
      refine .serve hfaces (fun v hv => ?_) ?_
      · rw [kind] at hv
        cases hv
      · rw [kind]
        exact row
    case exhausted rows kind all =>
      refine .ended _ (.exhausted feed owes ?_)
      rw [kind]
      exact all
  case reading feed stage next owes opens =>
    obtain ⟨hstate, hstep⟩ := Activity.stepRead_spec ⟨s, c, state⟩ stage next
    dsimp only [Activity.step]
    rw [hstate]
    exact .read owes opens hstep
  case serving feed e plan faces held serves => exact .serve faces held serves
  case writing feed del next owes ok error =>
    have hstep := Context.deliver_spec c s del
    simp only [Activity.step, Activity.deed?]
    rcases hd : c.deliver s del with ⟨s', c', res⟩
    rw [hd] at hstep
    rcases owes.deliver hstep with ⟨del₁, rfl, howes⟩ | ⟨hover, howes⟩ | ⟨err, rfl, hloses, hrow, hstop⟩
    · exact .writing feed del₁ next howes ok error
    · rcases hover with rfl | ⟨p, rfl⟩
      · exact .settling feed _ howes ok
      · exact .broken p (howes.loses rfl rfl)
    · dsimp only
      rw [error]
      exact .ending _ (.lost err hloses hrow hstop)
  case settling feed plan owes settles =>
    cases settles
    case finish now => exact .ended _ (.more feed owes now)
    case save saved next rest => exact .settling feed next owes rest
  case ending answer answers => exact .ended answer answers
  case ended answer answers => exact .ended answer answers
  case broken p loses => exact .broken p loses

/-- **A step of a diversion** keeps the account. -/
theorem Activity.Redirects.step {a : Activity σ (Except TransformError Unit)}
    (ha : a.Redirects r (c.outlet limited) (c.marks limited s) ds state) (hc : c.Coherent)
    (hslot : ∀ x ∈ c.errors, x.slot < s.errorCounts.size) :
    (a.step ⟨s, c, state⟩).2.Redirects r (c.outlet limited)
      ((a.step ⟨s, c, state⟩).1.context.marks limited (a.step ⟨s, c, state⟩).1.shared)
      ((a.deed? s c).toList ++ ds) (a.step ⟨s, c, state⟩).1.state := by
  cases ha
  case starting feed e message field code faces verdict ready =>
    simp only [Activity.step, Activity.stepPlan, startDiversion_desk, Activity.deed?]
    rcases faces.startDivert hc hslot verdict with ⟨p, hp⟩ | ⟨err, he, hstop⟩ | ⟨del, hd, howes⟩
    · rw [hp]
      exact .broken p (faces.loses rfl rfl)
    · rw [he]
      refine .ending _ (.lost err (faces.loses rfl rfl) fun hs => ?_)
      rw [hstop] at hs
      cases hs
    · rw [hd]
      exact .writing (feed ++ [e]) del howes ready
  case writing feed del owes ready =>
    have hstep := Context.deliver_spec c s del
    simp only [Activity.step, Activity.deed?]
    rcases hd : c.deliver s del with ⟨s', c', res⟩
    rw [hd] at hstep
    rcases owes.deliver hstep with ⟨del₁, rfl, howes⟩ | ⟨hover, howes⟩ | ⟨err, rfl, hloses, -, hstop⟩
    · exact .writing feed del₁ howes ready
    · rcases hover with rfl | ⟨p, rfl⟩
      · exact .ending _ (.ok feed howes ready)
      · exact .broken p (howes.loses rfl rfl)
    · exact .ending _ (.lost err hloses hstop)
  case ending answer h => exact .ended answer h
  case ended answer h => exact .ended answer h
  case broken p loses => exact .broken p loses

end Calls

/-! ### Workers -/

section Workers

variable {r : Role σ} {o : Outlet} {m : Marks} {ds : List Deed} {c : Context} {state : σ}

theorem Answers.loses {dry : Prop} {answer : Except TransformError Bool}
    (h : Answers r o m ds c state dry answer) : Loses r o ds := by
  cases h
  case more feed owes _ => exact owes.loses rfl rfl
  case exhausted feed owes _ => exact owes.loses rfl rfl
  case bad faces _ _ _ => exact faces.loses rfl rfl
  case lost loses _ _ => exact loses

theorem Activity.Accounts.loses {a : Activity σ (Except TransformError Bool)}
    (h : a.Accounts r o m ds c state) : Loses r o ds := by
  cases h
  case opening owes _ => exact owes.loses rfl rfl
  case reading owes _ => exact owes.loses rfl rfl
  case serving faces _ _ => exact faces.loses rfl rfl
  case writing owes _ _ => exact owes.loses rfl rfl
  case settling owes _ => exact owes.loses rfl rfl
  case ending answers => exact answers.loses
  case ended answers => exact answers.loses
  case broken loses => exact loses

theorem Answers.answered {answer : Except TransformError Bool}
    (h : Answers r o m ds c state (Deed.callIsDry ds) answer) :
    Answers r o m (.answered answer :: ds) c state (Deed.endedDry (.answered answer :: ds))
      answer := by
  cases h
  case more feed owes ready =>
    exact .more feed ⟨owes.feeds.congr rfl, owes.writes, owes.tally⟩ ready
  case exhausted feed owes complete =>
    exact .exhausted feed ⟨owes.feeds.congr rfl, owes.writes, owes.tally⟩
      (complete.imp fun hdry => ⟨rfl, hdry⟩)
  case bad feed e message field code faces held verdict ready =>
    exact .bad feed e message field code ⟨faces.feeds.congr rfl, faces.writes, faces.tally⟩ held
      verdict ready
  case lost err loses norow stop =>
    refine .lost err (loses.transfer rfl rfl) norow fun hs => ?_
    obtain ⟨e, he, hs⟩ := stop hs
    exact ⟨e, List.mem_cons_of_mem _ he, hs⟩

theorem Redirected.loses {answer : Except TransformError Unit}
    (h : Redirected r o m ds state answer) : Loses r o ds := by
  cases h
  case ok feed owes _ => exact owes.loses rfl rfl
  case lost loses _ => exact loses

theorem Activity.Redirects.loses {a : Activity σ (Except TransformError Unit)}
    (h : a.Redirects r o m ds state) : Loses r o ds := by
  cases h
  case starting faces _ _ => exact faces.loses rfl rfl
  case writing owes _ => exact owes.loses rfl rfl
  case ending end_ => exact end_.loses
  case ended end_ => exact end_.loses
  case broken loses => exact loses

/-- Whatever a worker is about, it has not given too much. -/
theorem Phase.Accounts.loses {phase : Phase σ} (h : phase.Accounts r o m ds c state) :
    Loses r o ds := by
  cases phase
  case initializing => exact absurd h id
  case initialized => exact absurd h id
  case starting =>
    obtain ⟨feed, owes, -⟩ := h
    exact owes.loses rfl rfl
  case checking =>
    obtain ⟨feed, owes, -⟩ := h
    exact owes.loses rfl rfl
  case working => exact Activity.Accounts.loses h
  case judging => exact Answers.loses h
  case diverting => exact Activity.Redirects.loses h
  case failing => exact h
  case crashed => exact h
  case disposing => exact h.1.loses
  all_goals exact Closed.loses h

/-- A worker that has left has closed its account. -/
theorem Phase.Accounts.closed {s : Shared} {h : List (WorkerKey × Deed)} {phase : Phase σ}
    (hx : phase.Accounts r o m ds c state) (hstands : phase.Stands s h c ds) {st : WorkerStatus}
    (hl : Deed.left st ∈ ds) : Closed r o ds := by
  cases phase
  case initializing => exact absurd hx id
  case initialized => exact absurd hx id
  case starting => exact absurd hl (hstands.stays st)
  case checking => exact absurd hl (hstands.stays st)
  case working => exact absurd hl (hstands.1.stays st)
  case judging => exact absurd hl (hstands.1.stays st)
  case diverting => exact absurd hl (hstands.1.stays st)
  case failing => exact absurd hl (hstands.stays st)
  case crashed => exact absurd hl (hstands.stays st)
  case disposing => exact hx.1
  all_goals exact hx

theorem Loses.leave (h : Loses r o ds) (hin : ∀ st, Deed.left st ∉ ds) {st : WorkerStatus}
    (hdone : st = .done → ∃ feed t, r.conduct.Feeds ds feed ∧
      Deed.writes ds = play (o.deal r.conduct) {} feed ∧
      reach (o.deal r.conduct) {} feed = some t ∧ r.conduct.Complete feed (Deed.endedDry ds)) :
    Closed r o (.left st :: ds) := by
  refine ⟨h.transfer rfl rfl, fun hm => ?_⟩
  rcases List.mem_cons.mp hm with he | hm
  · cases he
    obtain ⟨feed, t, h1, h2, h3, h4⟩ := hdone rfl
    exact ⟨feed, t, h1.congr rfl, h2, h3, h4⟩
  · exact absurd hm (hin _)

/-- A worker that has left does nothing that matters. -/
theorem Closed.after (h : Closed r o ds) {d : Deed}
    (hd : (∃ i, d = .closed i) ∨ ∃ summary, d = .sent summary) : Closed r o (d :: ds) := by
  rcases hd with ⟨i, rfl⟩ | ⟨summary, rfl⟩
  all_goals
    refine ⟨h.loses.transfer rfl rfl, fun hm => ?_⟩
    obtain ⟨feed, t, h1, h2, h3, h4⟩ := h.done (by simpa using hm)
    exact ⟨feed, t, h1.congr rfl, h2, h3, h4⟩

variable [Transform σ] {limited : Bool} {s : Shared} {p : Pipeline} {h : List (WorkerKey × Deed)}
  {x : Worker σ}

/-- **A step of a worker** whose transform plays a role keeps its account. -/
theorem Worker.accounts_step (conforms : r.Conforms) (hkept : x.Kept p s h)
    (hc : x.context.Coherent) (hslot : ∀ e ∈ x.context.errors, e.slot < s.errorCounts.size)
    (hx : x.phase.Accounts r (x.context.outlet limited) (x.context.marks limited s)
      (Course.deedsOf x.key h) x.context x.state) :
    (x.step s).2.phase.Accounts r (x.context.outlet limited)
      ((x.step s).2.context.marks limited (x.step s).1)
      ((x.deed? s).toList ++ Course.deedsOf x.key h) (x.step s).2.context (x.step s).2.state := by
  have hstands := hkept.stands
  have hmoves := x.step_moves s
  generalize Course.deedsOf x.key h = ds at hx hstands ⊢
  generalize x.deed? s = d, (x.step s).1 = s', (x.step s).2 = y at hmoves ⊢
  obtain ⟨c, state, phase⟩ := x
  have hstay : ∀ {s' : Shared}, s'.errorCounts = s.errorCounts → ∀ {feed due},
      Owes r (c.outlet limited) (c.marks limited s) ds feed due →
      Owes r (c.outlet limited) (c.marks limited s') ds feed due := by
    intro s' hs feed due howes
    rw [Context.marks_congr rfl rfl hs]
    exact howes
  cases hmoves
  case initializing => exact absurd hx id
  case initialized => exact absurd hx id
  case uninitialized => exact absurd hx id
  case waits => exact absurd hx id
  case starts =>
    obtain ⟨feed, howes, hready⟩ := hx
    exact ⟨feed, hstay rfl howes, hready⟩
  case stops =>
    obtain ⟨feed, howes, -⟩ := hx
    have hin : Inside s c ds := hstands
    exact (howes.loses rfl rfl).leave hin.stays fun he => by cases he
  case begins =>
    obtain ⟨feed, howes, hready⟩ := hx
    exact .opening feed _ ⟨howes.feeds.congr rfl, howes.writes, howes.tally⟩
      (conforms.opens feed state hready)
  case working a _ =>
    have ha : a.Accounts r (c.outlet limited) (c.marks limited s) ds c state := hx
    exact ha.step
  case answers =>
    cases hx
    case ended answers => exact answers.answered
  case panics =>
    cases hx
    case broken loses => exact loses
  case more =>
    cases hx
    case more feed owes ready => exact ⟨feed, owes, ready⟩
  case exhausted =>
    have hans : Answers r (c.outlet limited) (c.marks limited s) ds c state (Deed.endedDry ds)
      (.ok false) := hx
    have hin : Inside s c ds := hstands.1
    refine hans.loses.leave hin.stays fun _ => ?_
    cases hans
    case exhausted feed owes complete =>
      -- the books of a worker that has nothing more to do are balanced
      obtain ⟨t, ht, -⟩ := owes.tally
      exact ⟨feed, t, owes.feeds, by rw [← owes.writes, List.append_nil], ht, complete⟩
  case cut e _ =>
    have hans : Answers r (c.outlet limited) (c.marks limited s) ds c state (Deed.endedDry ds)
      (.error e) := hx
    have hin : Inside s c ds := hstands.1
    exact hans.loses.leave hin.stays fun he => by cases he
  case bad message field code layout row hdiverts hlayout hrow =>
    cases hx
    case bad feed e faces held ready verdict =>
      -- the row that is diverted is the one that has just been read
      obtain ⟨h1, h2⟩ := held
      rw [hlayout] at h1
      rw [hrow] at h2
      cases h1
      cases h2 hdiverts
      exact .starting feed e message field code faces verdict ready
    case lost norow _ => exact absurd rfl (norow message field code)
  case lost message field code _ _ =>
    have hans : Answers r (c.outlet limited) (c.marks limited s) ds c state (Deed.endedDry ds)
      (.error (.row message field code)) := hx
    exact hans.loses
  case failed e _ _ =>
    have hans : Answers r (c.outlet limited) (c.marks limited s) ds c state (Deed.endedDry ds)
      (.error e) := hx
    exact hans.loses
  case diverting message a _ =>
    have ha : a.Redirects r (c.outlet limited) (c.marks limited s) ds state := hx
    exact ha.step hc hslot
  case diverted =>
    cases hx
    case ended hend =>
      cases hend
      case ok feed owes ready => exact ⟨feed, owes, ready⟩
  case interrupted =>
    have hin : Inside s c ds := hstands.1
    cases hx
    case ended hend => exact hend.loses.leave hin.stays fun he => by cases he
  case undiverted =>
    cases hx
    case ended hend => exact hend.loses
  case crashes =>
    cases hx
    case broken loses => exact loses
  case fails =>
    have hin : Inside s c ds := hstands
    exact Loses.leave hx hin.stays fun he => by cases he
  case closes i rest =>
    have hclosed : Closed r (c.outlet limited) ds := hx
    exact hclosed.after (Or.inl ⟨i, rfl⟩)
  case closed => exact ⟨hx, Or.inl (congrArg _ (conforms.quiet state))⟩
  case disposing hgoing =>
    obtain ⟨hclosed, rfl | rfl⟩ := hx
    · exact ⟨hclosed, Or.inr rfl⟩
    · exact absurd hgoing id
  case disposed fate =>
    have hclosed : Closed r (c.outlet limited) ds := hx.1
    cases fate <;> exact hclosed
  case undisposed =>
    obtain ⟨-, ha | ha⟩ := hx <;> cases ha
  case reports => exact hx
  case collapses =>
    have hin : Inside s c ds := hstands
    exact Loses.leave hx hin.stays fun he => by cases he
  case sends summary =>
    have hclosed : Closed r (c.outlet limited) ds := hx
    exact hclosed.after (Or.inr ⟨summary, rfl⟩)
  case ended => exact hx

end Workers

end Rowflow
