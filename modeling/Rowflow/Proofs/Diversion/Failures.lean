import Rowflow.Proofs.Context.Counting
import Rowflow.Proofs.Course.CleanEnd
import Rowflow.Proofs.Diversion.Routing

/-!
# Diversions that fail

A diversion that fails leaves no trace in row sets, counters and listeners. But errors are counted
before the row is sent, and the count is not taken back when the row set refuses the row. So what is
counted for a transform are the errors of the rows that its error row sets have accepted, of those in
transit, and of those that have been lost in this way (`World.Settled`). Only rows that nobody handles,
or that are too many, are not counted.

- `Routing.run_settled`: several diversions by themselves.
- `Course.failed_diversions`: the copies of a transform in a run.
-/

namespace Rowflow

variable {σ : Type} {p : Pipeline} {t : String} {more : Nat}

/-! ### Several diversions by themselves -/

namespace Routing

variable {r : Routing} {slot : Nat}

/-- What is counted at a place: the errors of the rows that have been accepted behind the count, of those
on their way, and so many more. -/
structure Settled (slot more : Nat) (r : Routing) : Prop where
  placed : r.Placed
  settled : (r.errors slot).toNat = r.weight slot + r.inTransit slot + more

/-- The errors of the rows that are lost by some uses, one after the other. -/
def forfeited (slot : Nat) : Routing → List Use → Nat
  | _, [] => 0
  | r, u :: rest => r.forfeit slot u + forfeited slot (r.use u) rest

/-- **A use settles** what it adds, but for what is lost by it. -/
theorem Settled.use (h : r.Settled slot more) (u : Use) :
    (r.use u).Settled slot (more + r.forfeit slot u) := by
  obtain ⟨added, hadds⟩ := use_adds h.placed u slot
  refine ⟨hadds.placed, ?_⟩
  have hbefore := h.settled
  have herrors := hadds.errors
  have haccount := hadds.account
  omega

theorem Settled.after (h : r.Settled slot more) (uses : List Use) :
    (r.after uses).Settled slot (more + r.forfeited slot uses) := by
  induction uses generalizing r more with
  | nil => exact h
  | cons u rest ih =>
    have hnext := ih (h.use u)
    unfold forfeited
    rw [← Nat.add_assoc]
    exact hnext

/-- **What is counted settles** what is accepted, what is on its way and what is lost, whatever is done
with diversions. -/
theorem run_settled (slot : Nat) (uses : List Use) :
    (run uses).Settled slot (forfeited slot {} uses) := by
  have hempty : Settled slot 0 {} := ⟨fun q hq => absurd hq (Array.not_mem_empty q), rfl⟩
  have hrun := hempty.after uses
  rwa [Nat.zero_add] at hrun

/-- Row sets and the stop flag are as they were. -/
structure Untouched (r r' : Routing) : Prop where
  rowSets : r'.routers.map (·.rowSet) = r.routers.map (·.rowSet)
  stopped : r'.stopped = r.stopped

/-- What a diversion that fails leaves behind. The last look at the row set comes after `last`. A row too
many and a row that does not fit into the count are not counted; but a row that the row set does not take
is, since it is counted before. -/
inductive Failed (r last r' : Routing) (i : Nat) (e : Entry) (why : Diagnosis) : Obstacle → Prop where
  | tooMany {maximum sum : UInt64} (same : r.Untouched r') (count : r'.counts = r.counts) :
      Failed r last r' i e why (.refused (.ceilingExceeded maximum sum))
  | overflows (same : r.Untouched r') (count : r'.counts = r.counts) :
      Failed r last r' i e why (.broken .overflow)
  | lost {error : RowSetError} (calling : r.Untouched (r.call i e why).1)
      (counted : ((r.call i e why).1.count i).toNat = (r.count i).toNat + why.weight.toNat)
      (room : (last.router i).rowSet.admission last.stopped ≠ .room) (same : last.Untouched r')
      (count : r'.counts = last.counts) : Failed r last r' i e why (.refused (.rowSet error))

variable {r' : Routing} {i : Nat}

theorem Changed.untouched {q : Router} (h : r.Changed r' i q) (hq : q.rowSet = (r.router i).rowSet)
    (hstopped : r'.stopped = r.stopped) : r.Untouched r' := by
  refine ⟨?_, hstopped⟩
  rw [h.routers, Array.map_setIfInBounds, hq]
  refine Array.ext_getElem? fun j => ?_
  rw [Array.getElem?_setIfInBounds]
  split
  · subst j
    unfold router
    split
    · rename_i hi
      rw [Array.getElem?_map, Array.getElem?_eq_getElem (by simpa using hi)]
      rfl
    · exact (Array.getElem?_eq_none (Nat.not_lt.mp ‹_›)).symm
  · rfl

theorem untouched_call (r : Routing) (i : Nat) (e : Entry) (why : Diagnosis) :
    r.Untouched (r.call i e why).1 := by
  have hcalled := r.call_called i e why
  generalize (r.call i e why).1 = r', (r.call i e why).2 = answer at hcalled ⊢
  cases hcalled with
  | refused log refusal => exact ⟨rfl, rfl⟩
  | counted allowed changed counts stopped => exact changed.untouched rfl stopped

theorem count_call (hr : r.Placed) (hi : i < r.routers.size) {e : Entry} {why : Diagnosis}
    (hok : (r.call i e why).2 = .ok ()) :
    ((r.call i e why).1.count i).toNat = (r.count i).toNat + why.weight.toNat := by
  have hcalled := r.call_called i e why
  generalize (r.call i e why).1 = r', (r.call i e why).2 = answer at hcalled hok ⊢
  cases hcalled with
  | refused log refusal => cases hok
  | counted allowed changed counts stopped =>
    have hlt : (r.router i).slot < r.counts.size := hr _ (mem_router hi)
    rw [← (ErrorHandling.reserve_ok allowed).1, Routing.count, changed.router_self hi, changed.slot,
      counts, Array.getElem?_setIfInBounds_self_of_lt hlt]
    rfl

theorem failed_of_route (hr : r.Placed) (hi : i < r.routers.size) {e : Entry} {why : Diagnosis}
    {meanwhile : Routing → Routing} {obstacle : Obstacle}
    (h : (r.routeDuring i e why meanwhile).2 = some (.error obstacle)) :
    Failed r (meanwhile (r.call i e why).1) (r.routeDuring i e why meanwhile).1 i e why obstacle := by
  have hcalling := r.untouched_call i e why
  rcases r.routeDuring_cases i e why meanwhile with ⟨obstacle', hrefused, hroute⟩ | ⟨hok, hroute⟩ <;>
    rw [hroute] at h ⊢
  · cases h
    have hcalled := r.call_called i e why
    rw [hrefused] at hcalled
    generalize (r.call i e why).1 = r' at hcalling hcalled ⊢
    cases hcalled with
    | refused log refusal =>
      rcases obstacle with err | p
      · obtain ⟨maximum, sum, rfl, -⟩ := ErrorHandling.reserve_refused refusal
        exact .tooMany hcalling rfl
      · obtain ⟨rfl, -⟩ := ErrorHandling.reserve_broken refusal
        exact .overflows hcalling rfl
  · have hcounted := count_call hr hi hok
    generalize meanwhile (r.call i e why).1 = last at h ⊢
    have hsent := last.send_sent i
    generalize (last.send i).1 = r', (last.send i).2 = answer at hsent h ⊢
    cases hsent with
    | waits => cases h
    | taken inside sending changed counts => cases h
    | lost inside room changed counts stopped =>
      cases h
      exact .lost hcalling hcounted room (changed.untouched rfl stopped) counts

end Routing

/-! ### Worlds -/

/-- As long as its error row set is open and nobody has stopped the run, a copy loses nothing. -/
theorem Worker.Bound.forfeit_eq_zero {x : Worker σ} (h : x.Bound p) {s : Shared}
    (hs : s.stopped = false) (hopen : ∀ i, x.context.errors.map (·.rowSet) = some i → s.done i = false) :
    x.forfeit t s = 0 := by
  have hlost : ∀ err, x.deed? s = some (.refused err) → x.phase.transit? = none := by
    intro err hd
    rw [Phase.transit?_eq]
    rcases hdel : x.phase.delivery? with _ | del
    · rfl
    rcases hpurpose : del.purpose with _ | why
    · rw [Option.bind_some, hpurpose]
      rfl
    have hfits : x.context.Fits del :=
      Phase.of_delivery h.fits (P := x.context.Fits) (fun ha => Activity.fits_delivery ha) del hdel
    unfold Context.Fits at hfits
    rw [hpurpose] at hfits
    obtain ⟨-, i, hi, hpending⟩ := hfits
    cases Worker.undeliverable_of_refused hd del hdel with
    | closed j rest pending done =>
      rw [hpending] at pending
      cases pending
      rw [hopen i hi] at done
      cases done
    | stopped j rest _ found =>
      rw [Shared.stopped_of_admission found] at hs
      cases hs
  unfold forfeit
  split
  · rename_i err hd
    unfold load
    rw [hlost err hd]
    exact ite_self 0
  · rfl

namespace World

/-- What is counted for a transform: the errors of the rows that its error row sets have accepted and of
those that its copies have in transit, and so many more. -/
def Settled (p : Pipeline) (t : String) (more : Nat) (w : World σ) : Prop :=
  (w.shared.errorCount (p.slot t)).toNat =
    w.shared.weight (p.errorPlaces (·.id = t)) + w.inTransit t + more

variable {w w' : World σ}

theorem Settled.congr (h : w.Settled p t more)
    (hcount : w'.shared.errorCount (p.slot t) = w.shared.errorCount (p.slot t))
    (hweight : w'.shared.weight (p.errorPlaces (·.id = t)) =
      w.shared.weight (p.errorPlaces (·.id = t)))
    (htransit : w'.inTransit t = w.inTransit t) : w'.Settled p t more := by
  unfold Settled
  rw [hcount, hweight, htransit]
  exact h

/-- **A step settles** what it adds, but for what is lost by it. -/
theorem Settled.step [Transform σ] (hp : p.WellFormed) (h : w.Settled p t more) (hlaid : w.Laid p)
    {i : Nat} {x : Worker σ} (hi : w.workers[i]? = some x) (hx : x.Bound p) :
    (w.step i).Settled p t (more + x.forfeit t w.shared) := by
  obtain ⟨added, hcount, haccount, -⟩ := hx.account hp t hlaid
  have hnodup : (p.errorPlaces (·.id = t)).Nodup := Pipeline.nodup_errorPlaces
  have hweight := total_step hi hx.aims Entry.weight hnodup
  have htransit := inTransit_step hi t
  have hadded : ((w.step i).shared.errorCount (p.slot t)).toNat =
      (w.shared.errorCount (p.slot t)).toNat + added := by
    rw [step_of_getElem? hi]
    exact hcount
  unfold Settled at h ⊢
  rw [Shared.weight_eq_total] at h ⊢
  omega

/-! #### Before the start -/

/-- Before the start of a run nothing has been lost, unless a stop has come first. -/
structure Square (p : Pipeline) (t : String) (w : World σ) : Prop extends w.Unspoilt p where
  laid : w.Laid p
  bound : ∀ x ∈ w.workers, x.Bound p
  settled : (∀ x ∈ w.workers, x.IsEarly) → w.shared.stopped = false → w.Settled p t 0

theorem Square.of_workers (h : w.Square p t) {workers : Array (Worker σ)}
    (hspoilt : World.Unspoilt p { w with workers }) (hbound : ∀ x ∈ workers, x.Bound p)
    (hload : (∀ x ∈ workers, x.IsEarly) → (∀ x ∈ w.workers, x.IsEarly) ∧
      (workers.toList.map (Worker.load t)).sum = w.inTransit t) :
    World.Square p t { w with workers } where
  toUnspoilt := hspoilt
  laid := h.laid
  bound := hbound
  settled hearly hs := by
    obtain ⟨hearly, hsame⟩ := hload hearly
    exact (h.settled hearly hs).congr rfl rfl hsame

variable [Transform σ]

theorem Square.stepped (hp : p.WellFormed) (h : w.Square p t) {i : Nat} {x : Worker σ}
    (hi : w.workers[i]? = some x) (hx : x.IsEarly) : (w.step i).Square p t := by
  have hmem := Array.mem_of_getElem? hi
  have hbound := h.bound x hmem
  have heffect := x.step_effect w.shared
  refine ⟨h.toUnspoilt.stepped hi hx, h.laid.stepped hi,
    forall_step h.bound fun _ _ hy => hy.step w.shared, fun hearly hs => ?_⟩
  have hdown : w.shared.stopped = false := by
    by_contra hup
    rw [step_of_getElem? hi] at hs
    cases (heffect.stopped (Bool.not_eq_false _ ▸ hup)).symm.trans hs
  have hbefore : ∀ y ∈ w.workers, y.IsEarly := by
    intro y hy
    obtain ⟨j, hj⟩ := Array.getElem?_of_mem hy
    by_cases hij : i = j
    · subst hij
      obtain rfl : x = y := Option.some.inj (hi.symm.trans hj)
      exact hx
    · refine hearly y ?_
      rw [step_of_getElem? hi]
      exact Array.mem_of_getElem? (by rwa [Array.getElem?_setIfInBounds_ne hij])
  have hnone : x.forfeit t w.shared = 0 := by
    refine hbound.forfeit_eq_zero hdown fun j hj => ?_
    obtain ⟨r, hr, rfl⟩ := Option.map_eq_some_iff.mp hj
    exact h.opened _ _ x.context.key (hbound.rooted.route hp hr).2.2 rfl
  have hstep := (h.settled hbefore hdown).step hp h.laid hi hbound
  rwa [hnone] at hstep

/-- **Before the start nothing is lost.** -/
theorem Square.early (hp : p.WellFormed) (t : String) (ts : TransformMap σ) :
    Early p ts (World.Square (σ := σ) p t) where
  laid w hworkers hrows hcounts := by
    refine ⟨(Unspoilt.early ts).laid w hworkers hrows hcounts, ?_, fun x hx => ?_, fun _ _ => ?_⟩
    · unfold Laid
      rw [hcounts, Array.size_replicate]
    · rw [hworkers] at hx
      exact absurd hx (Array.not_mem_empty x)
    · unfold Settled inTransit Shared.errorCount
      rw [hworkers, Shared.weight_eq_total,
        Shared.total_eq_zero (Shared.accepted_of_bare (Or.inr hrows)), hcounts, Array.getElem?_replicate]
      split <;> rfl
  like w w' hl h := by
    refine ⟨(Unspoilt.early ts).like w w' hl h.toUnspoilt,
      (congrArg Array.size hl.errorCounts).trans h.laid, ?_, fun hearly hs => ?_⟩
    · rw [hl.workers]
      exact h.bound
    · rw [hl.workers] at hearly
      have hdown : w.shared.stopped = false := by
        by_contra hup
        cases (hl.stopped (Bool.not_eq_false _ ▸ hup)).symm.trans hs
      refine (h.settled hearly hdown).congr ?_ ?_ ?_
      · unfold Shared.errorCount
        rw [hl.errorCounts]
      · exact Shared.total_congr hl.rowSets _
      · unfold inTransit
        rw [hl.workers]
  enrolled w k r n state hr hspec hk hi h := by
    refine h.of_workers ((Unspoilt.early ts).enrolled w k r n state hr hspec hk hi h.toUnspoilt)
      (Array.forall_mem_push.mpr ⟨(Worker.Bound.enrolled hspec hk state).2, h.bound⟩) fun hearly => ?_
    refine ⟨(Array.forall_mem_push.mp hearly).2, ?_⟩
    rw [sum_map_push, load_of_idle rfl, Nat.add_zero]
    rfl
  stepped w i x hi hx _ h := h.stepped hp hi hx
  heard w id l h := by
    refine h.of_workers ((Unspoilt.early ts).heard w id l h.toUnspoilt)
      (Array.forall_mem_map.mpr fun x hx => (h.bound x hx).hear id l) fun hearly => ⟨fun x hx => ?_, ?_⟩
    · have := Array.forall_mem_map.mp hearly x hx
      unfold Worker.hear at this
      split at this
      · exact this
      · exact this
    · rw [sum_map_map _ (Worker.load_hear t id l)]
      rfl
  injected w i t' e hi ha h := by
    refine ⟨(Unspoilt.early ts).injected w i t' e hi ha h.toUnspoilt, h.laid, h.bound,
      fun hearly hs => (h.settled hearly hs).congr rfl ?_ rfl⟩
    exact Shared.total_accept (Pipeline.injector_notMem hi) e
  finished w i t' hi h := by
    refine ⟨(Unspoilt.early ts).finished w i t' hi h.toUnspoilt, h.laid, h.bound,
      fun hearly hs => (h.settled hearly hs).congr rfl ?_ rfl⟩
    exact Shared.total_finish _ _ _
  launched w h := by
    refine h.of_workers ((Unspoilt.early ts).launched w h.toUnspoilt)
      (Array.forall_mem_map.mpr fun x hx => (h.bound x hx).launch) fun hearly => ?_
    -- workers that have been started are not early any more
    have hnone : ∀ x, x ∉ w.workers := by
      intro x hx
      rcases Array.forall_mem_map.mp hearly x hx with ⟨a, ha⟩ | ⟨r, hr⟩
      · cases ha
      · cases hr
    have hempty : w.workers = #[] := Array.eq_empty_iff_forall_not_mem.mpr hnone
    refine ⟨fun x hx => absurd hx (hnone x), ?_⟩
    unfold inTransit
    rw [hempty, Array.map_empty]

end World

/-! ### Runs -/

namespace Course

variable {c c' : Course σ}

/-- What holds of a running course whose errors are counted. -/
structure Manned (p : Pipeline) (c : Course σ) : Prop where
  laid : c.world.Laid p
  bound : ∀ x ∈ c.workers, x.Bound p
  producers : ∀ i ∈ c.producers, ∃ t, p.channels[i]? = some (.injector t)

theorem Outside.manned {d : Option Deed} (h : c.Outside c' d) (hc : c.Manned p) : c'.Manned p where
  laid := (congrArg Array.size h.errorCounts).trans hc.laid
  bound := by
    rw [h.workers]
    exact hc.bound
  producers i hi := hc.producers i (h.fewer i hi)

/-- What comes from outside has nothing to do with errors. -/
theorem Outside.settled {d : Option Deed} (h : c.Outside c' d) (hc : c.Manned p)
    (hsettled : c.world.Settled p t more) : c'.world.Settled p t more := by
  have helse : ∀ i e, d = some (.gave i e) → i ∉ p.errorPlaces (·.id = t) := by
    rintro i e rfl
    rcases h.grounds _ rfl with ⟨j, e', hj, hm, -⟩ | ⟨j, hj, -⟩
    · cases hj
      obtain ⟨t', ht⟩ := hc.producers i hm
      exact Pipeline.injector_notMem ht
    · cases hj
  refine hsettled.congr ?_ ?_ ?_
  · show c'.shared.errorCount _ = c.shared.errorCount _
    unfold Shared.errorCount
    rw [h.errorCounts]
  · have htotal : c'.world.shared.total Entry.weight (p.errorPlaces (·.id = t)) = _ :=
      Shared.total_act h.rowSets h.enabled Pipeline.nodup_errorPlaces
    rwa [Deed.totalFor_eq_zero helse, Nat.add_zero] at htotal
  · unfold World.inTransit
    rw [show c'.world.workers = c.world.workers from h.workers]

variable [Transform σ]

theorem Stepped.manned {i : Nat} {x : Worker σ} (h : c.Stepped c' i x) (hc : c.Manned p) :
    c'.Manned p where
  laid := h.effect.slots.trans hc.laid
  bound y hy := by
    rw [h.workers] at hy
    rcases Array.mem_or_eq_of_mem_setIfInBounds hy with hy | rfl
    · exact hc.bound y hy
    · exact (hc.bound x h.mem).step c.shared
  producers := by
    rw [h.producers]
    exact hc.producers

theorem Stepped.settled (hp : p.WellFormed) {i : Nat} {x : Worker σ} (h : c.Stepped c' i x)
    (hc : c.Manned p) (hsettled : c.world.Settled p t more) :
    c'.world.Settled p t (more + x.forfeit t c.shared) := by
  have hstep := hsettled.step hp hc.laid h.worker (hc.bound x h.mem)
  rw [World.step_of_getElem? h.worker] at hstep
  unfold World.Settled World.inTransit
  rw [show c'.world.shared = (x.step c.world.shared).1 from h.shared,
    show c'.world.workers = c.world.workers.setIfInBounds i (x.step c.world.shared).2 from h.workers]
  exact hstep

/-- The errors of the rows that the copies of a transform lose while the given things happen. -/
def forfeited (t : String) : Course σ → List Event → Nat
  | _, [] => 0
  | c, e :: rest =>
    ((c.stepping? e).map (Worker.forfeit t c.shared)).getD 0 + forfeited t (c.perform e) rest

/-- **While the workers run** what is counted settles what is accepted, in transit and lost. -/
theorem settled_run (hp : p.WellFormed) (hr : c.Running) (hc : c.Manned p)
    (hsettled : c.world.Settled p t more) (events : List Event) :
    (c.run events).world.Settled p t (more + c.forfeited t events) := by
  induction events generalizing c more with
  | nil => exact hsettled
  | cons e rest ih =>
    obtain ⟨hr', ⟨i, x, hstep, hstepping⟩ | ⟨d, hout, -, hstepping⟩⟩ := perform_running hr e
    · have hnext := ih hr' (hstep.manned hc) (hstep.settled hp hc hsettled)
      unfold forfeited
      rw [hstepping, ← Nat.add_assoc]
      exact hnext
    · have hnext := ih hr' (hout.manned hc) (hout.settled hc hsettled)
      unfold forfeited
      rw [hstepping, Option.map_none, Option.getD_none, Nat.zero_add]
      exact hnext

omit [Transform σ] in
theorem errorCounts_finishAll (is : List Nat) (s : Shared) :
    (is.foldl Shared.finish s).errorCounts = s.errorCounts ∧
      ∀ js, (is.foldl Shared.finish s).weight js = s.weight js := by
  induction is generalizing s with
  | nil => exact ⟨rfl, fun _ => rfl⟩
  | cons i rest ih =>
    obtain ⟨hcounts, hweight⟩ := ih (s.finish i)
    exact ⟨hcounts, fun js => (hweight js).trans (Shared.total_finish s i js)⟩

/-- A start counts nothing, and no row is in transit after it. -/
theorem settled_start {claimed : List String} (hs : c.orchestrator.state = .prepared claimed)
    (hr : (c.perform .start).Running) (hidle : c.world.inTransit t = 0)
    (hsettled : c.world.Settled p t more) : (c.perform .start).world.Settled p t more := by
  have hends := c.orchestrator.start_ends
  unfold perform at hr ⊢
  generalize c.orchestrator.start = x at hends hr ⊢
  cases hends
  case unprepared hs' => rw [hs] at hs'; cases hs'
  case misplaced hs' => exact absurd hs (hs' claimed)
  case refused claimed' message hs' hh o₁ ho =>
    refine absurd hr (not_running_of_state (s := .finished) ?_ fun _ hs => by cases hs)
    exact (Orchestrator.sameRun_abandonAll _ _).state
  case started claimed' m hs' hh =>
    refine hsettled.congr ?_ ((errorCounts_finishAll _ c.world.shared).2 _) ?_
    · exact congrArg (fun counts : Array UInt64 => (counts[p.slot t]?).getD 0)
        (errorCounts_finishAll _ c.world.shared).1
    · rw [hidle]
      exact World.load_launch t c.world.workers

theorem manned {registry : Registry σ} {o : Orchestrator σ} {hooks : Hooks} {bindings : Table String}
    (hnew : Orchestrator.new p registry = .ok o) (t : String) (events : List Event) :
    Stage p o.transforms (World.Square p t) (Manned p) ((begin o hooks bindings).run events) :=
  staged_noted hnew
    (World.Square.early (Pipeline.wellFormed_of_validationErrors (Orchestrator.new_ok hnew).1) t _)
    (fun _ => ([] : List Unit)) (P := fun _ => Manned p)
    (fun _ _ hl hq => ⟨hq.laid, hq.bound, hl.producers⟩) (fun _ _ _ _ h hc => h.manned hc)
    (fun _ _ _ _ _ h hc => h.manned hc) events

/-- **Diversions that fail.** Diversions by themselves, the context of one copy in any use, and the copies
of a transform in any run: whoever cannot divert a row leaves row sets, counters and listeners as they
were, and the count as well, unless the row set does not take the row. So the errors counted are those
of the rows accepted, of the rows in transit if any, and of the rows that have been lost in that way. -/
theorem failed_diversions {registry : Registry σ} {o : Orchestrator σ} (hooks : Hooks)
    (bindings : Table String) (hnew : Orchestrator.new p registry = .ok o) (t : String)
    (before after : List Event) :
    let c := (begin o hooks bindings).run before
    -- diversions by themselves
    (∀ (uses : List Routing.Use) (slot : Nat),
      (Routing.run uses).Settled slot (Routing.forfeited slot {} uses) ∧
        ∀ (i : Nat) (e : Entry) (why : Diagnosis) (between : List Routing.Use) (obstacle : Obstacle),
          i < (Routing.run uses).routers.size →
          ((Routing.run uses).routeDuring i e why (·.after between)).2 = some (.error obstacle) →
          (Routing.run uses).Failed (((Routing.run uses).call i e why).1.after between)
            ((Routing.run uses).routeDuring i e why (·.after between)).1 i e why obstacle) ∧
    -- one copy, whatever others do meanwhile
    (∀ (x : Usage.Outset) (events : List Usage.Event), ∀ a ∈ (x.after events).past,
      a.op.diverts = true → a.Vain →
        a.given = [] ∧ a.after.counters = a.before.counters ∧
          a.after.collectors = a.before.collectors) ∧
    (∀ x ∈ c.workers, ∀ err, x.deed? c.shared = some (.refused err) →
      Context.Spares c.shared (x.step c.shared).1 x.context (x.step c.shared).2.context) ∧
    -- all copies: from a start before which nobody has stopped the run, and from anywhere
    (∀ claimed, c.orchestrator.state = .prepared claimed → c.shared.stopped = false →
      c.world.inTransit t = 0 → (c.perform .start).Running →
        ((c.perform .start).run after).world.Settled p t ((c.perform .start).forfeited t after)) ∧
    (c.Running → ∀ more, c.world.Settled p t more →
      (c.run after).world.Settled p t (more + c.forfeited t after)) := by
  have hp := Pipeline.wellFormed_of_validationErrors (Orchestrator.new_ok hnew).1
  have hstages : ∀ events, Stage p o.transforms (World.Square p t) (Manned p)
      ((begin o hooks bindings).run events) := manned hnew t
  have hmanned : ∀ events, ((begin o hooks bindings).run events).Running →
      ((begin o hooks bindings).run events).Manned p := by
    rintro events ⟨since, hs⟩
    have hstage := hstages events
    unfold Stage at hstage
    rwa [hs] at hstage
  refine ⟨fun uses slot => ⟨Routing.run_settled slot uses, fun i e why between obstacle hi h => ?_⟩,
    fun x events a ha hop hvain => ?_, fun x _ err h => (Worker.step_refused h).1,
    fun claimed hs hdown hidle hr => ?_, fun hr more hsettled => ?_⟩
  · exact Routing.failed_of_route (Routing.run_settled 0 uses).placed hi h
  · obtain ⟨turn, hends⟩ := x.exists_ends events ha
    obtain ⟨hcounters, hcollectors, -⟩ := (x.failed events).1 a ha hvain
    exact ⟨hends.given_of_vain hop hvain, hcounters, hcollectors⟩
  · have hstarted : ((begin o hooks bindings).run before).perform .start =
        (begin o hooks bindings).run (before ++ [.start]) :=
      (List.foldl_concat perform (begin o hooks bindings) .start before).symm
    have hstage := hstages before
    unfold Stage at hstage
    rw [hs] at hstage
    obtain ⟨order, -, -, hearly⟩ := hstage.enrolled
    have hstart := settled_start hs hr hidle (hstage.property.settled hearly hdown)
    have hrun := settled_run hp hr (by rw [hstarted] at hr ⊢; exact hmanned _ hr) hstart after
    rwa [Nat.zero_add] at hrun
  · exact settled_run hp hr (hmanned before hr) hsettled after

namespace Losing

/-- A scripted transform whose error row set takes one row, and one that takes the failing rows. -/
def pipeline : Pipeline where
  engine := { rowSetSize := some 1 }
  transforms := [
    { id := "a", type := "script", errorHandling := some { target := "r" } },
    { id := "r", type := "dummy" }]

/-- The run of the transforms. -/
def orchestrator : Orchestrator (Builtin ⊕ Scripted) where
  pipeline := pipeline
  transforms :=
    ((Registry.withScripts (Diverting.scripts [3, 2])).resolve pipeline).toOption.getD .empty
  world := { shared := { pipeline := pipeline.name, poll := 50000 } }
  built := .ofList (pipeline.ids.map (·, 1))

theorem new_ok :
    Orchestrator.new pipeline (.withScripts (Diverting.scripts [3, 2])) = .ok orchestrator := rfl

/-- The prepared run. -/
def prepared : Course (Builtin ⊕ Scripted) := (begin orchestrator Hooks.none .empty).run [.prepare]

/-- The second row waits for room when the run is stopped. -/
def after : List Event := List.replicate 14 (.step 0) ++ [.stop, .step 0]

end Losing

/-- Of the rows diverted for three errors and for two the second one is lost, and five are counted. -/
theorem failed_diversions_stopped :
    let ended := (Losing.prepared.perform .start).run Losing.after
    ended.shared.errorCount (Losing.pipeline.slot "a") = 5 ∧
      ended.shared.weight (Losing.pipeline.errorPlaces (·.id = "a")) = 3 ∧
      (Losing.prepared.perform .start).forfeited "a" Losing.after = 2 ∧
      ended.world.Settled Losing.pipeline "a"
        ((Losing.prepared.perform .start).forfeited "a" Losing.after) :=
  ⟨by decide +kernel, by decide +kernel, by decide +kernel,
    (failed_diversions Hooks.none .empty Losing.new_ok "a" [.prepare] Losing.after).2.2.2.1 []
      (by decide +kernel) (by decide +kernel) (by decide +kernel) ⟨5, by decide +kernel⟩⟩

end Course

/-- A diversion that fails can leave a trace: a row that is refused by a closed row set is counted. -/
theorem Routing.exists_counted_loss : ¬ ∀ (uses : List Use) (i : Nat) (e : Entry) (why : Diagnosis)
    (err : RouteError), i < (run uses).routers.size →
    ((run uses).route i e why).2 = some (.error (.refused err)) →
    ((run uses).route i e why).1.count i = (run uses).count i := by
  intro h
  have hsame := h [.add "t" { target := "r" } 2 false, .finish 0] 0
    ⟨⟨[⟨"n", .integer, -1, -1⟩]⟩, ⟨[.integer 1]⟩⟩ { count := 1, description := "bad" } _ (by decide) rfl
  exact absurd hsame (by decide +kernel)

end Rowflow
