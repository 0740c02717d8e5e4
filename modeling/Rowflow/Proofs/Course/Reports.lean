import Rowflow.Proofs.Course.Anytime
import Rowflow.Proofs.Course.Crew
import Rowflow.Proofs.Course.Custody

/-!
# The reports that workers send

A worker sends one report, with its counters unless it has crashed, and then it has ended
(`Worker.Mails`, `Worker.step_sending`). So every worker reports under its own name and once
(`Course.Mailed`). As long as nobody receives anything, all that has been sent is in the queue
(`Course.reports_eq_posted`). Reports come to a result unless their errors together do not fit into a
word (`RunResult.ofReports_cases`).
-/

namespace Rowflow

variable {σ : Type}

/-! ### Reports -/

namespace Course

/-- The reports that have been sent, the oldest first. -/
def posted : List (WorkerKey × Deed) → List Summary
  | [] => []
  | (_, d) :: older => d.post (posted older)

theorem posted_grow (k : WorkerKey) (d : Option Deed) (h : List (WorkerKey × Deed)) :
    posted (grow k d h) = Deed.post? (posted h) d := by
  cases d <;> rfl

theorem mem_posted {h : List (WorkerKey × Deed)} {summary : Summary} :
    summary ∈ posted h ↔ ∃ k, (k, Deed.sent summary) ∈ h := by
  induction h with
  | nil => simp [posted]
  | cons x older ih =>
    obtain ⟨k, d⟩ := x
    cases d
    case sent sm =>
      simp only [posted, Deed.post, List.mem_append, ih, List.mem_cons, List.not_mem_nil, or_false,
        Prod.mk.injEq, Deed.sent.injEq, exists_or]
      rw [or_comm]
      exact or_congr_left ⟨fun he => ⟨k, rfl, he⟩, fun ⟨_, _, he⟩ => he⟩
    all_goals simp [posted, Deed.post, ih]

end Course

namespace Worker

/-- A worker that has not ended has not reported, and it reports under its own name. -/
structure Mails (h : List (WorkerKey × Deed)) (x : Worker σ) : Prop where
  unsent : x.hasEnded = false → ∀ summary, (x.key, Deed.sent summary) ∉ h
  sending : ∀ summary, x.phase = .sending summary → summary.worker = x.key

theorem phase_of_sent {x : Worker σ} {s : Shared} {summary : Summary}
    (h : x.deed? s = some (.sent summary)) : x.phase = .sending summary := by
  have hleads := deed?_leads h
  generalize x.phase = phase at hleads ⊢
  cases hleads
  case operation kind => exact absurd kind id
  case sent => rfl

variable [Transform σ]

theorem hasEnded_step {x : Worker σ} (h : x.hasEnded = true) (s : Shared) :
    (x.step s).2.hasEnded = true := by
  obtain ⟨c, state, phase⟩ := x
  cases phase_of_hasEnded h
  rfl

/-- A worker comes to its report after its transform has been disposed of, with its counters, or
because it has crashed, without them. -/
theorem step_sending {x : Worker σ} {s : Shared} {summary : Summary}
    (h : (x.step s).2.phase = .sending summary) :
    (∃ status error, x.phase = .reporting status error ∧
      summary = ⟨x.key, status, x.context.counters, error⟩) ∨
    ∃ p, x.phase = .crashed p ∧ summary = ⟨x.key, .errored, {}, some p.render⟩ := by
  have hmoves := x.step_moves s
  generalize x.deed? s = d, (x.step s).1 = s', (x.step s).2 = y at hmoves h
  obtain ⟨c, state, phase⟩ := x
  cases hmoves
  case reports status error =>
    cases h
    exact Or.inl ⟨status, error, rfl, rfl⟩
  case collapses p =>
    cases h
    exact Or.inr ⟨p, rfl, rfl⟩
  case disposed fate => cases fate <;> cases h
  case undisposed fate _ => cases fate <;> cases h
  all_goals cases h

theorem Mails.step {x : Worker σ} {h : List (WorkerKey × Deed)} (hx : x.Mails h) (s : Shared) :
    (x.step s).2.Mails (Course.grow x.key (x.deed? s) h) := by
  have hkey : (x.step s).2.key = x.key := (x.step_effect s).leads.key
  constructor
  · intro hlive summary hm
    have hbefore : x.hasEnded = false := by
      by_contra hended
      rw [hasEnded_step (by simpa using hended) s] at hlive
      cases hlive
    rw [hkey] at hm
    rcases Course.mem_grow.mp hm with ⟨-, hd⟩ | hm
    · -- a worker that has just reported has ended
      have hphase := phase_of_sent hd
      obtain ⟨c, state, phase⟩ := x
      cases hphase
      cases hlive
    · exact hx.unsent hbefore summary hm
  · intro summary hsending
    rw [hkey]
    rcases step_sending hsending with ⟨status, error, -, rfl⟩ | ⟨p, -, rfl⟩ <;> rfl

end Worker

namespace Course

variable {p : Pipeline} {c c' : Course σ}

/-- Every worker reports under its own name and once. -/
structure Mailed (c : Course σ) : Prop where
  workers : ∀ x ∈ c.workers, x.Mails c.history
  own : ∀ k summary, (k, Deed.sent summary) ∈ c.history →
    summary.worker = k ∧ k ∈ c.workers.toList.map Worker.key
  nodup : ((posted c.history).map (·.worker)).Nodup

theorem Launched.mailed (h : c.Launched p) : c.Mailed where
  workers x hx := by
    refine ⟨fun _ summary hm => ?_, fun summary hs => ?_⟩
    · rw [h.history] at hm
      cases hm
    · rw [h.starting x hx] at hs
      cases hs
  own k summary hm := by
    rw [h.history] at hm
    cases hm
  nodup := by
    rw [h.history]
    exact List.nodup_nil

theorem Mailed.congr (h : c.Mailed) (hw : c'.workers = c.workers) (hh : c'.history = c.history) :
    c'.Mailed :=
  ⟨by rw [hw, hh]; exact h.workers, by rw [hw, hh]; exact h.own, by rw [hh]; exact h.nodup⟩

variable [Transform σ]

theorem Stepped.mailed {i : Nat} {x : Worker σ} (h : c.Stepped c' i x) (hc : c.Crew p)
    (hm : c.Mailed) : c'.Mailed where
  workers y hy := by
    rw [h.history]
    rcases h.cases hc hy with rfl | ⟨hy, hne⟩
    · exact (hm.workers x h.mem).step c.shared
    · obtain ⟨h1, h2⟩ := hm.workers y hy
      refine ⟨fun hlive summary hs => ?_, h2⟩
      rcases mem_grow.mp hs with ⟨hk, -⟩ | hs
      · exact hne hk.symm
      · exact h1 hlive summary hs
  own k summary hs := by
    rw [h.history] at hs
    have hkeys : c'.workers.toList.map Worker.key = c.workers.toList.map Worker.key := h.keys
    rw [hkeys]
    rcases mem_grow.mp hs with ⟨hk, hd⟩ | hs
    · obtain rfl : k = x.key := hk
      refine ⟨(hm.workers x h.mem).sending summary (Worker.phase_of_sent hd), ?_⟩
      exact List.mem_map.mpr ⟨x, Array.mem_toList_iff.mpr h.mem, rfl⟩
    · exact hm.own k summary hs
  nodup := by
    rw [h.history, posted_grow]
    rcases hd : x.deed? c.shared with _ | d
    · exact hm.nodup
    · cases d
      case sent summary =>
        have hphase := Worker.phase_of_sent hd
        have hlive : x.hasEnded = false := by
          unfold Worker.hasEnded
          rw [hphase]
        simp only [Deed.post?, Deed.post, List.map_append, List.map_cons, List.map_nil]
        refine List.nodup_append.mpr ⟨hm.nodup, List.nodup_singleton _, ?_⟩
        rintro _ hk _ hl rfl
        -- what the worker sends is its first report
        obtain ⟨sm, hsm, hk⟩ := List.mem_map.mp hk
        obtain ⟨k, hsent⟩ := mem_posted.mp hsm
        obtain ⟨hown, -⟩ := hm.own k sm hsent
        rw [List.mem_singleton.mp hl, (hm.workers x h.mem).sending summary hphase] at hk
        rw [← hown, hk] at hsent
        exact (hm.workers x h.mem).unsent hlive sm hsent
      all_goals exact hm.nodup

/-- **All running courses** have the workers of the pipeline, each of which reports once. -/
theorem mailed {registry : Registry σ} {o : Orchestrator σ} {hooks : Hooks}
    {bindings : Table String} (hnew : Orchestrator.new p registry = .ok o) (events : List Event)
    (hr : ((begin o hooks bindings).run events).Running) :
    ((begin o hooks bindings).run events).Crew p ∧ ((begin o hooks bindings).run events).Mailed := by
  have hp := Pipeline.wellFormed_of_validationErrors (Orchestrator.new_ok hnew).1
  exact of_running (P := fun c => c.Crew p ∧ c.Mailed) hnew (trivial_early p o.transforms)
    (fun c _ hl _ => ⟨hl.crew hp, hl.mailed⟩)
    (fun c c' d h hc => ⟨h.crew hc.1, hc.2.congr h.workers h.history⟩)
    (fun c c' i x h hc => ⟨h.crew hc.1, h.mailed hc.1 hc.2⟩) events hr

/-! ### Before anybody waits -/

/-- As long as nothing has been received, all that has been sent is in the queue. -/
structure Unreceived (p : Pipeline) (ts : TransformMap σ) (c : Course σ) : Prop where
  upholds : c.Upholds p ts (World.Each (·.reports = []) (·.phase.Unstarted fun _ => True))
    fun _ => True
  silent : ¬ c.Running → c.history = []
  queued : c.Running → c.shared.reports = posted c.history

theorem history_of_resting (hn : ¬ c.Running) (e : Event) : (c.perform e).history = c.history := by
  rcases e with _ | id | ⟨id, l⟩ | _ | ⟨i, e⟩ | i | _ | micros | _ | i
  case produce =>
    unfold Course.perform
    dsimp only
    split <;> rfl
  case inject =>
    unfold Course.perform
    dsimp only
    split <;> rfl
  case finish =>
    unfold Course.perform
    dsimp only
    split <;> rfl
  case step =>
    unfold Course.perform stepWorker
    dsimp only
    split
    · exact absurd ⟨_, ‹_›⟩ hn
    · rfl
  all_goals rfl

theorem unstarted_lasting (p : Pipeline) (ts : TransformMap σ) :
    World.Lasting p ts (fun _ => True)
      (World.Each (·.reports = []) (·.phase.Unstarted fun _ => True)) :=
  (Phase.Unstarted.lasting (fun _ _ _ => trivial) (fun _ => trivial) (fun _ => trivial) p ts).each

theorem Unreceived.perform (hp : p.WellFormed) {ts : TransformMap σ}
    (hts : ∀ id r, ts.find? id = some r → p.transform? id = some r.spec) (h : c.Unreceived p ts)
    {e : Event} (he : e ≠ .receive) : (c.perform e).Unreceived p ts := by
  have hlasting := unstarted_lasting p ts
  have hdurable : World.Durable p (fun _ => True) fun _ : World σ => True :=
    ⟨fun _ _ _ _ => trivial, fun _ _ _ _ _ => trivial, fun _ _ _ _ _ _ _ => trivial,
      fun _ _ _ _ _ => trivial⟩
  have hadmits : ∀ i e', e = .inject i e' → True := fun _ _ _ => trivial
  refine ⟨h.upholds.perform hts hlasting hdurable hp (fun _ _ => trivial) e hadmits, fun hn => ?_,
    fun hr => ?_⟩
  · have hrest : ¬ c.Running := fun hr => hn (perform_running hr e).1
    rw [history_of_resting hrest]
    exact h.silent hrest
  · by_cases hrun : c.Running
    · rcases (perform_running hrun e).2 with ⟨i, x, hx, -⟩ | ⟨d, ho, hsame, -⟩
      · rw [hx.effect.reports, hx.history, posted_grow, h.queued hrun]
      · rw [hsame he, ho.history, h.queued hrun]
    · -- the run has just been started
      obtain rfl : e = .start := by
        by_contra hstart
        exact h.upholds.resting_of_ne_start hts hlasting hp hrun hstart hadmits hr
      have hstarted : (c.perform .start).Upholds p ts _ (fun w => w.shared.reports = []) :=
        Upholds.start hlasting hp
          (fun w w' hl hw => List.suffix_nil.mp (hw ▸ hl.reports)) (fun w hw => hw.shared)
          ⟨h.upholds.resting, fun hr => absurd hr hrun, h.upholds.producers⟩
      rw [history_of_resting hrun, h.silent hrun]
      exact (hstarted.running hr).property

/-- **Before anybody waits** for a run, all reports that have been sent are in the queue. -/
theorem reports_eq_posted {registry : Registry σ} {o : Orchestrator σ} {hooks : Hooks}
    {bindings : Table String} (hnew : Orchestrator.new p registry = .ok o) {events : List Event}
    (hfirst : ∀ e ∈ events, e ≠ .receive) (hr : ((begin o hooks bindings).run events).Running) :
    ((begin o hooks bindings).run events).shared.reports =
      posted ((begin o hooks bindings).run events).history := by
  obtain ⟨hv, hpipe, hidle, -⟩ := Orchestrator.new_ok hnew
  have hp := Pipeline.wellFormed_of_validationErrors hv
  obtain ⟨hworkers, hrows, hcounts, hreports⟩ := Orchestrator.bare_of_new hnew
  have hrest : ¬ (begin o hooks bindings).Running :=
    not_running_of_state hidle fun _ hs => by cases hs
  have hbegin : (begin o hooks bindings).Unreceived p o.transforms :=
    ⟨⟨fun _ => ⟨hpipe, rfl, (unstarted_lasting p o.transforms).bare _ hworkers hrows hcounts hreports⟩,
      fun hr => absurd hr hrest, fun i hi => by cases hi⟩, fun _ => rfl, fun hr => absurd hr hrest⟩
  have hall : ((begin o hooks bindings).run events).Unreceived p o.transforms := by
    clear hr
    unfold run
    generalize begin o hooks bindings = c at hbegin ⊢
    induction events generalizing c with
    | nil => exact hbegin
    | cons e rest ih =>
      exact ih (fun e he => hfirst e (List.mem_cons_of_mem _ he)) (c.perform e)
        (hbegin.perform hp (fun _ _ h => (Orchestrator.resolved_of_new hnew h).1)
          (hfirst e List.mem_cons_self))
  exact hall.queued hr

end Course

/-! ### What comes of reports -/

/-- The errors that reports stand for together. -/
def errorsIn (reports : List Summary) : Nat := (reports.map (·.counters.errors.toNat)).sum

theorem totalErrors_eq (reports : List Summary) : totalErrors reports =
    if errorsIn reports < 2 ^ 64 then .ok (.ofNat (errorsIn reports)) else .error .overflow := by
  have hall : ∀ sum : UInt64, reports.foldlM (fun sum s => addWords sum s.counters.errors) sum =
      if sum.toNat + errorsIn reports < 2 ^ 64 then .ok (.ofNat (sum.toNat + errorsIn reports))
      else .error .overflow := by
    induction reports with
    | nil =>
      intro sum
      rw [errorsIn, List.map_nil, List.sum_nil, Nat.add_zero, if_pos sum.toNat_lt, UInt64.ofNat_toNat]
      rfl
    | cons s rest ih =>
      intro sum
      have hcons : errorsIn (s :: rest) = s.counters.errors.toNat + errorsIn rest := by
        rw [errorsIn, List.map_cons, List.sum_cons]
        rfl
      rw [List.foldlM_cons, hcons]
      rcases hadd : addWords sum s.counters.errors with p | next
      · obtain ⟨rfl, hge⟩ := addWords_error hadd
        rw [if_neg (by omega)]
        rfl
      · have hnext := addWords_ok hadd
        show rest.foldlM _ next = _
        rw [ih, hnext, Nat.add_assoc]
  have hzero := hall 0
  rwa [show (0 : UInt64).toNat = 0 from rfl, Nat.zero_add] at hzero

namespace RunResult

/-- Reports come to a result that has them, unless their errors do not fit into a word. -/
inductive Carries (reports : List Summary) : Except Panic RunResult → Prop where
  | fits (r : RunResult) (fits : errorsIn reports < 2 ^ 64) (same : r.reports = reports) :
      Carries reports (.ok r)
  | overflows (exceeds : 2 ^ 64 ≤ errorsIn reports) : Carries reports (.error .overflow)

/-- A result that reports have come to, given whether the run has been stopped. -/
structure Sums (entries : List Summary) (flag : Bool) (r : RunResult) : Prop where
  reports : r.reports = entries
  fits : errorsIn entries < 2 ^ 64
  stopped : r.status = .stopped ↔ flag = true ∨ ∃ s ∈ entries, s.status ≠ .done
  failed : r.status ≠ .stopped → (r.status = .finishedWithErrors ↔ errorsIn entries ≠ 0)
  finished : r.status ≠ .stopped → (r.status = .finished ↔ errorsIn entries = 0)

theorem statusOf_eq_stopped {cancelled : Bool} {errors : UInt64} :
    statusOf cancelled errors = .stopped ↔ cancelled = true := by
  unfold statusOf
  cases cancelled
  · by_cases h : 0 < errors <;> simp [h]
  · simp

theorem statusOf_of_ne_stopped {cancelled : Bool} {errors : UInt64}
    (h : statusOf cancelled errors ≠ .stopped) :
    statusOf cancelled errors = if 0 < errors then .finishedWithErrors else .finished := by
  rw [Ne, statusOf_eq_stopped] at h
  exact if_neg h

/-- **What reports come to**: a result, unless their errors do not fit into a word. -/
theorem ofReports_cases (name : String) (reports : List Summary) (flag : Bool) :
    (∃ r, ofReports name reports flag = .ok r ∧ r.Sums reports flag) ∨
      2 ^ 64 ≤ errorsIn reports ∧ ofReports name reports flag = .error .overflow := by
  unfold ofReports
  rw [totalErrors_eq]
  by_cases hfits : errorsIn reports < 2 ^ 64
  · rw [if_pos hfits]
    refine Or.inl ⟨_, rfl, ?_⟩
    have hpos : (0 : UInt64) < .ofNat (errorsIn reports) ↔ errorsIn reports ≠ 0 := by
      rw [UInt64.lt_iff_toNat_lt, UInt64.toNat_ofNat_of_lt' hfits]
      exact Nat.pos_iff_ne_zero
    refine ⟨rfl, hfits, ?_, fun hs => ?_, fun hs => ?_⟩
    · rw [statusOf_eq_stopped]
      simp
    · rw [statusOf_of_ne_stopped hs, ← hpos]
      split <;> simp_all
    · rw [statusOf_of_ne_stopped hs, ← not_ne_iff (a := errorsIn reports), ← hpos]
      split <;> simp_all
  · rw [if_neg hfits]
    exact Or.inr ⟨Nat.not_lt.mp hfits, rfl⟩

theorem carries_ofReports (name : String) (reports : List Summary) (flag : Bool) :
    Carries reports (ofReports name reports flag) := by
  rcases ofReports_cases name reports flag with ⟨r, hr, h⟩ | ⟨hge, hr⟩
  · exact hr ▸ .fits r h.fits h.reports
  · exact hr ▸ .overflows hge

theorem Carries.exists_ok {reports : List Summary} {result : Except Panic RunResult}
    (h : Carries reports result) (hfits : errorsIn reports < 2 ^ 64) :
    ∃ r, result = .ok r ∧ r.reports = reports := by
  cases h
  case fits r _ same => exact ⟨r, rfl, same⟩
  case overflows exceeds => exact absurd exceeds (Nat.not_le.mpr hfits)

theorem Sums.diverted {reports : List Summary} {flag : Bool} {r : RunResult}
    (h : r.Sums reports flag) : ∃ n, r.diverted = .ok n ∧ n.toNat = errorsIn reports := by
  unfold RunResult.diverted
  rw [h.reports, totalErrors_eq, if_pos h.fits]
  exact ⟨_, rfl, UInt64.toNat_ofNat_of_lt' h.fits⟩

end RunResult

end Rowflow
