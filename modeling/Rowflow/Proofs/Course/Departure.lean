import Rowflow.Proofs.Course.Closing
import Rowflow.Proofs.Course.Lifecycle
import Rowflow.Proofs.Diversion.Tally

/-!
# How workers depart

A worker that leaves the loop of calls closes what it writes to, disposes of its transform and
reports, in this order, and if it has failed it raises the stop flag before all of that. Its phase
tells how far it has come (`Phase.Departs`), so by the time of its report everything has been closed,
and the transform has been disposed of, once.

There is one way around this. The row of a failed call is diverted outside of that call, and if the
worker breaks down over that, because of a listener that is told of it or because the count of errors is
full, it goes straight to its report. Nothing but that lets row sets stay open (`Course.departure`), and
it happens (`Course.exists_undisposed`).
-/

namespace Rowflow

variable {σ : Type}

/-! ### Farewells -/

/-- Whether a deed says how the worker ends: that it leaves, or what it reports. -/
def Deed.IsFarewell : Deed → Prop
  | left _ | sent _ => True
  | _ => False

theorem Deed.IsOperation.not_isFarewell {d : Deed} (h : d.IsOperation) : ¬ d.IsFarewell := by
  cases d
  case left => exact absurd h id
  case sent => exact absurd h id
  all_goals exact id

/-- The deeds of a worker that has neither left nor reported. -/
def Busy (ds : List Deed) : Prop := ∀ d ∈ ds, ¬ d.IsFarewell

/-- The deeds of a worker that has left with a status: it keeps to it, and if it has failed the stop
flag is up. -/
structure Resigned (s : Shared) (ds : List Deed) (st : WorkerStatus) : Prop where
  left : Deed.left st ∈ ds
  once : ∀ st', Deed.left st' ∈ ds → st' = st
  sent : ∀ summary, Deed.sent summary ∈ ds → summary.status = st
  stopped : st = .errored → s.stopped = true

section Farewells

variable {s s' : Shared} {ds : List Deed} {st : WorkerStatus} {d : Option Deed}

theorem Busy.append (h : Busy ds) (hd : ∀ x ∈ d, ¬ x.IsFarewell) : Busy (d.toList ++ ds) := by
  intro x hx
  rcases List.mem_append.mp hx with hx | hx
  · exact hd x (Option.mem_toList.mp hx)
  · exact h x hx

theorem Busy.leave (h : Busy ds) (hst : st = .errored → s.stopped = true) :
    Resigned s (.left st :: ds) st := by
  refine ⟨List.mem_cons_self, fun st' hm => ?_, fun summary hm => ?_, hst⟩
  · rcases List.mem_cons.mp hm with he | hm
    · cases he
      rfl
    · exact absurd trivial (h _ hm)
  · rcases List.mem_cons.mp hm with he | hm
    · cases he
    · exact absurd trivial (h _ hm)

theorem Resigned.frame (h : Resigned s ds st) (hstop : s.stopped = true → s'.stopped = true) :
    Resigned s' ds st :=
  ⟨h.left, h.once, h.sent, fun he => hstop (h.stopped he)⟩

theorem Resigned.append (h : Resigned s ds st) (hd : ∀ x ∈ d, ¬ x.IsFarewell) :
    Resigned s (d.toList ++ ds) st := by
  have hold : ∀ {x : Deed}, x ∈ d.toList ++ ds → x.IsFarewell → x ∈ ds := by
    intro x hx hf
    exact (List.mem_append.mp hx).resolve_left fun hm => hd x (Option.mem_toList.mp hm) hf
  exact ⟨List.mem_append_right _ h.left, fun st' hm => h.once st' (hold hm trivial),
    fun summary hm => h.sent summary (hold hm trivial), h.stopped⟩

theorem Resigned.report {summary : Summary} (h : Resigned s ds summary.status) :
    Resigned s (.sent summary :: ds) summary.status := by
  refine ⟨List.mem_cons_of_mem _ h.left, fun st' hm => ?_, fun summary' hm => ?_, h.stopped⟩
  · rcases List.mem_cons.mp hm with he | hm
    · cases he
    · exact h.once st' hm
  · rcases List.mem_cons.mp hm with he | hm
    · cases he
      rfl
    · exact h.sent summary' hm

end Farewells

/-! ### How far a worker has come -/

/-- How a worker ends that has left with a status: what it writes to is closed and its transform has
been disposed of since its start; or the worker has broken down over a diverted row, which needs that
something is `loud`. -/
inductive Departure (s : Shared) (written : List Nat) (loud : Prop) :
    WorkerStatus → List Episode → Prop where
  | orderly (st : WorkerStatus) (closed : ∀ i ∈ written, s.done i = true) :
    Departure s written loud st [.disposed, .started]
  | collapse (because : loud) : Departure s written loud .errored [.started]

/-- Whether the worker is in the loop of calls, past its start. -/
def Phase.Calling : Phase σ → Prop
  | .starting => False
  | phase => phase.Calls

/-- How far a worker has come since its start, by its phase: its deeds `ds`, and what has happened to
its transform. -/
inductive Phase.Departs (s : Shared) (written : List Nat) (loud : Prop) (ds : List Deed) :
    Phase σ → List Episode → Prop where
  | starting (busy : Busy ds) : Departs s written loud ds .starting []
  | calling {phase : Phase σ} (calls : phase.Calling) (busy : Busy ds) :
    Departs s written loud ds phase [.started]
  | closing {st : WorkerStatus} (error : Option String) {rest : List Nat}
    (resigned : Resigned s ds st) (closed : ∀ i ∈ written, i ∈ rest ∨ s.done i = true) :
    Departs s written loud ds (.closing (.ran st error) rest) [.started]
  | disposing {st : WorkerStatus} (error : Option String) (a : Activity σ Unit)
    (resigned : Resigned s ds st) (closed : ∀ i ∈ written, s.done i = true) :
    Departs s written loud ds (.disposing (.ran st error) a) [.disposed, .started]
  | reporting {st : WorkerStatus} (error : Option String) (resigned : Resigned s ds st)
    (closed : ∀ i ∈ written, s.done i = true) :
    Departs s written loud ds (.reporting st error) [.disposed, .started]
  | sending {summary : Summary} {es : List Episode} (resigned : Resigned s ds summary.status)
    (ends : Departure s written loud summary.status es) :
    Departs s written loud ds (.sending summary) es
  | ended {st : WorkerStatus} {es : List Episode} (resigned : Resigned s ds st)
    (ends : Departure s written loud st es) : Departs s written loud ds .ended es

section Departs

variable {s s' : Shared} {written : List Nat} {loud loud' : Prop} {ds : List Deed} {es : List Episode}

theorem Departure.frame {st : WorkerStatus} (h : Departure s written loud st es)
    (hdone : ∀ i, s.done i = true → s'.done i = true) (hloud : loud → loud') :
    Departure s' written loud' st es := by
  cases h with
  | orderly _ closed => exact .orderly st fun i hi => hdone i (closed i hi)
  | collapse because => exact .collapse (hloud because)

namespace Phase.Departs

theorem frame {phase : Phase σ} (h : phase.Departs s written loud ds es)
    (hstop : s.stopped = true → s'.stopped = true)
    (hdone : ∀ i, s.done i = true → s'.done i = true) (hloud : loud → loud') :
    phase.Departs s' written loud' ds es := by
  cases h with
  | starting busy => exact .starting busy
  | calling calls busy => exact .calling calls busy
  | closing error resigned closed =>
    exact .closing error (resigned.frame hstop) fun i hi => (closed i hi).imp_right (hdone i)
  | disposing error a resigned closed =>
    exact .disposing error a (resigned.frame hstop) fun i hi => hdone i (closed i hi)
  | reporting error resigned closed =>
    exact .reporting error (resigned.frame hstop) fun i hi => hdone i (closed i hi)
  | sending resigned ends => exact .sending (resigned.frame hstop) (ends.frame hdone hloud)
  | ended resigned ends => exact .ended (resigned.frame hstop) (ends.frame hdone hloud)

theorem called {phase : Phase σ} (h : phase.Departs s written loud ds es) (hcalls : phase.Calling) :
    Busy ds ∧ es = [.started] := by
  cases h with
  | calling _ busy => exact ⟨busy, rfl⟩
  | _ => exact absurd hcalls id

theorem resigned {phase : Phase σ} (h : phase.Departs s written loud ds es) {st : WorkerStatus}
    (hleft : Deed.left st ∈ ds) : Resigned s ds st := by
  have hkept : ∀ {st'}, Resigned s ds st' → Resigned s ds st := by
    intro st' hr
    cases hr.once st hleft
    exact hr
  cases h with
  | starting busy => exact absurd trivial (busy _ hleft)
  | calling _ busy => exact absurd trivial (busy _ hleft)
  | closing _ resigned _ => exact hkept resigned
  | disposing _ _ resigned _ => exact hkept resigned
  | reporting _ resigned _ => exact hkept resigned
  | sending resigned _ => exact hkept resigned
  | ended resigned _ => exact hkept resigned

theorem ending (h : (.ended : Phase σ).Departs s written loud ds es) :
    ∃ st, Resigned s ds st ∧ Departure s written loud st es := by
  cases h with
  | calling calls => exact absurd calls id
  | ended resigned ends => exact ⟨_, resigned, ends⟩

theorem goOn {phase phase' : Phase σ} (h : phase.Departs s written loud ds es)
    (hcalls : phase.Calling) (hcalls' : phase'.Calling) {d : Option Deed}
    (hd : ∀ x ∈ d, ¬ x.IsFarewell) : phase'.Departs s written loud (d.toList ++ ds) es := by
  obtain ⟨busy, rfl⟩ := h.called hcalls
  exact .calling hcalls' (busy.append hd)

theorem leave {phase : Phase σ} {c : Context} (h : phase.Departs s c.written loud ds es)
    (hcalls : phase.Calling) {st : WorkerStatus} (error : Option String)
    (hst : st = .errored → s.stopped = true) :
    (Worker.leave (σ := σ) c (.ran st error)).Departs s c.written loud (.left st :: ds) es := by
  obtain ⟨busy, rfl⟩ := h.called hcalls
  exact .closing error (busy.leave hst) fun _ hi => Or.inl hi

variable [Transform σ]

/-- **A step of a worker** on its way. -/
theorem step {x : Worker σ} (h : x.phase.Departs s x.context.written loud ds es)
    (hcrashed : ∀ p, x.phase = .crashed p → loud) (hloud : loud → loud') :
    (x.step s).2.phase.Departs (x.step s).1 x.context.written loud' ((x.deed? s).toList ++ ds)
      (x.episode?.toList ++ es) := by
  -- the flag and the end marks stay, so only the phase is left to look at
  replace h := h.frame (x.step_effect s).stopped (fun i => x.done_step s) hloud
  have hmoves := x.step_moves s
  have hop : ∀ {α : Type} (a : Activity σ α), ∀ d ∈ a.deed? s x.context, ¬ d.IsFarewell :=
    fun a d hd => (Activity.deed?_isOperation x.state hd).not_isFarewell
  have hnone : ∀ d ∈ (none : Option Deed), ¬ d.IsFarewell := fun _ hd => by cases hd
  generalize x.deed? s = d, (x.step s).1 = s', (x.step s).2 = y at hmoves h ⊢
  obtain ⟨c, state, phase⟩ := x
  cases hmoves
  case starts =>
    cases h with
    | starting busy => exact .calling trivial busy
    | calling calls => exact absurd calls id
  case stops => exact h.leave trivial none fun he => by cases he
  case begins => exact h.goOn trivial (by trivial) fun _ hd => by cases hd; exact id
  case working a _ => exact h.goOn trivial (by trivial) (hop a)
  case answers => exact h.goOn trivial (by trivial) fun _ hd => by cases hd; exact id
  case panics => exact h.goOn trivial (by trivial) hnone
  case more => exact h.goOn trivial (by trivial) hnone
  case exhausted =>
    refine h.leave trivial none fun he => ?_
    split at he <;> cases he
  case cut => exact h.leave trivial none fun he => by cases he
  case bad => exact h.goOn trivial (by trivial) hnone
  case lost => exact h.goOn trivial (by trivial) hnone
  case failed => exact h.goOn trivial (by trivial) hnone
  case diverting a _ => exact h.goOn trivial (by trivial) (hop a)
  case diverted => exact h.goOn trivial (by trivial) hnone
  case interrupted => exact h.leave trivial none fun he => by cases he
  case undiverted => exact h.goOn trivial (by trivial) hnone
  case crashes => exact h.goOn trivial (by trivial) hnone
  case fails m => exact h.leave trivial (some m) fun _ => (Shared.requestStop_fixed _ c.name).2.1
  case closes i rest =>
    cases h with
    | calling calls => exact absurd calls id
    | closing error resigned closed =>
      refine .closing error (resigned.append (d := some (.closed i)) ?_) fun j hj => ?_
      · rintro _ ⟨⟩
        exact id
      · rcases closed j hj with hm | hd
        · rcases List.mem_cons.mp hm with rfl | hm
          · exact Or.inr ((s.done_finish j j).mpr (Or.inr rfl))
          · exact Or.inl hm
        · exact Or.inr hd
  case closed =>
    cases h with
    | calling calls => exact absurd calls id
    | closing error resigned closed =>
      exact .disposing error _ resigned fun i hi => (closed i hi).resolve_left List.not_mem_nil
  case disposing a _ =>
    cases h with
    | calling calls => exact absurd calls id
    | disposing error _ resigned closed =>
      exact .disposing error _ (resigned.append (hop a)) closed
  case disposed =>
    cases h with
    | calling calls => exact absurd calls id
    | disposing error _ resigned closed => exact .reporting error resigned closed
  case undisposed =>
    cases h with
    | calling calls => exact absurd calls id
    | disposing error _ resigned closed => exact .reporting error resigned closed
  case reports =>
    cases h with
    | calling calls => exact absurd calls id
    | reporting error resigned closed => exact .sending resigned (.orderly _ closed)
  case collapses p =>
    obtain ⟨busy, rfl⟩ := h.called trivial
    exact .sending (busy.leave fun _ => (s.requestStop_fixed c.name).2.1) 
      (.collapse (hloud (hcrashed p rfl)))
  case sends summary =>
    cases h with
    | calling calls => exact absurd calls id
    | sending resigned ends => exact .ended resigned.report ends
  case ended => exact h
  all_goals
    cases h with
    | calling calls => exact absurd calls id

end Phase.Departs

end Departs

/-! ### Workers on their way -/

/-- The transform has been initialized with success, and whatever had been initialized before has been
disposed of. -/
def Primed (es : List Episode) : Prop :=
  ∃ older, Spent older ∧ es = .initialized (.ok ()) :: .begun :: older

/-- How far a worker has come that has been started with a transform that was primed. -/
structure Worker.Departs (s : Shared) (h : List (WorkerKey × Deed)) (x : Worker σ) : Prop where
  excused : x.phase.Excused s x.context
  departs : ∃ es primed, x.phase.Departs s x.context.written (¬ x.context.Serene s)
    (Course.deedsOf x.key h) es ∧ Primed primed ∧ lifeOf x.key s.episodes = es ++ primed

namespace Worker.Departs

variable {s s' : Shared} {h h' : List (WorkerKey × Deed)} {x : Worker σ}

theorem frame (hx : x.Departs s h) (hstop : s.stopped = true → s'.stopped = true)
    (hdone : ∀ i, s.done i = true → s'.done i = true)
    (hgrown : ∀ slot, (s.errorCount slot).toNat ≤ (s'.errorCount slot).toNat)
    (hlife : lifeOf x.key s'.episodes = lifeOf x.key s.episodes)
    (hdeeds : Course.deedsOf x.key h' = Course.deedsOf x.key h) : x.Departs s' h' := by
  obtain ⟨hexcused, es, primed, hdeparts, hprimed, hes⟩ := hx
  rw [← hdeeds] at hdeparts
  exact ⟨hexcused.frame hgrown, es, primed,
    hdeparts.frame hstop hdone (mt fun hc => hc.of_later hgrown), hprimed, hlife.trans hes⟩

theorem step [Transform σ] (hx : x.Departs s h) :
    (x.step s).2.Departs (x.step s).1 (Course.grow x.key (x.deed? s) h) := by
  have heffect := x.step_effect s
  have hkey : (x.step s).2.key = x.key := heffect.leads.key
  obtain ⟨hexcused, es, primed, hdeparts, hprimed, hes⟩ := hx
  refine ⟨step_excused hexcused, x.episode?.toList ++ es, primed, ?_, hprimed, ?_⟩
  · rw [hkey, heffect.leads.written, Course.deedsOf_grow]
    refine hdeparts.step (fun p hp => ?_) (mt heffect.serene)
    rw [hp] at hexcused
    exact hexcused
  · rw [hkey, x.step_episodes, lifeOf_append_self, hes, List.append_assoc]

end Worker.Departs

/-! ### Starts -/

namespace Orchestrator

variable [Transform σ] {o o' : Orchestrator σ}

/-- A call that has not come back never does. -/
theorem Moves.hangs (h : o.Moves o') (hh : o'.hangs = false) : o.hangs = false := by
  cases h
  case prepares => exact hangs_prepare hh
  case starts => exact hangs_start hh
  case waits =>
    by_cases hr : ∃ since, o.state = .running since
    · obtain ⟨since, hs⟩ := hr
      obtain ⟨w, -, heq | ⟨scene, -, heq⟩⟩ := wait_induction (P := fun _ => True)
        (fun _ _ _ _ _ => trivial) (fun _ _ _ => trivial) hs trivial <;>
      · rw [heq] at hh
        exact hh
    · rw [wait_misplaced fun since hs => hr ⟨since, hs⟩] at hh
      exact hh
  all_goals exact hh

/-- Nothing but a start that succeeds puts workers to work. -/
theorem Moves.started (h : o.Moves o') (hn : ∀ since, o.state ≠ .running since) {since : Nat}
    (hr : o'.state = .running since) :
    o' = o.start.1 ∧ o.start.2 = .ok () ∧ ∃ claimed, o.state = .prepared claimed := by
  cases h
  case stays => exact absurd hr (hn since)
  case prepares =>
    rcases o.state_prepare with hs | hs
    · cases hr.symm.trans hs
    · exact absurd (hs.symm.trans hr) (hn since)
  case starts =>
    refine ⟨rfl, ?_⟩
    rcases hs : o.state with _ | claimed | since' | _
    case prepared =>
      rcases hok : o.start.2 with e | _
      · rw [(state_start hs).2 e hok] at hr
        cases hr
      · exact ⟨rfl, claimed, rfl⟩
    case idle =>
      rw [start_unprepared hs] at hr
      exact absurd hr (hn since)
    case running => exact absurd hs (hn since')
    case finished =>
      rw [start_misplaced (Or.inl hs)] at hr
      exact absurd hr (hn since)
  case waits =>
    rw [wait_misplaced hn] at hr
    exact absurd hr (hn since)
  case claims => cases hr
  case hears => exact absurd hr (hn since)
  case shares => exact absurd hr (hn since)
  case steps i hs => exact absurd hr (hn since)

theorem Manned.launched {p : Pipeline} {old : List (WorkerKey × Episode)} {ks : List WorkerKey}
    (h : o.Manned p old ks) (hok : o.start.2 = .ok ()) :
    ∀ x ∈ o.start.1.world.workers, x.phase = .starting ∧
      Primed (Rowflow.lifeOf x.key o.start.1.world.shared.episodes) := by
  have hends := o.start_ends
  generalize o.start = x at hends hok ⊢
  cases hends
  case started claimed m hs hh =>
    intro x hx
    obtain ⟨y, hy, rfl⟩ := Array.mem_map.mp hx
    have hcalled : Manned p old ks (o.called .start (o.scene o.world.shared.bindings)) :=
      ⟨h.pipeline, h.tended, h.keys, h.ready⟩
    have hkey : y.key ∈ ks := by
      rw [← h.keys]
      exact List.mem_map_of_mem (Array.mem_toList_iff.mpr hy)
    exact ⟨rfl, (hcalled.closeInjectors claimed).lifeOf hkey⟩
  all_goals cases hok

end Orchestrator

/-! ### Runs -/

namespace Course

variable {p : Pipeline} {c c' : Course σ}

theorem Outside.departs {d : Option Deed} (h : c.Outside c' d)
    (hepisodes : c'.shared.episodes = c.shared.episodes)
    (hc : ∀ x ∈ c.workers, x.Departs c.shared c.history) :
    ∀ x ∈ c'.workers, x.Departs c'.shared c'.history := by
  intro x hx
  rw [h.workers] at hx
  exact (hc x hx).frame h.stopped (fun i hi => (Shared.done_act h.rowSets i).mpr (Or.inl hi))
    (fun slot => (Shared.errorCount_congr h.errorCounts slot).symm ▸ Nat.le_refl _)
    (by rw [hepisodes]) (by rw [h.history])

variable [Transform σ]

theorem Stepped.departs {i : Nat} {x : Worker σ} (h : c.Stepped c' i x) (hcrew : c.Crew p)
    (hc : ∀ y ∈ c.workers, y.Departs c.shared c.history) :
    ∀ y ∈ c'.workers, y.Departs c'.shared c'.history := by
  intro y hy
  rw [h.shared, h.history]
  rcases h.cases hcrew hy with rfl | ⟨hy, hne⟩
  · exact (hc x h.mem).step
  · refine (hc y hy).frame (x.step_effect c.shared).stopped (fun i => x.done_step c.shared)
      (x.step_effect c.shared).grown ?_ (deedsOf_grow_of_ne hne _ _)
    rw [x.step_episodes, lifeOf_append_of_ne hne]

/-- Only workers that take steps note episodes. -/
theorem episodes_perform (hr : c.Running) {e : Event} (he : c.stepping? e = none) :
    (c.perform e).shared.episodes = c.shared.episodes := by
  have hrunning := hr
  obtain ⟨since, hs⟩ := hr
  have hidle : c.orchestrator.state ≠ .idle := fun h => by cases hs.symm.trans h
  have hprepared : ∀ claimed, c.orchestrator.state ≠ .prepared claimed :=
    fun _ h => by cases hs.symm.trans h
  rcases e with _ | id | ⟨id, l⟩ | _ | ⟨i, e⟩ | i | _ | micros | _ | i
  case prepare => simp only [perform, Orchestrator.prepare_misplaced hidle]
  case produce => simp only [perform, Orchestrator.rowProducer_misplaced hprepared]
  case listen => simp only [perform, Orchestrator.addListener_misplaced hprepared]
  case start => simp only [perform, Orchestrator.start_misplaced (Or.inr ⟨since, hs⟩)]
  case inject =>
    unfold perform Orchestrator.offer
    dsimp only
    split
    · split <;> rfl
    · rfl
  case finish =>
    unfold perform
    dsimp only
    split <;> rfl
  case stop => exact c.shared.episodes_requestStop "orchestrator"
  case step =>
    rw [stepping?_of_running hrunning] at he
    rcases stepWorker_spec (i := i) hrunning with ⟨-, hn⟩ | ⟨x, hx⟩
    · exact congrArg (fun c => c.shared.episodes) hn
    · rw [hx.worker] at he
      cases he
  all_goals rfl

section Runs

variable {registry : Registry σ} {o : Orchestrator σ} {hooks : Hooks} {bindings : Table String}
  (hnew : Orchestrator.new p registry = .ok o)
include hnew

theorem lawful_run (events : List Event) : ∃ ks,
    Orchestrator.Lawful p o.transforms ks ((begin o hooks bindings).run events).orchestrator := by
  obtain ⟨order, -, hb⟩ := Orchestrator.exists_basis hnew
  have hplay : (begin o hooks bindings).play (events.map .event) = (begin o hooks bindings).run events :=
    List.foldl_map
  rw [← hplay]
  exact ⟨_, Orchestrator.of_moves (fun _ _ hm h => h.moves hb hm) _
    (Orchestrator.lawful_begin hnew (order.flatMap p.copiesOf) o.stamina hooks bindings)⟩

/-- **On their way** are all workers of all running courses, as long as every call has come back. -/
theorem departs (events : List Event) (hr : ((begin o hooks bindings).run events).Running)
    (hh : ((begin o hooks bindings).run events).orchestrator.hangs = false) :
    ∀ x ∈ ((begin o hooks bindings).run events).workers,
      x.Departs ((begin o hooks bindings).run events).shared
        ((begin o hooks bindings).run events).history := by
  induction events using List.reverseRecOn with
  | nil =>
    obtain ⟨-, -, hidle, -⟩ := Orchestrator.new_ok hnew
    exact absurd hr (not_running_of_state hidle fun _ hs => by cases hs)
  | append_singleton events e ih =>
    have hstage : Stage p o.transforms (World.Unspoilt p) (Tended p)
        ((begin o hooks bindings).run events) := tended hnew events
    obtain ⟨ks, hlawful⟩ : ∃ ks, Orchestrator.Lawful p o.transforms ks
        ((begin o hooks bindings).run events).orchestrator := lawful_run hnew events
    rw [show (begin o hooks bindings).run (events ++ [e]) =
      ((begin o hooks bindings).run events).perform e from List.foldl_append] at hr hh ⊢
    generalize (begin o hooks bindings).run events = c at *
    have hmoves := Orchestrator.moves_perform c e
    by_cases hrun : c.Running
    · have hbefore := ih hrun (hmoves.hangs hh)
      rcases (perform_running hrun e).2 with ⟨i, x, hstep, -⟩ | ⟨d, houtside, -, he⟩
      · obtain ⟨since, hs⟩ := hrun
        unfold Stage at hstage
        rw [hs] at hstage
        exact hstep.departs hstage.crew hbefore
      · exact houtside.departs (episodes_perform hrun he) hbefore
    · obtain ⟨since, hs'⟩ := hr
      obtain ⟨ho, hok, claimed, hs⟩ := hmoves.started (fun since hs => hrun ⟨since, hs⟩) hs'
      obtain ⟨old, hmanned⟩ := hlawful.kempt_in hs (hmoves.hangs hh)
      have hhistory : (c.perform e).history = [] := by
        rw [history_of_resting hrun]
        unfold Stage at hstage
        rw [hs] at hstage
        exact hstage.history
      intro x hx
      have hx' : x ∈ c.orchestrator.start.1.world.workers := ho ▸ hx
      obtain ⟨hphase, hprimed⟩ := hmanned.launched hok x hx'
      rw [← ho] at hprimed
      refine ⟨?_, [], _, ?_, hprimed, rfl⟩
      · rw [hphase]
        trivial
      · rw [hphase, hhistory]
        exact .starting fun _ hd => by cases hd

end Runs

end Course

/-! ### A full count -/

namespace Course

namespace Full

/-- A row is read and diverted for as many errors as a word can count, and then the call fails, so that
the row is to be diverted again. -/
def scripts : Table Script :=
  .ofList [("a", { calls := [[
    .get, .putError none none { count := 18446744073709551615, description := "many" },
    .fail (.row "bad" none none)]] })]

/-- The scripted transform gets its rows from outside; its bad rows go to another transform. -/
def pipeline : Pipeline where
  transforms := [
    { id := "a", type := "script", inject := true, errorHandling := some { target := "r" } },
    { id := "r", type := "dummy" }]

/-- The run of the two. -/
def orchestrator : Orchestrator (Builtin ⊕ Scripted) where
  pipeline := pipeline
  transforms := ((Registry.withScripts scripts).resolve pipeline).toOption.getD .empty
  world := { shared := { pipeline := pipeline.name, poll := 50000 } }
  built := .ofList (pipeline.ids.map (·, 1))

theorem new_ok : Orchestrator.new pipeline (.withScripts scripts) = .ok orchestrator := rfl

/-- One row comes in, and both workers come to their ends. -/
def events : List Event :=
  [.prepare, .produce "a", .inject 1 ⟨⟨[⟨"n", .integer, -1, -1⟩]⟩, ⟨[.integer 1]⟩⟩, .finish 1, .start] ++
    List.replicate 24 (.step 0) ++ List.replicate 24 (.step 1)

/-- The state of the run after that. -/
def reached : Course (Builtin ⊕ Scripted) := (begin orchestrator Hooks.none .empty).run events

theorem running : reached.Running := ⟨5, by decide +kernel⟩

/-- The report of the worker that breaks down. -/
def summary : Summary := ⟨⟨"a", 0⟩, .errored, {}, some "attempt to add with overflow"⟩

theorem reported : (⟨"a", 0⟩, Deed.sent summary) ∈ reached.history := by decide +kernel

end Full

end Course

end Rowflow
