import Rowflow.Proofs.Course.Readiness
import Rowflow.Proofs.Course.Turns
import Rowflow.Proofs.Pipeline.Connections

/-!
# The life of a run

An orchestrator is called in any order, and hooks and initializations fail as they like. What holds by
the state in which it is (`Orchestrator.Lawful`): everybody has been disposed of while it is idle, all
workers wait for their start when it is prepared, and they have been initialized with success once they
run. `Course.lifecycle` says what follows for whoever calls it: a call out of turn changes nothing, hooks
are called by the agenda, nobody is put to work before everything has succeeded, and a call that fails
leaves nobody behind that has not been disposed of.
-/

namespace Rowflow

variable {σ : Type}

namespace Orchestrator

open Hooks (early untilStart AllAccept Agreed)

/-! ### Calls out of turn -/

section Misplaced

variable [Transform σ] {o : Orchestrator σ}

theorem prepare_misplaced (h : o.state ≠ .idle) : o.prepare = (o, .error .alreadyStarted) := by
  unfold prepare
  rw [if_pos h]

theorem start_unprepared (h : o.state = .idle) : o.start = (o, .error .notPrepared) := by
  unfold start
  rw [h]

theorem start_misplaced (h : o.HasStarted) : o.start = (o, .error .alreadyStarted) := by
  unfold start
  rcases h with h | ⟨since, h⟩ <;> rw [h]

theorem wait_misplaced (h : ∀ since, o.state ≠ .running since) : o.wait = (o, .ok (.error .notStarted)) := by
  unfold wait
  split
  · rename_i since hs
    exact absurd hs (h since)
  · rfl

omit [Transform σ] in
theorem rowProducer_misplaced (h : ∀ claimed, o.state ≠ .prepared claimed) (id : String) :
    o.rowProducer id = (o, .error .notPrepared) := by
  unfold rowProducer
  split
  · rename_i claimed hs
    exact absurd hs (h claimed)
  · rfl

omit [Transform σ] in
theorem addListener_misplaced (h : ∀ claimed, o.state ≠ .prepared claimed) (id : String)
    (l : Listener) : o.addListener id l = (o, .error .notPrepared) := by
  unfold addListener
  split
  · rename_i claimed hs
    exact absurd hs (h claimed)
  · rfl

end Misplaced

/-! ### What holds by the state -/

section States

variable {p : Pipeline} {ts : TransformMap σ} {ks : List WorkerKey} {old : List (WorkerKey × Episode)}
  {o o' : Orchestrator σ}

/-- All hooks up to the start have accepted, and then none has been called but at the end. -/
def Opened (ks : List WorkerKey) (o : Orchestrator σ) : Prop :=
  ∃ after run before, o.calls = after ++ (run ++ before) ∧ (∀ c ∈ after, c.point = .finished) ∧
    run.reverse.map HookCall.place = untilStart ks ∧ AllAccept o.hooks before run

/-- Which hooks have been called, by the state. -/
def Told (ks : List WorkerKey) (o : Orchestrator σ) : RunState → Prop
  | .idle | .finished => Agreed ks o.calls
  | .prepared _ => o.Passed ks (early ks)
  | .running _ => o.Passed ks (untilStart ks)

/-- Where the workers are, by the state. -/
def Kempt (p : Pipeline) (ks : List WorkerKey) (o : Orchestrator σ) : RunState → Prop
  | .idle => ∀ k, Spent (lifeOf k o.world.shared.episodes)
  | .prepared _ => ∃ old, o.Manned p old ks
  | .running _ => o.world.Underway p
  | .finished => (∃ old, o.Vacant p old) ∨ (o.Opened ks ∧ o.world.Underway p)

/-- What holds of an orchestrator at any time, unless some call has never come back. -/
structure Lawful (p : Pipeline) (ts : TransformMap σ) (ks : List WorkerKey) (o : Orchestrator σ) :
    Prop where
  pipeline : o.pipeline = p
  transforms : o.transforms = ts
  told : o.Told ks o.state
  kempt : o.hangs = false → o.Kempt p ks o.state

/-- The workers of a pipeline that has been accepted, in order, with their transforms. -/
structure Basis (p : Pipeline) (ts : TransformMap σ) (ks : List WorkerKey) : Prop where
  wellFormed : p.WellFormed
  resolved : ∀ id ∈ p.ids, ∃ r, ts.find? id = some r ∧ p.transform? id = some r.spec
  lists : p.Lists ks

theorem Lawful.of_state {s : RunState} (hs : o.state = s) (pipeline : o.pipeline = p)
    (transforms : o.transforms = ts) (told : o.Told ks s) (kempt : o.hangs = false → o.Kempt p ks s) :
    Lawful p ts ks o := by
  subst hs
  exact ⟨pipeline, transforms, told, kempt⟩

theorem Lawful.told_in {s : RunState} (h : Lawful p ts ks o) (hs : o.state = s) : o.Told ks s :=
  hs ▸ h.told

theorem Lawful.kempt_in {s : RunState} (h : Lawful p ts ks o) (hs : o.state = s)
    (hh : o.hangs = false) : o.Kempt p ks s :=
  hs ▸ h.kempt hh

theorem Lawful.agreed (h : Lawful p ts ks o) : Agreed ks o.calls := by
  have htold := h.told
  generalize o.state = s at htold
  rcases s with _ | claimed | since | _
  case idle => exact htold
  case prepared =>
    exact Passed.agreed htold (List.cons_ne_nil _ _) (Hooks.early_begins (List.prefix_refl ks))
  case running => exact Passed.agreed htold (List.cons_ne_nil _ _) (Hooks.untilStart_begins ks)
  case finished => exact htold

theorem Manned.lifeOf (h : o.Manned p old ks) {k : WorkerKey} (hk : k ∈ ks) :
    ∃ es, Spent es ∧ lifeOf k o.world.shared.episodes = .initialized (.ok ()) :: .begun :: es := by
  rw [← h.keys] at hk
  obtain ⟨x, hx, rfl⟩ := List.mem_map.mp hk
  have hmem := Array.mem_toList_iff.mp hx
  have hrecords := h.tended.records x hmem
  rw [h.ready x hmem] at hrecords
  generalize Rowflow.lifeOf x.key o.world.shared.episodes = es at hrecords ⊢
  cases hrecords with
  | initialized result hspent => exact ⟨_, hspent, rfl⟩

theorem Manned.unstarted (h : o.Manned p old ks) (k : WorkerKey) :
    (k, .started) ∉ o.world.shared.episodes := by
  rw [← mem_lifeOf]
  by_cases hk : k ∈ ks
  · obtain ⟨es, hspent, hlife⟩ := h.lifeOf hk
    rw [hlife]
    simpa using hspent.unstarted
  · rw [h.tended.others k (by rw [← h.keys] at hk; exact hk)]
    exact (h.tended.spent k).unstarted

theorem Manned.hear (h : o.Manned p old ks) (id : String) (l : Listener) :
    Manned p old ks { o with
      world := { o.world with workers := o.world.workers.map (Worker.hear id l) } } := by
  have hsame : ∀ x : Worker σ, (x.hear id l).key = x.key ∧ (x.hear id l).phase = x.phase ∧
      (x.hear id l).context.written = x.context.written := by
    intro x
    unfold Worker.hear
    split <;> exact ⟨rfl, rfl, rfl⟩
  have hkeys : (o.world.workers.map (Worker.hear id l)).toList.map Worker.key =
      o.world.workers.toList.map Worker.key := by
    rw [Array.toList_map, List.map_map]
    exact List.map_congr_left fun x _ => (hsame x).1
  refine ⟨h.pipeline, ⟨h.tended.laid, by rw [hkeys]; exact h.tended.nodup, ?_, ?_, h.tended.spent,
    by rw [hkeys]; exact h.tended.others⟩, hkeys.trans h.keys, ?_⟩
  all_goals
    refine Array.forall_mem_map.mpr fun x hx => ?_
    obtain ⟨hkey, hphase, hwritten⟩ := hsame x
  · rw [hkey, hwritten]
    exact h.tended.writes x hx
  · rw [hkey, hwritten, hphase]
    exact h.tended.records x hx
  · rw [hphase]
    exact h.ready x hx

variable [Transform σ]

theorem Vacant.step (h : o.Vacant p old) (i : Nat) :
    Vacant p old { o with world := o.world.step i } := by
  refine ⟨h.tended.step i, World.forall_step h.ended fun x _ hended => ?_⟩
  rw [Worker.Rests.step (Or.inr hended)]
  exact hended

theorem Manned.start (h : o.Manned p old ks) (hall : ∀ k ∈ p.workers, k ∈ ks)
    (hok : o.start.2 = .ok ()) : o.start.1.world.Underway p := by
  have hends := o.start_ends
  generalize o.start = x at hends hok ⊢
  cases hends
  case started claimed m hs hh =>
    refine ⟨fun x hx => ?_, fun k hk => ?_⟩
    · obtain ⟨y, -, rfl⟩ := Array.mem_map.mp hx
      trivial
    · have hcalled : Manned p old ks (o.called .start (o.scene o.world.shared.bindings)) :=
        ⟨h.pipeline, h.tended, h.keys, h.ready⟩
      obtain ⟨es, -, hlife⟩ := (hcalled.closeInjectors claimed).lifeOf (hall k hk)
      exact congrArg outcome hlife
  all_goals cases hok

/-! ### Turns -/

theorem Lawful.prepares (hb : Basis p ts ks) (h : Lawful p ts ks o) : Lawful p ts ks o.prepare.1 := by
  by_cases hidle : o.state = .idle
  · obtain ⟨hpipe, hts⟩ := o.prepare_fixed
    obtain ⟨order, hord, hks⟩ := hb.lists.ordered
    have htold : Agreed ks o.calls := h.told_in hidle
    obtain ⟨hpassed, hagreed⟩ := prepare_passed htold fun order' hord' => by
      rw [h.pipeline, hord, Option.some.injEq] at hord'
      rw [hks, hord', h.pipeline]
    have hends : o.prepare.1.hangs = false → _ := fun hh =>
      prepare_manned hb.wellFormed h.pipeline (by rw [h.transforms]; exact hb.resolved)
        (h.kempt_in hidle (hangs_prepare hh)) hh
    rcases hr : o.prepare.2 with e | _
    · refine .of_state ((sameRun_prepare hr).state.trans hidle) (hpipe.trans h.pipeline)
        (hts.trans h.transforms) (hagreed e hr) fun hh => ?_
      show ∀ k, Spent (lifeOf k o.prepare.1.world.shared.episodes)
      rcases (hends hh).2 e hr with hsame | hvacant
      · rw [hsame]
        exact h.kempt_in hidle (hangs_prepare hh)
      · exact hvacant.spent
    · refine .of_state (state_prepare_ok hr) (hpipe.trans h.pipeline) (hts.trans h.transforms)
        (hpassed hr) fun hh => ?_
      obtain ⟨order', hord', hmanned⟩ := (hends hh).1 hr
      rw [hord, Option.some.injEq] at hord'
      rw [hks, hord']
      exact ⟨_, hmanned⟩
  · rw [prepare_misplaced hidle]
    exact h

theorem Lawful.starts (hb : Basis p ts ks) (h : Lawful p ts ks o) : Lawful p ts ks o.start.1 := by
  rcases hs : o.state with _ | claimed | since | _
  case idle =>
    rw [start_unprepared hs]
    exact h
  case running =>
    rw [start_misplaced (Or.inr ⟨since, hs⟩)]
    exact h
  case finished =>
    rw [start_misplaced (Or.inl hs)]
    exact h
  case prepared =>
    obtain ⟨hpipe, hts⟩ := o.start_fixed
    obtain ⟨hpassed, hagreed⟩ := start_passed hs (h.told_in hs)
    obtain ⟨hrunning, hfinished⟩ := state_start hs
    rcases hr : o.start.2 with e | _
    · refine .of_state (hfinished e hr) (hpipe.trans h.pipeline) (hts.trans h.transforms)
        (hagreed e hr) fun hh => ?_
      obtain ⟨old, hmanned⟩ := h.kempt_in hs (hangs_start hh)
      exact Or.inl ⟨old, (start_vacant hb.wellFormed hmanned hs hr hh).1⟩
    · obtain ⟨since, hs'⟩ := hrunning hr
      refine .of_state hs' (hpipe.trans h.pipeline) (hts.trans h.transforms) (hpassed hr) fun hh => ?_
      obtain ⟨old, hmanned⟩ := h.kempt_in hs (hangs_start hh)
      exact hmanned.start (fun k hk => hb.lists.perm.mem_iff.mpr hk) hr

theorem Lawful.waits (h : Lawful p ts ks o) : Lawful p ts ks o.wait.1 := by
  by_cases hr : ∃ since, o.state = .running since
  · obtain ⟨since, hs⟩ := hr
    have htold : o.Passed ks (untilStart ks) := h.told_in hs
    have hagreed : ∀ {scene : HookScene}, scene.worker = none →
        Agreed ks (o.called .finished scene).calls := fun {scene} hscene =>
      htold.agreed_called (by rw [hscene]; exact List.prefix_refl _)
    obtain ⟨run, before, hcalls, -, hplaces, haccept⟩ := htold.split
    have hopened : ∀ w : World σ, Opened ks { o with state := .finished, world := w } := fun _ =>
      ⟨[], run, before, hcalls, by simp, hplaces, haccept⟩
    have hcalled : ∀ (scene : HookScene) (w : World σ), Opened ks
        { o with state := .finished, calls := ⟨.finished, scene⟩ :: o.calls, world := w } :=
      fun scene _ =>
        ⟨[⟨.finished, scene⟩], run, before, congrArg (_ :: ·) hcalls, by simp, hplaces, haccept⟩
    have hsame : Agreed ks o.calls := h.agreed
    by_cases hh : o.hangs = false
    · have hunderway : o.world.Underway p := h.kempt_in hs hh
      obtain ⟨w, hw, heq | ⟨scene, hscene, heq⟩⟩ := wait_induction (P := World.Underway p)
        (fun _ _ hworkers hepisodes h => h.keep hworkers hepisodes) (fun _ i h => h.step i) hs hunderway
      · rw [heq]
        exact ⟨h.pipeline, h.transforms, hsame, fun _ => Or.inr ⟨hopened w, hw⟩⟩
      · rw [heq]
        exact ⟨h.pipeline, h.transforms, hagreed hscene, fun _ => Or.inr ⟨hcalled scene w, hw⟩⟩
    · obtain ⟨w, -, heq | ⟨scene, hscene, heq⟩⟩ := wait_induction (P := fun _ => True)
        (fun _ _ _ _ _ => trivial) (fun _ _ _ => trivial) hs trivial
      · rw [heq]
        exact ⟨h.pipeline, h.transforms, hsame, fun hh' => absurd hh' hh⟩
      · rw [heq]
        exact ⟨h.pipeline, h.transforms, hagreed hscene, fun hh' => absurd hh' hh⟩
  · rw [wait_misplaced fun since hs => hr ⟨since, hs⟩]
    exact h

omit [Transform σ] in
/-- What workers share may change as long as it is neither episodes nor end marks. -/
theorem Lawful.share (h : Lawful p ts ks o) {s : Shared}
    (hepisodes : s.episodes = o.world.shared.episodes)
    (hsize : s.rowSets.size = o.world.shared.rowSets.size)
    (hdone : ∀ i, o.world.shared.done i = true → s.done i = true) :
    Lawful p ts ks { o with world := { o.world with shared := s } } := by
  have hcalls : o.SameCalls { o with world := { o.world with shared := s } } := ⟨rfl, rfl⟩
  obtain ⟨state, hs⟩ : ∃ state, o.state = state := ⟨_, rfl⟩
  rcases state with _ | claimed | since | _
  case idle =>
    refine .of_state hs h.pipeline h.transforms (h.told_in hs) fun hh => ?_
    show ∀ k, Spent (lifeOf k s.episodes)
    rw [hepisodes]
    exact h.kempt_in hs hh
  case prepared =>
    refine .of_state hs h.pipeline h.transforms (Passed.same (h.told_in hs) hcalls) fun hh => ?_
    obtain ⟨old, hmanned⟩ := h.kempt_in hs hh
    exact ⟨old, hmanned.pipeline, hmanned.tended.share hepisodes hsize hdone, hmanned.keys,
      hmanned.ready⟩
  case running =>
    exact .of_state hs h.pipeline h.transforms (Passed.same (h.told_in hs) hcalls) fun hh =>
      World.Underway.keep (h.kempt_in hs hh) rfl hepisodes
  case finished =>
    refine .of_state hs h.pipeline h.transforms (h.told_in hs) fun hh => ?_
    rcases h.kempt_in hs hh with ⟨old, hvacant⟩ | ⟨hopened, hunderway⟩
    · exact Or.inl ⟨old, hvacant.tended.share hepisodes hsize hdone, hvacant.ended⟩
    · exact Or.inr ⟨hopened, hunderway.keep rfl hepisodes⟩

theorem Lawful.steps (h : Lawful p ts ks o) (hs : o.HasStarted) (i : Nat) :
    Lawful p ts ks { o with world := o.world.step i } := by
  have hcalls : o.SameCalls { o with world := o.world.step i } := ⟨rfl, rfl⟩
  rcases hs with hs | ⟨since, hs⟩
  · refine .of_state hs h.pipeline h.transforms (h.told_in hs) fun hh => ?_
    rcases h.kempt_in hs hh with ⟨old, hvacant⟩ | ⟨hopened, hunderway⟩
    · exact Or.inl ⟨old, hvacant.step i⟩
    · exact Or.inr ⟨hopened, hunderway.step i⟩
  · exact .of_state hs h.pipeline h.transforms (Passed.same (h.told_in hs) hcalls) fun hh =>
      World.Underway.step (h.kempt_in hs hh) i

/-- **A turn** keeps the order. -/
theorem Lawful.moves (hb : Basis p ts ks) (h : Lawful p ts ks o) (hm : o.Moves o') :
    Lawful p ts ks o' := by
  cases hm
  case stays => exact h
  case prepares => exact h.prepares hb
  case starts => exact h.starts hb
  case waits => exact h.waits
  case claims claimed id hs =>
    refine .of_state rfl h.pipeline h.transforms (Passed.same (h.told_in hs) ⟨rfl, rfl⟩) fun hh => ?_
    obtain ⟨old, hmanned⟩ := h.kempt_in hs hh
    exact ⟨old, hmanned.pipeline, hmanned.tended, hmanned.keys, hmanned.ready⟩
  case hears claimed id l hs =>
    refine .of_state hs h.pipeline h.transforms (Passed.same (h.told_in hs) ⟨rfl, rfl⟩) fun hh => ?_
    obtain ⟨old, hmanned⟩ := h.kempt_in hs hh
    exact ⟨old, hmanned.hear id l⟩
  case shares s episodes size done => exact h.share episodes size done
  case steps i hs => exact h.steps hs i

/-! ### What the order comes to -/

omit [Transform σ] in
/-- What a worker has been told to write to is done, if it has ended. -/
theorem Vacant.closed (h : o.Vacant p old) (hp : p.WellFormed) {k : WorkerKey} (hk : k ∈ o.keys) {i : Nat}
    (hw : (Topology.Writer.worker k).Writes (Topology.build p) i) : o.world.shared.Sealed i := by
  obtain ⟨ch, hch, hwriter⟩ := Topology.exists_channel_of_writes hp hw
  exact h.sealed_of_writer hk hch (Topology.writerOf_eq_worker.mp hwriter.symm)

/-- The life of a run, told of an orchestrator at any time. What is said of copies of transforms holds as
long as every call has come back: a call hangs while some transform goes on and on with its
initialization or its disposal. -/
structure Orderly (p : Pipeline) (ks : List WorkerKey) (o : Orchestrator σ) : Prop where
  prepare_out_of_turn : o.state ≠ .idle → o.prepare = (o, .error .alreadyStarted)
  start_too_early : o.state = .idle → o.start = (o, .error .notPrepared)
  start_again : o.HasStarted → o.start = (o, .error .alreadyStarted)
  wait_out_of_turn : (∀ since, o.state ≠ .running since) → o.wait = (o, .ok (.error .notStarted))
  produce_out_of_turn : (∀ claimed, o.state ≠ .prepared claimed) → ∀ id,
    o.rowProducer id = (o, .error .notPrepared)
  listen_out_of_turn : (∀ claimed, o.state ≠ .prepared claimed) → ∀ id l,
    o.addListener id l = (o, .error .notPrepared)
  /-- The hooks of each run are called by the agenda, as far as the run comes. -/
  hooks : Agreed ks o.calls
  /-- Somebody is put to work only if all hooks and all initializations before have succeeded. -/
  started : o.hangs = false → ∀ k, (k, .started) ∈ o.world.shared.episodes →
    o.Opened ks ∧ ∀ k' ∈ p.workers, outcome (lifeOf k' o.world.shared.episodes) = some (.ok ())
  /-- A preparation that fails leaves an orchestrator that has not been prepared. Whoever has been
  initialized in it has been disposed of, and what it writes to is done. -/
  prepare_aborted : ∀ e, o.prepare.2 = .error e → e.IsAbort → o.prepare.1.hangs = false →
    o.prepare.1.state = .idle ∧ ∀ k, Spent (lifeOf k o.prepare.1.world.shared.episodes) ∧
      (lifeOf k o.prepare.1.world.shared.episodes ≠ lifeOf k o.world.shared.episodes →
        ∀ i, (Topology.Writer.worker k).Writes (Topology.build p) i →
          o.prepare.1.world.shared.Sealed i)
  /-- A start that fails ends the run. Everybody has been disposed of, and whatever could have been
  written to, also from outside, is done. -/
  start_aborted : ∀ e, o.start.2 = .error e → e.IsAbort → o.start.1.hangs = false →
    o.start.1.state = .finished ∧ (∀ k, Spent (lifeOf k o.start.1.world.shared.episodes)) ∧
      ∀ w i, Topology.Writer.Writes (Topology.build p) i w → o.start.1.world.shared.Sealed i

theorem Lawful.orderly (hb : Basis p ts ks) (h : Lawful p ts ks o) : Orderly p ks o where
  prepare_out_of_turn := prepare_misplaced
  start_too_early := start_unprepared
  start_again := start_misplaced
  wait_out_of_turn := wait_misplaced
  produce_out_of_turn := rowProducer_misplaced
  listen_out_of_turn := addListener_misplaced
  hooks := h.agreed
  started hh k hk := by
    have hunstarted : ¬ Spent (lifeOf k o.world.shared.episodes) := fun hspent =>
      hspent.unstarted (mem_lifeOf.mpr hk)
    obtain ⟨state, hs⟩ : ∃ state, o.state = state := ⟨_, rfl⟩
    have hkempt := h.kempt_in hs hh
    have htold := h.told_in hs
    rcases state with _ | claimed | since | _
    case idle => exact absurd (hkempt k) hunstarted
    case prepared =>
      obtain ⟨old, hmanned⟩ := hkempt
      exact absurd hk (hmanned.unstarted k)
    case running =>
      obtain ⟨run, before, hcalls, -, hplaces, haccept⟩ := Passed.split htold
      exact ⟨⟨[], run, before, hcalls, fun c hc => absurd hc List.not_mem_nil, hplaces, haccept⟩,
        World.Underway.outcomes hkempt⟩
    case finished =>
      rcases hkempt with ⟨old, hvacant⟩ | ⟨hopened, hunderway⟩
      · exact absurd (hvacant.spent k) hunstarted
      · exact ⟨hopened, hunderway.outcomes⟩
  prepare_aborted e he habort hh := by
    by_cases hidle : o.state = .idle
    · have hspent := h.kempt_in hidle (hangs_prepare hh)
      refine ⟨(sameRun_prepare he).state.trans hidle, fun k => ?_⟩
      obtain ⟨-, hvacant⟩ := prepare_manned hb.wellFormed h.pipeline
        (by rw [h.transforms]; exact hb.resolved) hspent hh
      rcases hvacant e he with hsame | hvacant
      · rw [hsame]
        exact ⟨hspent k, fun hne => absurd rfl hne⟩
      · refine ⟨hvacant.spent k, fun hne i hw => hvacant.closed hb.wellFormed ?_ hw⟩
        by_contra hk
        exact hne (hvacant.tended.others k hk)
    · rw [prepare_misplaced hidle] at he
      cases he
      cases habort
  start_aborted e he habort hh := by
    obtain ⟨state, hs⟩ : ∃ state, o.state = state := ⟨_, rfl⟩
    rcases state with _ | claimed | since | _
    case prepared =>
      obtain ⟨old, hmanned⟩ := h.kempt_in hs (hangs_start hh)
      obtain ⟨hvacant, hkeys, hinjectors⟩ := start_vacant hb.wellFormed hmanned hs he hh
      refine ⟨(state_start hs).2 e he, hvacant.spent, fun w i hw => ?_⟩
      rcases w with k | id
      · have hk := hb.lists.perm.mem_iff.mpr (Topology.mem_workers_of_writes hw)
        exact hvacant.closed hb.wellFormed (by rw [hkeys]; exact hk) hw
      · have hinjector : (id, i) ∈ (Topology.build p).injectors := hw
        rw [Topology.build_injectors] at hinjector
        have hch := hb.wellFormed.mem_injectors.mp hinjector
        exact hvacant.sealed_of_done hch (hinjectors i id hch)
    case idle =>
      rw [start_unprepared hs] at he
      cases he
      cases habort
    case running =>
      rw [start_misplaced (Or.inr ⟨since, hs⟩)] at he
      cases he
      cases habort
    case finished =>
      rw [start_misplaced (Or.inl hs)] at he
      cases he
      cases habort

end States

/-! ### New runs -/

variable {p : Pipeline} {registry : Registry σ} {o : Orchestrator σ}

theorem exists_basis (hnew : new p registry = .ok o) :
    ∃ order, (HopGraph.ofPipeline p).topologicalOrder = some order ∧
      Basis p o.transforms (order.flatMap p.copiesOf) := by
  obtain ⟨hv, -⟩ := new_ok hnew
  have hp := Pipeline.wellFormed_of_validationErrors hv
  obtain ⟨order, hord⟩ := Pipeline.exists_order hv
  refine ⟨order, hord, hp, fun id hid => ?_, hp.lists hord⟩
  obtain ⟨r, hr⟩ := exists_resolved hnew hid
  exact ⟨r, hr, (resolved_of_new hnew hr).1⟩

theorem lawful_begin (hnew : new p registry = .ok o) (ks : List WorkerKey) (stamina : Nat)
    (hooks : Hooks) (bindings : Table String) :
    Lawful p o.transforms ks (Course.begin { o with stamina } hooks bindings).orchestrator := by
  unfold new at hnew
  split at hnew
  · rcases hr : registry.resolve p with e | ts <;> simp only [hr] at hnew <;> cases hnew
    exact ⟨rfl, rfl, Hooks.agreed_nil _, fun _ k => Spent.nil⟩
  · cases hnew

end Orchestrator

namespace Course

variable [Transform σ]

/-- **The life of a run.** However an orchestrator is called that has been made for a pipeline, whatever
hooks and initializations answer and however long they take, it is in order after every turn. -/
theorem lifecycle {p : Pipeline} {registry : Registry σ} {o : Orchestrator σ}
    (hnew : Orchestrator.new p registry = .ok o) (stamina : Nat) (hooks : Hooks)
    (bindings : Table String) (turns : List Turn) :
    ∃ ks, p.Lists ks ∧
      ((begin { o with stamina } hooks bindings).play turns).orchestrator.Orderly p ks := by
  obtain ⟨order, -, hb⟩ := Orchestrator.exists_basis hnew
  have hfirst := Orchestrator.lawful_begin hnew (order.flatMap p.copiesOf) stamina hooks bindings
  exact ⟨_, hb.lists, (Orchestrator.of_moves (fun _ _ hm h => h.moves hb hm) turns hfirst).orderly hb⟩

/-! ### Hooks that refuse twice -/

namespace Refused

/-- One transform passes rows to another. -/
def pipeline : Pipeline where
  transforms := [{ id := "a", type := "dummy" }, { id := "b", type := "dummy" }]
  hops := [{ origin := "a", target := "b" }]

/-- The built-in transforms. -/
def registry : Registry Builtin := .builtins id

/-- The run of the two. -/
def orchestrator : Orchestrator Builtin where
  pipeline := pipeline
  transforms := (registry.resolve pipeline).toOption.getD .empty
  world := { shared := { pipeline := pipeline.name, poll := 50000 } }
  built := .ofList (pipeline.ids.map (·, 1))

theorem new_ok : Orchestrator.new pipeline registry = .ok orchestrator := rfl

/-- The second initialization is refused, and so is the start. -/
def hooks : Hooks :=
  .scripted (fun _ => .empty) fun
    | .initialized => some (2, "not yet")
    | .start => some (1, "never")
    | _ => none

/-- The run after some turns. -/
def after (turns : List Turn) : Course Builtin :=
  (begin { orchestrator with stamina := 100 } hooks .empty).play turns

end Refused

/-- A preparation fails when both transforms have been initialized, the next one succeeds, and then the
start fails. -/
theorem lifecycle_refused :
    (∃ ks, Refused.pipeline.Lists ks ∧
      (Refused.after [.event .prepare, .event .prepare]).orchestrator.Orderly Refused.pipeline ks) ∧
    (Refused.after []).orchestrator.prepare.2 = .error (.hookFailed .initialized "not yet") ∧
    (Refused.after [.event .prepare, .event .prepare]).orchestrator.start.2 =
      .error (.hookFailed .start "never") ∧
    (Refused.after [.event .prepare, .event .prepare]).orchestrator.start.1.hangs = false :=
  ⟨lifecycle Refused.new_ok 100 Refused.hooks .empty [.event .prepare, .event .prepare], rfl, rfl, rfl⟩

end Course

end Rowflow
