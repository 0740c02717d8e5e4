import Rowflow.Proofs.Course.Crew
import Rowflow.Proofs.Course.Custody

/-!
# A truncated stream never looks like a clean one

`Course.Custody` is what holds of every running course in which no transform makes up stop errors:
its workers are kept, and a worker that has left with status `Done` after a call without a row has
all its inputs drained, by then all who write to them have left with status `Done`.

The reason lies in the order of four operations. A worker that fails raises the stop flag before it
closes what it writes to (`Gone.stopped`, `Inside.opened`), and a worker whose call answers that
there is nothing more to do looks at the stop flag after that call. So if it finds the flag down,
whoever closed its inputs before had left with status `Done`.

- `Course.custody`: the invariant, for all runs.
- `Course.clean_end`: what a clean end tells about the inputs and about who wrote to them.
-/

namespace Rowflow

variable {σ : Type}

/-! ### What a worker that has left says -/

theorem Phase.Stands.cases {s : Shared} {h : List (WorkerKey × Deed)} {c : Context}
    {ds : List Deed} {phase : Phase σ} (hx : phase.Stands s h c ds) :
    Inside s c ds ∨ ∃ st, Gone s ds st := by
  unfold Phase.Stands at hx
  split at hx
  · exact absurd hx id
  · exact absurd hx id
  · exact Or.inl hx
  · exact Or.inl hx
  · exact Or.inl hx
  · exact Or.inl hx
  · exact Or.inl hx.1
  · exact Or.inl hx.1
  · exact Or.inl hx.1
  · obtain ⟨st, -, -, hg, -⟩ := hx
    exact Or.inr ⟨st, hg⟩
  · obtain ⟨st, -, -, hg, -⟩ := hx
    exact Or.inr ⟨st, hg⟩
  · exact Or.inr ⟨_, hx.1⟩
  · exact Or.inr ⟨_, hx.1⟩
  · obtain ⟨st, hg, -⟩ := hx
    exact Or.inr ⟨st, hg⟩

namespace Worker

variable {p : Pipeline} {s : Shared} {h : List (WorkerKey × Deed)} {x : Worker σ}

theorem Kept.gone (hx : x.Kept p s h) {st : WorkerStatus} (hl : (x.key, Deed.left st) ∈ h) :
    Gone s (Course.deedsOf x.key h) st := by
  have hm := Course.mem_deedsOf.mpr hl
  rcases hx.stands.cases with hin | ⟨st', hg⟩
  · exact absurd hm (hin.stays st)
  · rwa [hg.once st hm]

/-- Whoever writes to a row set that is done has left with status `Done`, unless the run is
stopped. -/
theorem Kept.left_of_done (hx : x.Kept p s h) (hstop : s.stopped = false) {i : Nat}
    (hi : i ∈ x.context.written) (hdone : s.done i = true) : (x.key, Deed.left .done) ∈ h := by
  rcases hx.stands.cases with hin | ⟨st, hg⟩
  · rw [hin.opened i hi] at hdone
    cases hdone
  · have hst : st = .done := by
      by_contra hne
      rw [hg.stopped hne] at hstop
      cases hstop
    subst hst
    exact Course.mem_deedsOf.mp hg.left

end Worker

theorem Deed.endedDry_cons {d : Deed} {ds : List Deed} (hd : ∀ r, d ≠ .answered r) :
    endedDry (d :: ds) ↔ endedDry ds := by
  cases d
  case answered r => exact absurd rfl (hd r)
  all_goals exact Iff.rfl

/-! ### Before the start -/

/-- Before the start every worker has its wiring, and what a worker writes to is open. -/
structure World.Unspoilt (p : Pipeline) (w : World σ) : Prop where
  wired : ∀ x ∈ w.workers, x.context.Wired p w.shared ∧ x.Aims
  opened : ∀ i ch k, p.channels[i]? = some ch → ch.writer? = some k → w.shared.done i = false

namespace World.Unspoilt

variable {p : Pipeline}

theorem outside {w w' : World σ} (h : w.Unspoilt p) (hw : w'.workers = w.workers)
    {d : Option Deed} (hact : w'.shared.rowSets = Deed.act? w.shared.rowSets d)
    (he : ∀ x ∈ d, x.Enabled w.shared)
    (hd : ∀ i, d = some (.closed i) → ∃ t, p.channels[i]? = some (.injector t)) :
    w'.Unspoilt p := by
  refine ⟨fun x hx => ?_, fun i ch k hi hk => ?_⟩
  · rw [hw] at hx
    exact ⟨(h.wired x hx).1.frame hact he, (h.wired x hx).2⟩
  · rw [← Bool.not_eq_true, Shared.done_act hact i, h.opened i ch k hi hk]
    rintro (hf | hc)
    · cases hf
    · obtain ⟨t, ht⟩ := hd i hc
      rw [hi] at ht
      cases ht
      cases hk

variable [Transform σ]

theorem stepped {w : World σ} (h : w.Unspoilt p) {i : Nat} {x : Worker σ}
    (hi : w.workers[i]? = some x) (hx : x.IsEarly) : (w.step i).Unspoilt p := by
  have heffect := x.step_effect w.shared
  obtain ⟨hwired, haims⟩ := h.wired x (Array.mem_of_getElem? hi)
  have henabled : ∀ d ∈ x.deed? w.shared, d.Enabled w.shared := fun d hd =>
    (Worker.deed?_grounds haims hd).enabled
  have hopen : ∀ j, x.deed? w.shared ≠ some (.closed j) := by
    intro j hj
    obtain ⟨c, state, phase⟩ := x
    rcases hx with ⟨a, rfl⟩ | ⟨r, rfl⟩ <;> cases Worker.deed?_leads hj
    all_goals rename_i hk; exact hk
  rw [World.step_of_getElem? hi]
  refine ⟨fun y hy => ?_, fun j ch k hj hk => ?_⟩
  · rcases Array.mem_or_eq_of_mem_setIfInBounds hy with hy | rfl
    · exact ⟨(h.wired y hy).1.frame heffect.rowSets henabled, (h.wired y hy).2⟩
    · exact ⟨hwired.step heffect henabled, Worker.step_aims haims⟩
  · rw [← Bool.not_eq_true, Shared.done_act heffect.rowSets j, h.opened j ch k hj hk]
    rintro (hf | hc)
    · cases hf
    · exact hopen j hc

/-- **Preparation spoils nothing.** -/
theorem early (ts : TransformMap σ) : Early p ts (World.Unspoilt (σ := σ) p) where
  laid w hw hr _ := by
    refine ⟨fun x hx => ?_, fun i ch k hi _ => ?_⟩
    · rw [hw] at hx
      exact absurd hx (Array.not_mem_empty x)
    · unfold Shared.done Shared.rowSet?
      rw [hr, List.getElem?_toArray, Pipeline.rowSets, List.getElem?_map, hi]
      rcases ch with _ | _ | _ <;> rfl
  like w w' hl h :=
    h.outside hl.workers (d := none) hl.rowSets (fun _ hx => by cases hx) fun _ hx => by cases hx
  enrolled w k r n state hr hspec hk hi h := by
    refine ⟨fun x hx => ?_, h.opened⟩
    rcases Array.mem_push.mp hx with hx | rfl
    · exact h.wired x hx
    · refine ⟨.new (k := k) ?_ hk, fun i hi => by cases hi⟩
      rw [Pipeline.context?, hspec]
      rfl
  stepped w i x hi hx _ h := h.stepped hi hx
  heard w id l h := by
    refine ⟨fun x hx => ?_, h.opened⟩
    obtain ⟨y, hy, rfl⟩ := Array.mem_map.mp hx
    unfold Worker.hear
    split
    · obtain ⟨⟨⟨h1, h2⟩, h3, h4⟩, h5⟩ := h.wired y hy
      exact ⟨⟨⟨h1, h2⟩, h3, h4⟩, h5⟩
    · exact h.wired y hy
  injected w i t e hi ha h :=
    h.outside rfl (d := some (.gave i e)) rfl (fun _ hx => by cases hx; exact ha)
      fun _ hx => by cases hx
  finished w i t hi h :=
    h.outside rfl (d := some (.closed i)) rfl (fun _ hx => by cases hx; trivial)
      fun _ hx => by cases hx; exact ⟨t, hi⟩
  launched w h := by
    refine ⟨fun x hx => ?_, h.opened⟩
    obtain ⟨y, hy, rfl⟩ := Array.mem_map.mp hx
    exact ⟨(h.wired y hy).1, fun i hi => by cases hi⟩

end World.Unspoilt

/-! ### While the workers run -/

namespace Course

variable {p : Pipeline} {c c' : Course σ}

/-- The deeds of a worker say that it came to a clean end: it has left with status `Done`, and in
its last call a read was answered with no row. -/
def EndedClean (h : List (WorkerKey × Deed)) (k : WorkerKey) : Prop :=
  (k, Deed.left .done) ∈ h ∧ Deed.endedDry (deedsOf k h)

/-- What holds of a running course without made-up stop errors. -/
structure Custody (p : Pipeline) (c : Course σ) : Prop where
  crew : c.Crew p
  kept : ∀ x ∈ c.workers, x.Kept p c.shared c.history
  producers : ∀ i ∈ c.producers, ∃ t, p.channels[i]? = some (.injector t)
  injectors : ∀ i t, p.channels[i]? = some (.injector t) →
    c.shared.done i = true ∨ i ∈ c.producers
  stops : ∀ k e, (k, Deed.refused e) ∈ c.history → e.isStop = true → c.shared.stopped = true
  takers : ∀ k i e, (k, Deed.took i e) ∈ c.history →
    k ∈ p.copiesOf k.id ∧ i ∈ (p.wiring k).inputs
  log : ∀ i, ∃ early,
    (c.shared.accepted i).take (c.shared.delivered i) = early ++ taken i c.history
  drained : ∀ k, EndedClean c.history k → ∀ i ∈ (p.wiring k).inputs, c.shared.front i = .done
  upstream : ∀ k, EndedClean c.history k → ∀ i ∈ (p.wiring k).inputs,
    ∀ ch k', p.channels[i]? = some ch → ch.writer? = some k' → (k', Deed.left .done) ∈ c.history

theorem Launched.custody (hp : p.WellFormed) (h : c.Launched p) (hw : c.world.Unspoilt p) :
    c.Custody p where
  crew := h.crew hp
  kept x hx := by
    obtain ⟨hwired, haims⟩ := hw.wired x hx
    refine ⟨hwired, haims, ?_⟩
    rw [h.starting x hx, h.history]
    refine ⟨fun st hm => (by cases hm), fun sm hm => (by cases hm), fun i hi => ?_⟩
    obtain ⟨ch, hch, hk⟩ := (hwired.written hp).mp hi
    exact hw.opened i ch _ hch hk
  producers := h.producers
  injectors := h.injectors
  stops k e hm := by
    rw [h.history] at hm
    cases hm
  takers k i e hm := by
    rw [h.history] at hm
    cases hm
  log i := ⟨_, by rw [h.history]; exact (List.append_nil _).symm⟩
  drained k hk := by
    have hm := hk.1
    rw [h.history] at hm
    cases hm
  upstream k hk := by
    have hm := hk.1
    rw [h.history] at hm
    cases hm

theorem Outside.custody (hp : p.WellFormed) {d : Option Deed} (h : c.Outside c' d)
    (hc : c.Custody p) : c'.Custody p where
  crew := h.crew hc.crew
  kept x hx := by
    rw [h.workers] at hx
    have hkept := hc.kept x hx
    refine hkept.frame h.rowSets h.enabled h.stopped (by rw [h.history])
      (fun y hy => by rwa [h.history]) fun i hi hd => ?_
    obtain ⟨ch, hch, hk⟩ := (hkept.wired.written hp).mp hi
    rcases h.grounds _ hd with ⟨j, e, hj, -⟩ | ⟨j, hj, hm⟩
    · cases hj
    · cases hj
      obtain ⟨t, ht⟩ := hc.producers i hm
      rw [hch] at ht
      cases ht
      cases hk
  producers i hi := hc.producers i (h.fewer i hi)
  injectors i t hi := by
    have hdone := Shared.done_act h.rowSets i
    rcases hc.injectors i t hi with hd | hm
    · exact Or.inl (hdone.mpr (Or.inl hd))
    · rcases h.producers i hm with hm | hd
      · exact Or.inr hm
      · exact Or.inl (hdone.mpr (Or.inr hd))
  stops k e hm hs := by
    rw [h.history] at hm
    exact h.stopped (hc.stops k e hm hs)
  takers k i e hm := by
    rw [h.history] at hm
    exact hc.takers k i e hm
  log i := by
    obtain ⟨early, he⟩ := hc.log i
    refine ⟨early, Shared.log_act early h.rowSets h.enabled he ?_⟩
    rw [h.history]
    rcases d with _ | d
    · simp
    · rcases h.grounds d rfl with ⟨j, e, rfl, -⟩ | ⟨j, rfl, -⟩ <;> simp [Deed.takenFrom]
  drained k hk i hi := by
    rw [h.history] at hk
    exact Shared.front_done_act h.rowSets i h.enabled (hc.drained k hk i hi)
  upstream k hk i hi ch k' hch hw := by
    rw [h.history] at hk ⊢
    exact hc.upstream k hk i hi ch k' hch hw

section Stepped

variable [Transform σ] {i : Nat} {x : Worker σ} (h : c.Stepped c' i x)
include h

/-- A worker has come to a clean end after a step if it had before, or if it comes to it by that
step: then the run is not stopped and none of its inputs is left. -/
theorem Stepped.endedClean (hc : c.Custody p) {k : WorkerKey} (hk : EndedClean c'.history k) :
    EndedClean c.history k ∨
      (k = x.key ∧ c.shared.stopped = false ∧ x.context.inputs = []) := by
  obtain ⟨hleft, hdry⟩ := hk
  have hkept := hc.kept x h.mem
  rw [h.history] at hleft hdry
  by_cases hkx : k = x.key
  · subst hkx
    rw [deedsOf_grow] at hdry
    rcases mem_grow.mp hleft with ⟨-, hd⟩ | hleft
    · right
      rw [hd] at hdry
      obtain ⟨hphase, hstop⟩ : x.phase = .judging (.ok false) ∧ c.shared.stopped = false := by
        have hl := Worker.deed?_leads hd
        generalize x.phase = phase at hl
        cases hl
        case operation hop => exact absurd hop id
        case finished flag => exact ⟨rfl, flag⟩
        case left hne => exact absurd rfl hne
      have hstands := hkept.stands
      rw [hphase] at hstands
      obtain ⟨-, older, hds, hdries⟩ := hstands
      rw [hds] at hdry
      refine ⟨rfl, hstop, ?_⟩
      -- the flag was down after the call, so the read was dry because all inputs had ended
      rcases hdries hdry.2 with hs | hi
      · rw [hstop] at hs
        cases hs
      · exact hi
    · refine Or.inl ⟨hleft, ?_⟩
      rcases hd : x.deed? c.shared with _ | d
      · rwa [hd] at hdry
      · rw [hd] at hdry
        refine (Deed.endedDry_cons ?_).mp hdry
        rintro r rfl
        -- a worker in a call has not left
        have hl := Worker.deed?_leads hd
        have hstands := hkept.stands
        generalize x.phase = phase at hl hstands
        cases hl
        case operation hop => exact hop
        case answered => exact hstands.1.stays _ (mem_deedsOf.mpr hleft)
  · left
    rw [deedsOf_grow_of_ne (Ne.symm hkx)] at hdry
    rcases mem_grow.mp hleft with ⟨hk, -⟩ | hleft
    · exact absurd hk hkx
    · exact ⟨hleft, hdry⟩

theorem Stepped.custody (hp : p.WellFormed) (hc : c.Custody p) (honest : HonestStops c.history) :
    c'.Custody p where
  crew := h.crew hc.crew
  kept y hy := by
    have hkept := hc.kept x h.mem
    rw [h.history]
    rcases h.cases hc.crew hy with rfl | ⟨hy, hne⟩
    · rw [h.shared]
      exact hkept.step hc.stops honest
    · have hykept := hc.kept y hy
      refine hykept.frame h.effect.rowSets
        (fun d hd => (Worker.deed?_grounds hkept.aims hd).enabled) h.effect.stopped
        (deedsOf_grow_of_ne hne _ _) (fun z hz => mem_grow_of_mem hz) fun j hj hd => ?_
      obtain ⟨ch, hch, hk⟩ := (hykept.wired.written hp).mp hj
      obtain ⟨ch', hch', hk'⟩ :=
        (hkept.wired.written hp).mp (Worker.deed?_grounds hkept.aims hd)
      rw [hch] at hch'
      cases hch'
      rw [hk] at hk'
      exact hne (Option.some.inj hk').symm
  producers j hj := by
    rw [h.producers] at hj
    exact hc.producers j hj
  injectors j t hj := by
    rw [h.producers]
    rcases hc.injectors j t hj with hd | hm
    · exact Or.inl ((Shared.done_act h.effect.rowSets j).mpr (Or.inl hd))
    · exact Or.inr hm
  stops k e hm hs := by
    rw [h.history] at hm
    rcases mem_grow.mp hm with ⟨-, hd⟩ | hm
    · exact h.effect.stopped (Worker.deed?_grounds (hc.kept x h.mem).aims hd hs)
    · exact h.effect.stopped (hc.stops k e hm hs)
  takers k j e hm := by
    rw [h.history] at hm
    rcases mem_grow.mp hm with ⟨hk, hd⟩ | hm
    · have hkept := hc.kept x h.mem
      rw [show k = x.context.key from hk]
      exact ⟨hkept.wired.worker, hkept.wired.inputs j (Worker.deed?_grounds hkept.aims hd).1⟩
    · exact hc.takers k j e hm
  log j := by
    obtain ⟨early, he⟩ := hc.log j
    refine ⟨early, Shared.log_act early h.effect.rowSets
      (fun d hd => (Worker.deed?_grounds (hc.kept x h.mem).aims hd).enabled) he ?_⟩
    rw [h.history, taken_grow]
  drained k hk j hj := by
    have hkept := hc.kept x h.mem
    refine Shared.front_done_act h.effect.rowSets j
      (fun d hd => (Worker.deed?_grounds hkept.aims hd).enabled) ?_
    rcases h.endedClean hc hk with hk | ⟨rfl, -, hi⟩
    · exact hc.drained k hk j hj
    · refine hkept.wired.dropped j hj ?_
      rw [hi]
      exact List.not_mem_nil
  upstream k hk j hj ch k' hch hw := by
    rw [h.history]
    refine mem_grow_of_mem ?_
    rcases h.endedClean hc hk with hk | ⟨rfl, hstop, hi⟩
    · exact hc.upstream k hk j hj ch k' hch hw
    · -- nobody who may still write can have closed the input
      have hdone : c.shared.front j = .done := by
        refine (hc.kept x h.mem).wired.dropped j hj ?_
        rw [hi]
        exact List.not_mem_nil
      obtain ⟨y, hy, rfl⟩ := hc.crew.exists_worker
        (hp.edge_of_writer (List.mem_of_getElem? hch) hw).2
      have hykept := hc.kept y hy
      refine hykept.left_of_done hstop ((hykept.wired.written hp).mpr ⟨ch, hch, hw⟩) ?_
      exact (Shared.front_eq_done_iff.mp hdone).1

end Stepped

/-- **All running courses** without made-up stop errors are in custody. -/
theorem custody [Transform σ] {registry : Registry σ} {o : Orchestrator σ} {hooks : Hooks}
    {bindings : Table String} (hnew : Orchestrator.new p registry = .ok o) (events : List Event)
    (hr : ((begin o hooks bindings).run events).Running)
    (honest : HonestStops ((begin o hooks bindings).run events).history) :
    ((begin o hooks bindings).run events).Custody p := by
  have hp := Pipeline.wellFormed_of_validationErrors (Orchestrator.new_ok hnew).1
  refine of_running (P := fun c => HonestStops c.history → c.Custody p) hnew
    (World.Unspoilt.early o.transforms) (fun c _ hl hw _ => hl.custody hp hw) ?_ ?_ events hr honest
  · intro c c' d h hc honest
    rw [h.history] at honest
    exact h.custody hp (hc honest)
  · intro c c' i x h hc honest
    rw [h.history] at honest
    exact h.custody hp (hc honest.of_grow) honest.of_grow

/-! ### Clean ends -/

/-- An input of the worker `k` is read to its end: it is done, all that it has accepted has been
delivered, since the start to copies of the same transform, and whoever wrote to it has ended with
status `Done`. Only what the transforms took when they were initialized comes before the deeds of
the history. -/
structure ReadToTheEnd (p : Pipeline) (c : Course σ) (k : WorkerKey) (i : Nat) : Prop where
  done : c.shared.done i = true
  delivered : c.shared.delivered i = (c.shared.accepted i).length
  log : ∃ early, c.shared.accepted i = early ++ taken i c.history
  takers : ∀ k' e, (k', Deed.took i e) ∈ c.history → k' ∈ p.copiesOf k.id
  upstream : ∀ ch k', p.channels[i]? = some ch → ch.writer? = some k' →
    (k', Deed.left .done) ∈ c.history ∧ (∀ st, (k', Deed.left st) ∈ c.history → st = .done) ∧
      ∀ summary, (k', Deed.sent summary) ∈ c.history → summary.status = .done

theorem Custody.readToTheEnd (hp : p.WellFormed) {k : WorkerKey} (hc : c.Custody p)
    (hk : EndedClean c.history k) {i : Nat} (hi : i ∈ (p.wiring k).inputs) : c.ReadToTheEnd p k i := by
  obtain ⟨hdone, hlen⟩ := Shared.front_eq_done_iff.mp (hc.drained k hk i hi)
  refine ⟨hdone, hlen, ?_, fun k' e hm => ?_, fun ch k' hch hw => ?_⟩
  · obtain ⟨early, he⟩ := hc.log i
    rw [hlen, List.take_length] at he
    exact ⟨early, he⟩
  · obtain ⟨hk', hi'⟩ := hc.takers k' i e hm
    obtain ⟨ch, hch, ht⟩ := Pipeline.mem_inputs.mp hi
    obtain ⟨ch', hch', ht'⟩ := Pipeline.mem_inputs.mp hi'
    rw [hch] at hch'
    cases hch'
    rwa [← ht', ht] at hk'
  · have hleft := hc.upstream k hk i hi ch k' hch hw
    obtain ⟨y, hy, rfl⟩ := hc.crew.exists_worker
      (hp.edge_of_writer (List.mem_of_getElem? hch) hw).2
    have hg := (hc.kept y hy).gone hleft
    exact ⟨hleft, fun st hm => hg.once st (mem_deedsOf.mpr hm),
      fun summary hm => hg.sent summary (mem_deedsOf.mpr hm)⟩

/-- **A truncated stream never looks like a clean one.** Whatever happens in a run, as long as no
transform makes up stop errors: if a worker ends with status `Done`, by a call in which a read was
answered with no row, then every row accepted by its inputs has been delivered to the copies of its
transform, and everyone who wrote to its inputs has ended with status `Done`. -/
theorem clean_end [Transform σ] {registry : Registry σ} {o : Orchestrator σ} {hooks : Hooks}
    {bindings : Table String} (hnew : Orchestrator.new p registry = .ok o) (events : List Event)
    (hr : ((begin o hooks bindings).run events).Running)
    (honest : HonestStops ((begin o hooks bindings).run events).history) {k : WorkerKey}
    (hk : EndedClean ((begin o hooks bindings).run events).history k) :
    ∀ i ∈ (p.wiring k).inputs, ((begin o hooks bindings).run events).ReadToTheEnd p k i :=
  fun _ hi => (custody hnew events hr honest).readToTheEnd
    (Pipeline.wellFormed_of_validationErrors (Orchestrator.new_ok hnew).1) hk hi

/-! ### A relay -/

namespace Relay

/-- Rows from outside pass one transform and end in another. -/
def pipeline : Pipeline where
  transforms := [{ id := "first", type := "dummy", inject := true },
    { id := "second", type := "dummy" }]
  hops := [{ origin := "first", target := "second" }]

/-- The built-in transforms. -/
def registry : Registry Builtin := .builtins id

/-- The run of the relay. -/
def orchestrator : Orchestrator Builtin where
  pipeline := pipeline
  transforms := (registry.resolve pipeline).toOption.getD .empty
  world := { shared := { pipeline := pipeline.name, poll := 50000 } }
  built := .ofList (pipeline.ids.map (·, 1))

theorem new_ok : Orchestrator.new pipeline registry = .ok orchestrator := rfl

/-- A row from outside. -/
def entry : Entry := ⟨⟨[⟨"n", .integer, -1, -1⟩]⟩, ⟨[.integer 7]⟩⟩

/-- One row goes through the relay, first through one worker, then through the other. -/
def events : List Event :=
  [.prepare, .produce "first", .start, .inject 1 entry, .finish 1] ++ List.replicate 26 (.step 0) ++
    List.replicate 26 (.step 1)

/-- The end of this run. -/
def finished : Course Builtin := (begin orchestrator Hooks.none .empty).run events

theorem running : finished.Running := ⟨4, by decide +kernel⟩

end Relay

theorem clean_end_relay : EndedClean Relay.finished.history ⟨"second", 0⟩ ∧
    Relay.finished.ReadToTheEnd Relay.pipeline ⟨"second", 0⟩ 0 :=
  ⟨⟨by decide +kernel, by decide +kernel⟩,
    clean_end Relay.new_ok Relay.events Relay.running (by decide +kernel)
      ⟨by decide +kernel, by decide +kernel⟩ 0 (by decide +kernel)⟩

end Course

end Rowflow
