import Rowflow.Proofs.Course.Lifecycle
import Rowflow.Proofs.Pipeline.Arrangement

/-!
# Runs of differently arranged pipelines

Each preparation enrols workers by the topological order, and only a preparation enrols any
(`World.Enlisted`). The hooks are called by the same list. So if two pipelines differ only in the order
in which their transforms and hops are declared, there is one order of transforms by which workers are
made and initialized and hooks are called in all runs of both (`Course.arrangement`).
-/

namespace Rowflow

variable {σ : Type}

/-! ### Whoever has been enrolled -/

/-- The workers whose initialization has been called, the first one first. -/
def begunIn (es : List (WorkerKey × Episode)) : List WorkerKey :=
  es.reverse.filterMap fun
    | (k, .begun) => some k
    | _ => none

theorem begunIn_begun (k : WorkerKey) (es : List (WorkerKey × Episode)) :
    begunIn ((k, .begun) :: es) = begunIn es ++ [k] := by
  unfold begunIn
  rw [List.reverse_cons, List.filterMap_append]
  rfl

theorem begunIn_append (k : WorkerKey) {e : Option Episode} (he : e ≠ some .begun)
    (es : List (WorkerKey × Episode)) : begunIn (e.toList.map (k, ·) ++ es) = begunIn es := by
  rcases e with _ | e
  · rfl
  · cases e
    case begun => exact absurd rfl he
    all_goals
      unfold begunIn
      simp

theorem Worker.episode?_ne_begun (x : Worker σ) : x.episode? ≠ some .begun := by
  unfold Worker.episode?
  split <;> exact nofun

namespace World

/-- The names of the workers. -/
def keys (w : World σ) : List WorkerKey := w.workers.toList.map Worker.key

/-- Nobody has been enrolled, and the workers are called the same. -/
structure SameCrew (w w' : World σ) : Prop where
  keys : w'.keys = w.keys
  begun : begunIn w'.shared.episodes = begunIn w.shared.episodes

/-- All attempts enrol workers in one order: those that are there are the first ones of a list, and so
were those of every earlier attempt. -/
structure Enlisted (ks : List WorkerKey) (w : World σ) : Prop where
  attempts : ∃ earlier : List (List WorkerKey),
    begunIn w.shared.episodes = earlier.flatten ++ w.keys ∧ ∀ attempt ∈ earlier, attempt <+: ks
  now : w.keys <+: ks

variable {w w' w'' : World σ} {ks : List WorkerKey}

theorem SameCrew.trans (h : w.SameCrew w') (h' : w'.SameCrew w'') : w.SameCrew w'' :=
  ⟨h'.keys.trans h.keys, h'.begun.trans h.begun⟩

theorem Enlisted.same (h : w.Enlisted ks) (hs : w.SameCrew w') : w'.Enlisted ks := by
  obtain ⟨earlier, hbegun, hearlier⟩ := h.attempts
  refine ⟨⟨earlier, ?_, hearlier⟩, hs.keys ▸ h.now⟩
  rw [hs.begun, hs.keys]
  exact hbegun

theorem Enlisted.again (h : w.Enlisted ks) (hkeys : w'.keys = [])
    (hepisodes : w'.shared.episodes = w.shared.episodes) : w'.Enlisted ks := by
  obtain ⟨earlier, hbegun, hearlier⟩ := h.attempts
  refine ⟨⟨earlier ++ [w.keys], ?_, fun attempt ha => ?_⟩, hkeys ▸ List.nil_prefix⟩
  · rw [hepisodes, hbegun, hkeys]
    simp
  · rcases List.mem_append.mp ha with ha | ha
    · exact hearlier attempt ha
    · rw [List.mem_singleton.mp ha]
      exact h.now

theorem Enlisted.next (h : w.Enlisted ks) {k : WorkerKey} (hk : w.keys ++ [k] <+: ks)
    (hkeys : w'.keys = w.keys ++ [k])
    (hepisodes : w'.shared.episodes = (k, .begun) :: w.shared.episodes) : w'.Enlisted ks := by
  obtain ⟨earlier, hbegun, hearlier⟩ := h.attempts
  refine ⟨⟨earlier, ?_, hearlier⟩, hkeys ▸ hk⟩
  rw [hepisodes, begunIn_begun, hbegun, hkeys, List.append_assoc]

variable [Transform σ]

theorem sameCrew_step (w : World σ) (i : Nat) : w.SameCrew (w.step i) := by
  refine ⟨w.keys_step i, ?_⟩
  rcases hx : w.workers[i]? with _ | x
  · rw [step_of_none hx]
  · rw [step_of_getElem? hx]
    show begunIn (x.step w.shared).1.episodes = _
    rw [x.step_episodes, begunIn_append _ x.episode?_ne_begun]

theorem sameCrew_runUntil (w : World σ) (holds : World σ → Bool) (limit : Option Nat) (fuel : Nat) :
    w.SameCrew (w.runUntil holds limit fuel) := by
  refine runUntil_induction (P := w.SameCrew) (fun w₁ w₂ ht h => ?_)
    (fun w₁ i h => h.trans (w₁.sameCrew_step i)) holds limit fuel ⟨rfl, rfl⟩
  obtain ⟨hworkers, ⟨stopped, clock, hshared⟩, -⟩ := ht
  refine h.trans ⟨congrArg (·.toList.map Worker.key) hworkers, ?_⟩
  rw [hshared]

end World

namespace Orchestrator

open Hooks (Agreed)

/-! ### Preparation -/

section Prepare

variable [Transform σ] {o : Orchestrator σ} {ks : List WorkerKey}

theorem sameCrew_abandon (o : Orchestrator σ) (i : Nat) : o.world.SameCrew (o.abandon i).world := by
  have hleft : o.world.SameCrew (o.dismissed i) := by
    refine ⟨List.ext_getElem? fun j => ?_, rfl⟩
    unfold World.keys dismissed
    rw [List.getElem?_map, List.getElem?_map, Array.getElem?_toList, Array.getElem?_toList,
      Array.getElem?_modify]
    split
    · rcases o.world.workers[j]? with _ | x <;> rfl
    · rfl
  rw [world_abandon]
  exact hleft.trans (World.sameCrew_runUntil _ _ _ _)

theorem sameCrew_abandonAll (o : Orchestrator σ) (n : Nat) :
    o.world.SameCrew (o.abandonAll n).world := by
  unfold abandonAll
  induction List.range n generalizing o with
  | nil => exact ⟨rfl, rfl⟩
  | cons i rest ih => exact (o.sameCrew_abandon i).trans (ih _)

/-- A worker that is enrolled is the next one, whatever comes of its initialization. -/
theorem enroll_enlisted (h : o.world.Enlisted ks) {k : WorkerKey} (hk : o.keys ++ [k] <+: ks)
    {spec : TransformSpec} (hspec : spec.id = k.id) (wiring : Wiring) (state : σ) :
    (o.enroll k wiring spec state).1.world.Enlisted ks ∧
      (o.enroll k wiring spec state).1.keys = o.keys ++ [k] := by
  obtain ⟨c, hc⟩ : ∃ c : Context, c = .new spec k.copy wiring (o.pipeline.slot k.id) := ⟨_, rfl⟩
  have hkey : c.key = k := by
    obtain ⟨id, copy⟩ := k
    rw [hc]
    exact congrArg (WorkerKey.mk · copy) hspec
  have hadded : (o.addWorker c state).world.keys = o.world.keys ++ [k] := by
    show (o.world.workers.push (.new c state)).toList.map Worker.key = _
    rw [Array.toList_push, List.map_append, ← hkey]
    rfl
  have hsame : (o.addWorker c state).world.SameCrew (o.enroll k wiring spec state).1.world := by
    unfold enroll
    rw [← hc]
    dsimp only
    split <;> exact World.sameCrew_runUntil _ _ _ _
  refine ⟨(h.next hk hadded ?_).same hsame, hsame.keys.trans hadded⟩
  show (c.key, Episode.begun) :: _ = _
  rw [hkey]

theorem prepareWorker_enlisted (h : o.world.Enlisted ks) {k : WorkerKey} (hk : o.keys ++ [k] <+: ks)
    (hspec : ∀ r, o.transforms.find? k.id = some r → r.spec.id = k.id) (wiring : Wiring)
    (bindings : Table String) :
    (o.prepareWorker k wiring bindings).1.world.Enlisted ks ∧
      ∀ b, (o.prepareWorker k wiring bindings).2 = .ok b →
        (o.prepareWorker k wiring bindings).1.keys = o.keys ++ [k] := by
  have hends := o.prepareWorker_ends k wiring bindings
  have henrolled : ∀ {built : Table Nat} {r : Resolved σ} {state : σ} {o₁ : Orchestrator σ}
      {result : Except TransformError Unit}, o.transforms.find? k.id = some r →
      ({ o with built } : Orchestrator σ).enroll k wiring r.spec state = (o₁, result) →
      o₁.world.Enlisted ks ∧ o₁.keys = o.keys ++ [k] := by
    intro built r state o₁ result hr he
    have hdone := enroll_enlisted (o := { o with built }) h hk (hspec r hr) wiring state
    rwa [he] at hdone
  generalize o.prepareWorker k wiring bindings = x at hends ⊢
  cases hends
  case unknown => exact ⟨h, fun b hb => by (cases hb)⟩
  case refused built r n e hr hi =>
    exact ⟨h.same (sameCrew_abandonAll { o with built } _), fun b hb => by (cases hb)⟩
  case initFailed built r n state o₁ e hr hi he =>
    obtain ⟨henlisted, -⟩ := henrolled hr he
    have hsaid : o₁.world.SameCrew (o₁.say (.initFailed k.id k.copy e.render)).world := ⟨rfl, rfl⟩
    refine ⟨?_, fun b hb => by (cases hb)⟩
    exact ((henlisted.same hsaid).same (sameCrew_abandon _ _)).same (sameCrew_abandonAll _ _)
  case hookFailed built r n state o₁ message hr hi he _ =>
    obtain ⟨henlisted, -⟩ := henrolled hr he
    have hsaid : o₁.world.SameCrew ((o₁.called .initialized (o₁.sceneOf k bindings)).say
      (.hookFailed o₁.pipeline.name HookPoint.initialized.title message)).world := ⟨rfl, rfl⟩
    exact ⟨(henlisted.same hsaid).same (sameCrew_abandonAll _ _), fun b hb => by (cases hb)⟩
  case prepared hr hi he _ =>
    obtain ⟨henlisted, hkeys⟩ := henrolled hr he
    exact ⟨henlisted.same ⟨rfl, rfl⟩, fun _ _ => hkeys⟩

theorem prepareWorkers_enlisted {rest : List WorkerKey} (h : o.world.Enlisted ks)
    (hks : o.keys ++ rest = ks)
    (hspec : ∀ k ∈ rest, ∀ r, o.transforms.find? k.id = some r → r.spec.id = k.id) (t : Topology)
    (bindings : Table String) :
    (o.prepareWorkers t bindings rest).1.world.Enlisted ks ∧
      ((o.prepareWorkers t bindings rest).2 = .ok () →
        (o.prepareWorkers t bindings rest).1.keys = ks) := by
  induction rest generalizing o t bindings with
  | nil =>
    rw [List.append_nil] at hks
    exact ⟨h, fun _ => hks⟩
  | cons k rest ih =>
    have hsplit : (o.keys ++ [k]) ++ rest = ks := by simpa using hks
    have hone := prepareWorker_enlisted h ⟨rest, hsplit⟩ (hspec k List.mem_cons_self)
      (t.takeWiring k).1 bindings
    have hsame := o.sameRun_prepareWorker k (t.takeWiring k).1 bindings
    unfold prepareWorkers
    dsimp only
    rcases hw : o.prepareWorker k (t.takeWiring k).1 bindings with ⟨o₁, e | b⟩ <;>
      rw [hw] at hone hsame
    · exact ⟨hone.1, fun hok => by (cases hok)⟩
    · have hrest : ∀ k' ∈ rest, ∀ r, o₁.transforms.find? k'.id = some r → r.spec.id = k'.id := by
        rw [hsame.transforms]
        exact fun k' hk' => hspec k' (List.mem_cons_of_mem _ hk')
      exact ih hone.1 (by rw [hone.2 b rfl]; exact hsplit) hrest _ b

end Prepare

/-! ### All turns -/

section Turns

variable [Transform σ] {p : Pipeline} {ts : TransformMap σ} {o o' : Orchestrator σ}
  {ks : List WorkerKey}

/-- All attempts enrol the workers of a list in order, and all workers of the list are there when an
attempt has succeeded. -/
structure Staffed (ks : List WorkerKey) (o : Orchestrator σ) : Prop where
  enlisted : o.world.Enlisted ks
  complete : o.state ≠ .idle → o.keys = ks

omit [Transform σ] in
theorem Staffed.same (h : o.Staffed ks) (hs : o.world.SameCrew o'.world)
    (hstate : o'.state ≠ .idle → o.state ≠ .idle) : o'.Staffed ks :=
  ⟨h.enlisted.same hs, fun hidle => hs.keys.trans (h.complete (hstate hidle))⟩

/-- **A preparation** enrols the workers in order. -/
theorem Staffed.prepares (hb : Basis p ts ks) (hl : Lawful p ts ks o) (h : o.Staffed ks) :
    o.prepare.1.Staffed ks := by
  have hfirst : ∀ b, (o.begun b).world.Enlisted ks := fun b => h.enlisted.again rfl rfl
  have hall : ∀ {b : Table String} {order : List String} {o₁ : Orchestrator σ}
      {result : Except ExecutionError Unit},
      (HopGraph.ofPipeline o.pipeline).topologicalOrder = some order →
      (o.begun b).prepareWorkers (Topology.build o.pipeline) b
        (order.flatMap o.pipeline.copiesOf) = (o₁, result) →
      o₁.world.Enlisted ks ∧ (result = .ok () → o₁.keys = ks) := by
    intro b order o₁ result hord hw
    obtain ⟨order', hord', hks⟩ := hb.lists.ordered
    rw [hl.pipeline] at hord hw
    cases hord.symm.trans hord'
    have hspec : ∀ k ∈ order.flatMap p.copiesOf, ∀ r, (o.begun b).transforms.find? k.id = some r →
        r.spec.id = k.id := by
      intro k hk r hr
      obtain ⟨id, hid, hkid⟩ := List.mem_flatMap.mp hk
      obtain ⟨r', hr', hspec⟩ := hb.resolved k.id (by
        rw [(Pipeline.mem_copiesOf.mp hkid).1]
        exact (hb.wellFormed.forward hord').1.subset hid)
      change o.transforms.find? k.id = some r at hr
      rw [hl.transforms] at hr
      cases hr'.symm.trans hr
      exact (Pipeline.transform?_mem hspec).2
    have hnone : (o.begun b).keys ++ order.flatMap p.copiesOf = ks := hks.symm
    have hdone := prepareWorkers_enlisted (hfirst b) hnone hspec (Topology.build p) b
    rwa [hw] at hdone
  have hends := o.prepare_ends
  generalize o.prepare = x at hends ⊢
  cases hends
  case misplaced => exact h
  case refused message hs _ => exact h.same ⟨rfl, rfl⟩ id
  case cyclic b hs _ _ => exact ⟨hfirst b, fun hidle => absurd hs hidle⟩
  case failed b order o₁ e hs _ hord hw =>
    have hsame := (o.begun b).sameRun_prepareWorkers (Topology.build o.pipeline) b
      (order.flatMap o.pipeline.copiesOf)
    rw [hw] at hsame
    exact ⟨(hall hord hw).1, fun hidle => absurd (hsame.state.trans hs) hidle⟩
  case prepared b order o₁ m hs _ hord hw =>
    obtain ⟨henlisted, hkeys⟩ := hall hord hw
    exact ⟨henlisted.same ⟨rfl, rfl⟩, fun _ => hkeys rfl⟩

theorem sameCrew_start (o : Orchestrator σ) : o.world.SameCrew o.start.1.world := by
  have hinjectors : ∀ (o : Orchestrator σ) (claimed : List String),
      o.world.SameCrew (o.closeInjectors claimed).world := fun o claimed =>
    ⟨rfl, congrArg begunIn (o.world.shared.finishAll_fixed _).1⟩
  have hends := o.start_ends
  generalize o.start = x at hends ⊢
  cases hends
  case unprepared => exact ⟨rfl, rfl⟩
  case misplaced => exact ⟨rfl, rfl⟩
  case refused claimed message hs _ o₁ ho =>
    have hsaid : o.world.SameCrew o₁.world := by
      subst ho
      exact ⟨rfl, rfl⟩
    have hclosed := hinjectors { o₁ with state := .finished } []
    exact (hsaid.trans hclosed).trans (sameCrew_abandonAll _ _)
  case started claimed m hs _ =>
    have hlaunched : ∀ o : Orchestrator σ, o.world.SameCrew (o.launched.say m).world := fun o => by
      refine ⟨?_, rfl⟩
      show (o.world.workers.map Worker.launch).toList.map Worker.key = _
      rw [Array.toList_map, List.map_map]
      rfl
    exact (hinjectors (o.called .start (o.scene o.world.shared.bindings)) claimed).trans
      (hlaunched _)

theorem sameCrew_wait (o : Orchestrator σ) : o.world.SameCrew o.wait.1.world := by
  by_cases hs : ∃ since, o.state = .running since
  · obtain ⟨since, hs⟩ := hs
    obtain ⟨w, hw, heq | ⟨scene, -, heq⟩⟩ := wait_induction (P := o.world.SameCrew)
      (fun w w' hworkers hepisodes h => h.trans
        ⟨congrArg (·.toList.map Worker.key) hworkers, congrArg begunIn hepisodes⟩)
      (fun w i h => h.trans (w.sameCrew_step i)) hs ⟨rfl, rfl⟩ <;>
    · rw [heq]
      exact hw
  · rw [wait_misplaced fun since h => hs ⟨since, h⟩]
    exact ⟨rfl, rfl⟩

/-- **A turn** enrols workers in order, if any. -/
theorem Staffed.moves (hb : Basis p ts ks) (hl : Lawful p ts ks o) (h : o.Staffed ks)
    (hm : o.Moves o') : o'.Staffed ks := by
  cases hm
  case stays => exact h
  case prepares => exact h.prepares hb hl
  case starts =>
    refine h.same (sameCrew_start o) fun hidle hs => hidle ?_
    rw [start_unprepared hs]
    exact hs
  case waits =>
    refine h.same (sameCrew_wait o) fun hidle hs => hidle ?_
    rw [wait_misplaced fun since hr => by rw [hs] at hr; cases hr]
    exact hs
  case claims claimed id hs => exact h.same ⟨rfl, rfl⟩ fun _ => by rw [hs]; exact nofun
  case hears claimed id l hs =>
    refine h.same ⟨?_, rfl⟩ fun hidle => hidle
    show (o.world.workers.map (Worker.hear id l)).toList.map Worker.key = _
    rw [Array.toList_map, List.map_map]
    refine List.map_congr_left fun x _ => ?_
    show (x.hear id l).key = x.key
    unfold Worker.hear
    split <;> rfl
  case shares s episodes _ _ => exact h.same ⟨rfl, congrArg begunIn episodes⟩ fun hidle => hidle
  case steps i _ => exact h.same (o.world.sameCrew_step i) fun hidle => hidle

/-- What the order of the transforms decides: the order of workers, of initializations and of hooks. A
preparation that fails may be followed by another one, so initializations and hooks fall into attempts,
each of which follows the list as far as it gets. -/
structure Follows (ks : List WorkerKey) (o : Orchestrator σ) : Prop where
  hooks : Agreed ks o.calls
  inits : ∃ attempts : List (List WorkerKey),
    begunIn o.world.shared.episodes = attempts.flatten ∧ ∀ attempt ∈ attempts, attempt <+: ks
  workers : o.keys <+: ks
  /-- When a preparation has succeeded, they are all there. -/
  complete : o.state ≠ .idle → o.keys = ks

omit [Transform σ] in
theorem Staffed.follows (hl : Lawful p ts ks o) (h : o.Staffed ks) : o.Follows ks := by
  obtain ⟨earlier, hbegun, hearlier⟩ := h.enlisted.attempts
  refine ⟨hl.agreed, ⟨earlier ++ [o.keys], ?_, fun attempt ha => ?_⟩, h.enlisted.now, h.complete⟩
  · rw [hbegun, List.flatten_append, List.flatten_singleton]
    rfl
  · rcases List.mem_append.mp ha with ha | ha
    · exact hearlier attempt ha
    · rw [List.mem_singleton.mp ha]
      exact h.enlisted.now

end Turns

theorem staffed_begin {p : Pipeline} {registry : Registry σ} {o : Orchestrator σ}
    (hnew : new p registry = .ok o) (ks : List WorkerKey) (stamina : Nat) (hooks : Hooks)
    (bindings : Table String) :
    (Course.begin { o with stamina } hooks bindings).orchestrator.Staffed ks := by
  unfold new at hnew
  split at hnew
  · rcases hr : registry.resolve p with e | ts <;> simp only [hr] at hnew <;> cases hnew
    exact ⟨⟨⟨[], rfl, nofun⟩, List.nil_prefix⟩, fun h => absurd rfl h⟩
  · cases hnew

/-- **A run** follows the topological order of its pipeline, whoever calls it. -/
theorem follows_play [Transform σ] {p : Pipeline} {registry : Registry σ} {o : Orchestrator σ}
    (hnew : new p registry = .ok o) {order : List String}
    (hord : (HopGraph.ofPipeline p).topologicalOrder = some order) (stamina : Nat) (hooks : Hooks)
    (bindings : Table String) (turns : List Turn) :
    ((Course.begin { o with stamina } hooks bindings).play turns).orchestrator.Follows
      (order.flatMap p.copiesOf) := by
  obtain ⟨order', hord', hb⟩ := exists_basis hnew
  cases hord.symm.trans hord'
  have hlawful := lawful_begin hnew (order.flatMap p.copiesOf) stamina hooks bindings
  have hstaffed := staffed_begin hnew (order.flatMap p.copiesOf) stamina hooks bindings
  obtain ⟨hl, hs⟩ := of_moves
    (P := fun o' => Lawful p o.transforms (order.flatMap p.copiesOf) o' ∧
      o'.Staffed (order.flatMap p.copiesOf))
    (fun _ _ hm h => ⟨h.1.moves hb hm, h.2.moves hb h.1 hm⟩) turns ⟨hlawful, hstaffed⟩
  exact hs.follows hl

end Orchestrator

namespace Course

variable {τ : Type} [Transform σ] [Transform τ]

/-- **The arrangement of a pipeline** has no influence on its order. If two pipelines have transforms of
the same names and the same edges, each as often in one as in the other, then both have the same
topological order or none, in whatever order the degrees of the nodes are gone through. In all runs of
both, whoever calls them, workers are made and initialized and hooks are called by that one order, the
copies of a transform one after the other. -/
theorem arrangement {p q : Pipeline} (h : p.SameGraph q) :
    (HopGraph.ofPipeline p).topologicalOrder = (HopGraph.ofPipeline q).topologicalOrder ∧
    (∀ entries entries', entries.Perm (HopGraph.ofPipeline p).degrees →
      entries'.Perm (HopGraph.ofPipeline q).degrees →
      (HopGraph.ofPipeline p).orderFrom entries = (HopGraph.ofPipeline q).orderFrom entries') ∧
    ∀ (registry : Registry σ) (registry' : Registry τ) (o : Orchestrator σ) (o' : Orchestrator τ),
      Orchestrator.new p registry = .ok o → Orchestrator.new q registry' = .ok o' →
      ∃ order, (HopGraph.ofPipeline p).topologicalOrder = some order ∧
        (∀ stamina hooks bindings turns,
          ((begin { o with stamina } hooks bindings).play turns).orchestrator.Follows
            (order.flatMap p.copiesOf)) ∧
        ∀ stamina hooks bindings turns,
          ((begin { o' with stamina } hooks bindings).play turns).orchestrator.Follows
            (order.flatMap q.copiesOf) := by
  have hsame : (HopGraph.ofPipeline p).topologicalOrder =
      (HopGraph.ofPipeline q).topologicalOrder := by
    rw [HopGraph.topologicalOrder_eq, HopGraph.topologicalOrder_eq]
    exact h.orderFrom_eq (List.Perm.refl _) (List.Perm.refl _)
  refine ⟨hsame, fun entries entries' => h.orderFrom_eq, fun registry registry' o o' hnew hnew' => ?_⟩
  obtain ⟨order, hord, -⟩ := Orchestrator.exists_basis hnew
  exact ⟨order, hord, Orchestrator.follows_play hnew hord,
    Orchestrator.follows_play hnew' (hsame ▸ hord)⟩

/-! ### A diamond that is declared in two ways -/

namespace Diamond

/-- Rows go from the first transform to two others, and from these to the last one. -/
def pipeline : Pipeline where
  transforms := [{ id := "a", type := "dummy" }, { id := "b", type := "dummy", copies := 2 },
    { id := "c", type := "dummy", errorHandling := some { target := "d" } },
    { id := "d", type := "dummy" }]
  hops := [{ origin := "a", target := "b" }, { origin := "a", target := "c" },
    { origin := "b", target := "d" }, { origin := "c", target := "d" }]

/-- The same, with transforms and hops in reverse. -/
def reversed : Pipeline where
  transforms := pipeline.transforms.reverse
  hops := pipeline.hops.reverse

/-- The built-in transforms. -/
def registry : Registry Builtin := .builtins id

/-- The run of a pipeline that is valid. -/
def run (p : Pipeline) : Orchestrator Builtin where
  pipeline := p
  transforms := (registry.resolve p).toOption.getD .empty
  world := { shared := { pipeline := p.name, poll := 50000 } }
  built := .ofList (p.ids.map (·, 1))

theorem new_ok : Orchestrator.new pipeline registry = .ok (run pipeline) := rfl

theorem new_reversed_ok : Orchestrator.new reversed registry = .ok (run reversed) := rfl

theorem sameGraph : pipeline.SameGraph reversed where
  ids id := List.mem_reverse.symm
  edges := by decide

end Diamond

/-- Both have one order, also if the degrees are gone through in reverse. -/
theorem arrangement_diamond :
    (HopGraph.ofPipeline Diamond.pipeline).topologicalOrder = some ["a", "b", "c", "d"] ∧
    (HopGraph.ofPipeline Diamond.reversed).orderFrom
      (HopGraph.ofPipeline Diamond.reversed).degrees.reverse = some ["a", "b", "c", "d"] ∧
    ∃ order, (HopGraph.ofPipeline Diamond.pipeline).topologicalOrder = some order ∧
      (∀ stamina hooks bindings turns,
        ((begin { Diamond.run Diamond.pipeline with stamina } hooks bindings).play
          turns).orchestrator.Follows (order.flatMap Diamond.pipeline.copiesOf)) ∧
      ∀ stamina hooks bindings turns,
        ((begin { Diamond.run Diamond.reversed with stamina } hooks bindings).play
          turns).orchestrator.Follows (order.flatMap Diamond.reversed.copiesOf) := by
  have horder : (HopGraph.ofPipeline Diamond.pipeline).topologicalOrder =
      some ["a", "b", "c", "d"] := by decide
  obtain ⟨-, hentries, hruns⟩ := arrangement (σ := Builtin) (τ := Builtin) Diamond.sameGraph
  refine ⟨horder, ?_, hruns _ _ _ _ Diamond.new_ok Diamond.new_reversed_ok⟩
  rw [← horder]
  exact (hentries _ _ (List.Perm.refl _) (List.reverse_perm _)).symm

end Course

end Rowflow
