import Rowflow.Proofs.Course.Episodes

/-!
# One attempt

While a run is prepared, one worker after the other is initialized, and at most one of them does
anything: the others wait for their start or have ended (`Worker.Rests`). So a preparation that comes
back has either initialized all workers with success (`Orchestrator.Manned`) or abandoned each worker
that it has made, once (`Orchestrator.Vacant`). A start that is refused abandons all of them as well.

A call comes back unless a transform is busy for ever: `Orchestrator.hangs` is never taken back.
-/

namespace Rowflow

variable {σ : Type} [Transform σ] {p : Pipeline} {old : List (WorkerKey × Episode)}

/-! ### One worker at a time -/

/-- Whether a worker does nothing by itself: it waits for its start, or it has ended. -/
def Worker.Rests (x : Worker σ) : Prop := (∃ r, x.phase = .initialized r) ∨ x.phase = .ended

theorem Worker.Rests.step {x : Worker σ} (h : x.Rests) (s : Shared) : x.step s = (s, x) := by
  obtain ⟨c, state, phase⟩ := x
  rcases h with ⟨r, hr⟩ | hr <;> cases hr <;> rfl

namespace World

/-- The workers are the same but for the one at a position, which is still called the same. -/
structure SameBut (i : Nat) (w w' : World σ) : Prop where
  keys : w'.workers.toList.map Worker.key = w.workers.toList.map Worker.key
  others : ∀ j, j ≠ i → w'.workers[j]? = w.workers[j]?

variable {w w' w'' : World σ} {i : Nat}

omit [Transform σ] in
theorem SameBut.trans (h : w.SameBut i w') (h' : w'.SameBut i w'') : w.SameBut i w'' :=
  ⟨h'.keys.trans h.keys, fun j hj => (h'.others j hj).trans (h.others j hj)⟩

omit [Transform σ] in
theorem SameBut.size (h : w.SameBut i w') : w'.workers.size = w.workers.size := by
  simpa using congrArg List.length h.keys

/-- If all others rest, then whatever happens is done by one worker. -/
theorem runUntil_alone (hrest : ∀ j x, j ≠ i → w.workers[j]? = some x → x.Rests)
    (holds : World σ → Bool) (limit : Option Nat) (fuel : Nat) :
    w.SameBut i (w.runUntil holds limit fuel) := by
  refine runUntil_induction (P := w.SameBut i) (fun w₁ w₂ ht h => ?_) (fun w₁ j h => ?_) holds limit
    fuel ⟨rfl, fun _ _ => rfl⟩
  · obtain ⟨hworkers, -⟩ := ht
    exact ⟨by rw [hworkers]; exact h.keys, fun j hj => by rw [hworkers]; exact h.others j hj⟩
  · rcases hx : w₁.workers[j]? with _ | x
    · rwa [step_of_none hx]
    · refine ⟨(w₁.keys_step j).trans h.keys, fun n hn => ?_⟩
      rw [step_of_getElem? hx, Array.getElem?_setIfInBounds]
      split
      · rename_i hjn
        subst hjn
        have hlt := (Array.getElem?_eq_some_iff.mp hx).choose
        rw [if_pos hlt, (hrest j x hn ((h.others j hn).symm.trans hx)).step, ← h.others j hn, hx]
      · exact h.others n hn

theorem Tended.runUntil (h : w.Tended p old) (holds : World σ → Bool) (limit : Option Nat)
    (fuel : Nat) : (w.runUntil holds limit fuel).Tended p old :=
  runUntil_induction (P := Tended p old) (fun _ _ ht h => h.tick ht) (fun _ i h => h.step i) holds
    limit fuel h

end World

namespace Orchestrator

variable {o : Orchestrator σ}

/-! ### Abandoning -/

theorem hangs_abandon {i : Nat} (h : (o.abandon i).hangs = false) : o.hangs = false :=
  (Bool.or_eq_false_iff.mp h).1

theorem hangs_abandonAll {n : Nat} (h : (o.abandonAll n).hangs = false) : o.hangs = false := by
  unfold abandonAll at h
  generalize List.range n = is at h
  induction is generalizing o with
  | nil => exact h
  | cons i rest ih => exact hangs_abandon (ih h)

/-- The world in which the worker at a position begins to leave. -/
def dismissed (o : Orchestrator σ) (i : Nat) : World σ :=
  { o.world with
    workers := o.world.workers.modify i fun w => { w with phase := Worker.leave w.context .abandoned } }

theorem world_abandon (o : Orchestrator σ) (i : Nat) : (o.abandon i).world =
    (o.dismissed i).runUntil (fun w => w.workers[i]?.all Worker.hasEnded) none o.stamina := rfl

omit [Transform σ] in
theorem dismissed_eq {i : Nat} {x : Worker σ} (hx : o.world.workers[i]? = some x) :
    o.dismissed i = { o.world with
      workers := o.world.workers.setIfInBounds i
        { x with phase := Worker.leave x.context .abandoned } } := by
  obtain ⟨hlt, -⟩ := Array.getElem?_eq_some_iff.mp hx
  refine congrArg (fun ws => ({ o.world with workers := ws } : World σ)) ?_
  refine Array.ext_getElem? fun j => ?_
  rw [Array.getElem?_modify, Array.getElem?_setIfInBounds]
  by_cases hij : i = j
  · subst hij
    rw [if_pos rfl, if_pos rfl, if_pos hlt, hx]
    rfl
  · rw [if_neg hij, if_neg hij]

theorem abandon_spec {i : Nat} {x : Worker σ} {result : Except TransformError Unit}
    (h : o.world.Tended p old) (hx : o.world.workers[i]? = some x)
    (hready : x.phase = .initialized result)
    (hrest : ∀ j y, j ≠ i → o.world.workers[j]? = some y → y.Rests)
    (hh : (o.abandon i).hangs = false) :
    (o.abandon i).world.Tended p old ∧ o.world.SameBut i (o.abandon i).world ∧
      ∃ y, (o.abandon i).world.workers[i]? = some y ∧ y.phase = .ended := by
  have hleft : (o.dismissed i).Tended p old := by
    rw [dismissed_eq hx]
    have hrecords := h.records x (Array.mem_of_getElem? hx)
    rw [hready] at hrecords
    refine h.set (e := none) hx rfl rfl rfl rfl (fun i hi => hi) ?_
    generalize lifeOf x.key o.world.shared.episodes = es at hrecords ⊢
    cases hrecords with
    | initialized result hspent => exact .closing result _ hspent fun i hi => Or.inl hi
  have hsame : o.world.SameBut i (o.dismissed i) := by
    rw [dismissed_eq hx]
    exact ⟨World.keys_set hx rfl, fun j hj => Array.getElem?_setIfInBounds_ne (Ne.symm hj)⟩
  have hrest' : ∀ j y, j ≠ i → (o.dismissed i).workers[j]? = some y → y.Rests :=
    fun j y hj hy => hrest j y hj ((hsame.others j hj).symm.trans hy)
  have hboth : o.world.SameBut i (o.abandon i).world :=
    hsame.trans (World.runUntil_alone hrest' _ none o.stamina)
  refine ⟨hleft.runUntil _ none o.stamina, hboth, ?_⟩
  have hlt : i < (o.abandon i).world.workers.size := by
    rw [hboth.size]
    exact (Array.getElem?_eq_some_iff.mp hx).choose
  have hended : (!(o.abandon i).world.workers[i]?.all Worker.hasEnded) = false :=
    (Bool.or_eq_false_iff.mp hh).2
  rw [Bool.not_eq_false', Array.getElem?_eq_getElem hlt, Option.all_some] at hended
  refine ⟨_, Array.getElem?_eq_getElem hlt, ?_⟩
  unfold Worker.hasEnded at hended
  split at hended
  · assumption
  · cases hended

theorem abandonAll_spec {n : Nat} (hn : n ≤ o.world.workers.size) (h : o.world.Tended p old)
    (hready : ∀ i x, i < n → o.world.workers[i]? = some x → ∃ r, x.phase = .initialized r)
    (hrest : ∀ x ∈ o.world.workers, x.Rests) (hh : (o.abandonAll n).hangs = false) :
    (o.abandonAll n).world.Tended p old ∧
      (o.abandonAll n).world.workers.toList.map Worker.key =
        o.world.workers.toList.map Worker.key ∧
      (∀ i x, i < n → (o.abandonAll n).world.workers[i]? = some x → x.phase = .ended) ∧
      ∀ i, n ≤ i → (o.abandonAll n).world.workers[i]? = o.world.workers[i]? := by
  induction n with
  | zero => exact ⟨h, rfl, fun i x hi => absurd hi (Nat.not_lt_zero i), fun _ _ => rfl⟩
  | succ n ih =>
    have hlast : o.abandonAll (n + 1) = (o.abandonAll n).abandon n := by
      unfold abandonAll
      rw [List.range_succ, List.foldl_append]
      rfl
    rw [hlast] at hh ⊢
    obtain ⟨htended, hkeys, hended, hlater⟩ := ih (Nat.le_of_succ_le hn)
      (fun i x hi => hready i x (Nat.lt_succ_of_lt hi)) (hangs_abandon hh)
    obtain ⟨x, hx⟩ : ∃ x, o.world.workers[n]? = some x :=
      ⟨_, Array.getElem?_eq_getElem (Nat.lt_of_succ_le hn)⟩
    obtain ⟨r, hr⟩ := hready n x (Nat.lt_succ_self n) hx
    have hnow := (hlater n (Nat.le_refl n)).trans hx
    have hothers : ∀ j y, j ≠ n → (o.abandonAll n).world.workers[j]? = some y → y.Rests := by
      intro j y hj hy
      rcases Nat.lt_or_ge j n with hlt | hge
      · exact Or.inr (hended j y hlt hy)
      · exact hrest y (Array.mem_of_getElem? ((hlater j hge).symm.trans hy))
    obtain ⟨htended', hsame, y, hy, hphase⟩ := abandon_spec htended hnow hr hothers hh
    refine ⟨htended', hsame.keys.trans hkeys, fun i z hi hz => ?_, fun i hi => ?_⟩
    · rcases Nat.lt_succ_iff_lt_or_eq.mp hi with hlt | rfl
      · rw [hsame.others i (Nat.ne_of_lt hlt)] at hz
        exact hended i z hlt hz
      · cases hy.symm.trans hz
        exact hphase
    · rw [hsame.others i (Nat.ne_of_gt hi)]
      exact hlater i (Nat.le_of_succ_le hi)

/-- All workers have come to their end without having been started. -/
structure Vacant (p : Pipeline) (old : List (WorkerKey × Episode)) (o : Orchestrator σ) : Prop where
  tended : o.world.Tended p old
  ended : ∀ x ∈ o.world.workers, x.phase = .ended

/-- If all workers have ended but some at the front, it is enough to abandon these. -/
theorem abandonAll_vacant {n : Nat} (hn : n ≤ o.world.workers.size) (h : o.world.Tended p old)
    (hready : ∀ i x, i < n → o.world.workers[i]? = some x → ∃ r, x.phase = .initialized r)
    (hlate : ∀ i x, n ≤ i → o.world.workers[i]? = some x → x.phase = .ended)
    (hh : (o.abandonAll n).hangs = false) :
    Vacant p old (o.abandonAll n) ∧ (o.abandonAll n).keys = o.keys := by
  have hrest : ∀ x ∈ o.world.workers, x.Rests := by
    intro x hx
    obtain ⟨i, hi⟩ := Array.getElem?_of_mem hx
    rcases Nat.lt_or_ge i n with hlt | hge
    · exact Or.inl (hready i x hlt hi)
    · exact Or.inr (hlate i x hge hi)
  obtain ⟨htended, hkeys, hended, hlater⟩ := abandonAll_spec hn h hready hrest hh
  refine ⟨⟨htended, fun x hx => ?_⟩, hkeys⟩
  obtain ⟨i, hi⟩ := Array.getElem?_of_mem hx
  rcases Nat.lt_or_ge i n with hlt | hge
  · exact hended i x hlt hi
  · exact hlate i x hge ((hlater i hge).symm.trans hi)

/-! ### Enrolling -/

theorem tended_addWorker (h : o.world.Tended p old) {c : Context} {state : σ}
    (hfresh : c.key ∉ o.keys)
    (hwrites : ∀ i ch, p.channels[i]? = some ch → ch.writer? = some c.key → i ∈ c.written) :
    (o.addWorker c state).world.Tended p old := by
  have hkeys : (o.addWorker c state).world.workers.toList.map Worker.key = o.keys ++ [c.key] := by
    show (o.world.workers.push (.new c state)).toList.map Worker.key = _
    rw [Array.toList_push, List.map_append]
    rfl
  refine ⟨h.laid, ?_, Array.forall_mem_push.mpr ⟨hwrites, h.writes⟩,
    Array.forall_mem_push.mpr ⟨?_, fun x hx => ?_⟩, h.spent, fun k hk => ?_⟩
  · rw [hkeys]
    refine List.Nodup.append h.nodup (List.nodup_singleton _) fun k hk hc => hfresh ?_
    rwa [List.mem_singleton.mp hc] at hk
  · show Phase.Records _ _ (.initializing _) (lifeOf c.key ((c.key, .begun) :: _))
    rw [lifeOf_cons_self, h.others c.key hfresh]
    exact .initializing _ (h.spent c.key)
  · have hne : c.key ≠ x.key := fun he =>
      hfresh (he ▸ List.mem_map_of_mem (Array.mem_toList_iff.mpr hx))
    show x.phase.Records _ _ (lifeOf x.key ((c.key, .begun) :: _))
    rw [lifeOf_cons_of_ne hne]
    exact h.records x hx
  · rw [hkeys, List.mem_append, List.mem_singleton, not_or] at hk
    show lifeOf k ((c.key, .begun) :: _) = _
    rw [lifeOf_cons_of_ne (Ne.symm hk.2)]
    exact h.others k hk.1

/-- The run when a worker has been added and has had its time. -/
def admitted (o : Orchestrator σ) (c : Context) (state : σ) : Orchestrator σ :=
  (o.addWorker c state).runUntil fun w =>
    (w.workers[o.world.workers.size]?.bind Worker.initResult?).isSome

/-- Either there is a result of the initialization, or it goes on for ever. -/
theorem enroll_cases (o : Orchestrator σ) (k : WorkerKey) (wiring : Wiring) (spec : TransformSpec)
    (state : σ) {c : Context} (hc : c = .new spec k.copy wiring (o.pipeline.slot k.id)) :
    (∃ x result, (o.admitted c state).world.workers[o.world.workers.size]? = some x ∧
      x.phase = .initialized result ∧ o.enroll k wiring spec state = (o.admitted c state, result)) ∨
    (o.enroll k wiring spec state).1.hangs = true := by
  subst hc
  unfold enroll
  dsimp only
  rw [← admitted]
  split
  · rename_i result hr
    obtain ⟨x, hx, hresult⟩ := Option.bind_eq_some_iff.mp hr
    unfold Worker.initResult? at hresult
    split at hresult
    · rename_i hphase
      cases hresult
      exact Or.inl ⟨x, _, hx, hphase, rfl⟩
    · cases hresult
  · exact Or.inr rfl

theorem hangs_enroll {k : WorkerKey} {wiring : Wiring} {spec : TransformSpec} {state : σ}
    (h : (o.enroll k wiring spec state).1.hangs = false) : o.hangs = false := by
  rcases o.enroll_cases k wiring spec state rfl with ⟨x, result, -, -, he⟩ | hh
  · rw [he] at h
    exact h
  · rw [h] at hh
    cases hh

/-- All workers so far have been initialized with success and wait for their start. -/
structure Manned (p : Pipeline) (old : List (WorkerKey × Episode)) (ks : List WorkerKey)
    (o : Orchestrator σ) : Prop where
  pipeline : o.pipeline = p
  tended : o.world.Tended p old
  keys : o.keys = ks
  ready : ∀ x ∈ o.world.workers, x.phase = .initialized (.ok ())

/-- A worker that is enrolled comes to the end of its initialization, and the others stay as they
are. -/
theorem Manned.enroll (hp : p.WellFormed) {ks : List WorkerKey} {k : WorkerKey}
    {spec : TransformSpec} {state : σ} {o₁ : Orchestrator σ} {result : Except TransformError Unit}
    (h : Manned p old ks o) (hfresh : k ∉ ks) (hspec : p.transform? k.id = some spec)
    (hk : k ∈ p.copiesOf k.id) (he : o.enroll k (p.wiring k) spec state = (o₁, result))
    (hh : o₁.hangs = false) :
    o₁.world.Tended p old ∧ ∃ x, o₁.world.workers = o.world.workers.push x ∧ x.key = k ∧
      x.phase = .initialized result := by
  obtain ⟨c, hc⟩ : ∃ c : Context, c = .new spec k.copy (p.wiring k) (p.slot k.id) := ⟨_, rfl⟩
  have hkey : c.key = k := hc ▸ Context.new_key hspec _ _
  have hcontext : p.context? k = some c := by
    rw [Pipeline.context?, hspec, hc]
    rfl
  have hadded : (o.addWorker c state).world.Tended p old := by
    refine tended_addWorker h.tended ?_ fun i ch hch hw => ?_
    · rwa [hkey, h.keys]
    · rw [hkey] at hw
      exact (hp.written_context hcontext hk).mpr ⟨ch, hch, hw⟩
  have halone : (o.addWorker c state).world.SameBut o.world.workers.size
      (o.admitted c state).world := by
    refine World.runUntil_alone (fun j x hj hx => ?_) _ none _
    change (o.world.workers.push _)[j]? = some x at hx
    rw [Array.getElem?_push, if_neg hj] at hx
    exact Or.inl ⟨_, h.ready x (Array.mem_of_getElem? hx)⟩
  have hc' : c = .new spec k.copy (p.wiring k) (o.pipeline.slot k.id) := by rw [hc, h.pipeline]
  rcases o.enroll_cases k (p.wiring k) spec state hc' with
    ⟨x, result', hx, hphase, heq⟩ | hhangs
  · cases he.symm.trans heq
    have hpush : (o.admitted c state).world.workers = o.world.workers.push x := by
      refine Array.ext_getElem? fun j => ?_
      rw [Array.getElem?_push]
      split
      · rename_i hj
        rw [hj, hx]
      · rename_i hj
        rw [halone.others j hj]
        show (o.world.workers.push _)[j]? = _
        rw [Array.getElem?_push, if_neg hj]
    refine ⟨hadded.runUntil _ none _, x, hpush, ?_, hphase⟩
    have hkeys := halone.keys
    rw [hpush] at hkeys
    change (o.world.workers.push x).toList.map Worker.key =
      (o.world.workers.push (.new c state)).toList.map Worker.key at hkeys
    rw [Array.toList_push, Array.toList_push, List.map_append, List.map_append,
      List.append_cancel_left_eq] at hkeys
    exact (List.cons.inj hkeys).1.trans hkey
  · rw [he, hh] at hhangs
    cases hhangs

/-! ### Preparing -/

theorem hangs_prepareWorker (k : WorkerKey) (wiring : Wiring) (bindings : Table String)
    (h : (o.prepareWorker k wiring bindings).1.hangs = false) : o.hangs = false := by
  have hends := o.prepareWorker_ends k wiring bindings
  have henrolled : ∀ {built : Table Nat} {spec : TransformSpec} {state : σ} {o₁ : Orchestrator σ}
      {result : Except TransformError Unit},
      ({ o with built } : Orchestrator σ).enroll k wiring spec state = (o₁, result) →
      o₁.hangs = false → o.hangs = false := by
    intro built spec state o₁ result he hh
    exact hangs_enroll (o := { o with built }) (by rw [he]; exact hh)
  generalize o.prepareWorker k wiring bindings = x at hends h
  cases hends
  case unknown => exact h
  case refused built _ _ _ _ _ => exact hangs_abandonAll (o := { o with built }) h
  case initFailed o₁ e _ _ he =>
    exact henrolled he (hangs_abandon (o := o₁.say _) (hangs_abandonAll h))
  case hookFailed o₁ message _ _ he _ =>
    exact henrolled he (hangs_abandonAll (o := (o₁.called _ _).say _) h)
  case prepared he _ => exact henrolled he h

omit [Transform σ] in
theorem Manned.all_ready {ks : List WorkerKey} (h : Manned p old ks o) {i : Nat} {x : Worker σ}
    (hx : o.world.workers[i]? = some x) : ∃ r, x.phase = .initialized r :=
  ⟨_, h.ready x (Array.mem_of_getElem? hx)⟩

theorem Manned.abandonAll {ks : List WorkerKey} (h : Manned p old ks o)
    (hh : (o.abandonAll o.world.workers.size).hangs = false) :
    Vacant p old (o.abandonAll o.world.workers.size) ∧
      (o.abandonAll o.world.workers.size).keys = ks := by
  rw [← h.keys]
  refine abandonAll_vacant (Nat.le_refl _) h.tended (fun i x _ hx => h.all_ready hx)
    (fun i x hi hx => ?_) hh
  rw [Array.getElem?_eq_none hi] at hx
  cases hx

theorem Manned.abandonFailed {ks : List WorkerKey} {o₁ : Orchestrator σ} {x : Worker σ}
    {e : TransformError} (h : Manned p old ks o) (htended : o₁.world.Tended p old)
    (hworkers : o₁.world.workers = o.world.workers.push x)
    (hphase : x.phase = .initialized (.error e))
    (hh : ((o₁.abandon o.world.workers.size).abandonAll o.world.workers.size).hangs = false) :
    Vacant p old ((o₁.abandon o.world.workers.size).abandonAll o.world.workers.size) := by
  have hx : o₁.world.workers[o.world.workers.size]? = some x := by
    rw [hworkers, Array.getElem?_push, if_pos rfl]
  have hothers : ∀ j y, j ≠ o.world.workers.size → o₁.world.workers[j]? = some y →
      ∃ r, y.phase = .initialized r := by
    intro j y hj hy
    rw [hworkers, Array.getElem?_push, if_neg hj] at hy
    exact h.all_ready hy
  obtain ⟨htended', hsame, y, hy, hended⟩ := abandon_spec htended hx hphase
    (fun j y hj hy => Or.inl (hothers j y hj hy)) (hangs_abandonAll hh)
  have hsize : (o₁.abandon o.world.workers.size).world.workers.size = o.world.workers.size + 1 := by
    rw [hsame.size, hworkers, Array.size_push]
  refine (abandonAll_vacant (by omega) htended' (fun i z hi hz => ?_) (fun i z hi hz => ?_) hh).1
  · rw [hsame.others i (Nat.ne_of_lt hi)] at hz
    exact hothers i z (Nat.ne_of_lt hi) hz
  · rcases Nat.eq_or_lt_of_le hi with rfl | hlt
    · cases hy.symm.trans hz
      exact hended
    · rw [Array.getElem?_eq_none (by omega)] at hz
      cases hz

/-- **The preparation of one worker** adds it to those that wait for their start, or abandons all. -/
theorem prepareWorker_manned (hp : p.WellFormed) {ks : List WorkerKey} {k : WorkerKey}
    (bindings : Table String) {r : Resolved σ} (h : Manned p old ks o) (hfresh : k ∉ ks)
    (hr : o.transforms.find? k.id = some r) (hspec : p.transform? k.id = some r.spec)
    (hk : k ∈ p.copiesOf k.id)
    (hh : (o.prepareWorker k (p.wiring k) bindings).1.hangs = false) :
    (∀ b, (o.prepareWorker k (p.wiring k) bindings).2 = .ok b →
      Manned p old (ks ++ [k]) (o.prepareWorker k (p.wiring k) bindings).1) ∧
    ∀ e, (o.prepareWorker k (p.wiring k) bindings).2 = .error e →
      Vacant p old (o.prepareWorker k (p.wiring k) bindings).1 := by
  have hends := o.prepareWorker_ends k (p.wiring k) bindings
  have hbuilt : ∀ built, Manned p old ks { o with built } := fun _ =>
    ⟨h.pipeline, h.tended, h.keys, h.ready⟩
  -- with a successful initialization the workers still wait for their start
  have henrolled : ∀ {built : Table Nat} {state : σ} {o₁ : Orchestrator σ},
      ({ o with built } : Orchestrator σ).enroll k (p.wiring k) r.spec state = (o₁, .ok ()) →
      o₁.hangs = false → Manned p old (ks ++ [k]) o₁ ∧
        o₁.world.workers.size = o.world.workers.size + 1 := by
    intro built state o₁ he hh
    obtain ⟨htended, x, hworkers, hkey, hphase⟩ :=
      (hbuilt built).enroll hp hfresh hspec hk he hh
    have hsame := ({ o with built } : Orchestrator σ).sameRun_enroll k (p.wiring k) r.spec state
    rw [he] at hsame
    refine ⟨⟨hsame.pipeline.trans h.pipeline, htended, ?_, ?_⟩, ?_⟩
    · unfold keys
      rw [hworkers, Array.toList_push, List.map_append, List.map_singleton, hkey]
      exact congrArg (· ++ [k]) h.keys
    · rw [hworkers]
      exact Array.forall_mem_push.mpr ⟨hphase, h.ready⟩
    · rw [hworkers, Array.size_push]
  generalize o.prepareWorker k (p.wiring k) bindings = x at hends hh ⊢
  cases hends
  case unknown hn =>
    rw [hr] at hn
    cases hn
  case refused built r' n e hr' hi =>
    exact ⟨fun b hb => by (cases hb), fun _ _ => ((hbuilt built).abandonAll hh).1⟩
  case initFailed built r' n state o₁ e hr' hi he =>
    cases hr.symm.trans hr'
    refine ⟨fun b hb => by (cases hb), fun e' _ => ?_⟩
    have hh₁ : o₁.hangs = false := hangs_abandon (o := o₁.say _) (hangs_abandonAll hh)
    obtain ⟨htended, x, hworkers, -, hphase⟩ := (hbuilt built).enroll hp hfresh hspec hk he hh₁
    have hsaid : (o₁.say (.initFailed k.id k.copy e.render)).world.Tended p old :=
      htended.share rfl rfl fun i hi => hi
    exact h.abandonFailed hsaid hworkers hphase hh
  case hookFailed built r' n state o₁ message hr' hi he hn =>
    cases hr.symm.trans hr'
    refine ⟨fun b hb => by (cases hb), fun e' _ => ?_⟩
    have hh₁ : o₁.hangs = false := hangs_abandonAll (o := (o₁.called _ _).say _) hh
    obtain ⟨hmanned, hsize⟩ := henrolled he hh₁
    rw [← hsize] at hh ⊢
    have hsaid : Manned p old (ks ++ [k]) ((o₁.called .initialized (o₁.sceneOf k bindings)).say
        (.hookFailed o₁.pipeline.name HookPoint.initialized.title message)) :=
      ⟨hmanned.pipeline, hmanned.tended.share rfl rfl fun i hi => hi, hmanned.keys, hmanned.ready⟩
    exact (hsaid.abandonAll hh).1
  case prepared built r' n state o₁ b hr' hi he ha =>
    cases hr.symm.trans hr'
    obtain ⟨hmanned, -⟩ := henrolled he hh
    exact ⟨fun b _ => ⟨hmanned.pipeline, hmanned.tended, hmanned.keys, hmanned.ready⟩,
      fun e he => by (cases he)⟩

theorem hangs_prepareWorkers {t : Topology} {bindings : Table String} {ks : List WorkerKey}
    (h : (o.prepareWorkers t bindings ks).1.hangs = false) : o.hangs = false := by
  induction ks generalizing o t bindings with
  | nil => exact h
  | cons k rest ih =>
    refine hangs_prepareWorker k (t.takeWiring k).1 bindings ?_
    unfold prepareWorkers at h
    dsimp only at h
    rcases hw : o.prepareWorker k (t.takeWiring k).1 bindings with ⟨o₁, e | b⟩ <;> rw [hw] at h
    · exact h
    · exact ih h

/-- **The preparation of the workers** leaves all of them waiting for their start, or none. -/
theorem prepareWorkers_manned (hp : p.WellFormed) {ks done : List WorkerKey} {t : Topology}
    (bindings : Table String) (h : Manned p old done o) (ht : t.Keeps p ks)
    (hfresh : ∀ k ∈ ks, k ∉ done) (hks : ∀ k ∈ ks, k ∈ p.copiesOf k.id)
    (hts : ∀ k ∈ ks, ∃ r, o.transforms.find? k.id = some r ∧ p.transform? k.id = some r.spec)
    (hh : (o.prepareWorkers t bindings ks).1.hangs = false) :
    ((o.prepareWorkers t bindings ks).2 = .ok () →
      Manned p old (done ++ ks) (o.prepareWorkers t bindings ks).1) ∧
    ∀ e, (o.prepareWorkers t bindings ks).2 = .error e →
      Vacant p old (o.prepareWorkers t bindings ks).1 := by
  induction ks generalizing done o bindings t with
  | nil =>
    rw [List.append_nil]
    exact ⟨fun _ => h, fun e he => by cases he⟩
  | cons k rest ih =>
    obtain ⟨hwiring, hrest⟩ := ht.take
    obtain ⟨r, hr, hspec⟩ := hts k List.mem_cons_self
    have hone := prepareWorker_manned hp bindings h (hfresh k List.mem_cons_self) hr hspec
      (hks k List.mem_cons_self)
    have hsame := o.sameRun_prepareWorker k (p.wiring k) bindings
    unfold prepareWorkers at hh ⊢
    dsimp only at hh ⊢
    rw [hwiring] at hh ⊢
    rcases hw : o.prepareWorker k (p.wiring k) bindings with ⟨o₁, e | b⟩ <;>
      rw [hw] at hh hone hsame
    · exact ⟨fun hok => by (cases hok), fun e' _ => (hone hh).2 e rfl⟩
    · have hnext := (hone (hangs_prepareWorkers hh)).1 b rfl
      have hall := ih b hnext hrest (fun k' hk' hm => ?_)
        (fun k' hk' => hks k' (List.mem_cons_of_mem _ hk')) (fun k' hk' => ?_) hh
      · rwa [List.append_assoc, List.singleton_append] at hall
      · rcases List.mem_append.mp hm with hm | hm
        · exact hfresh k' (List.mem_cons_of_mem _ hk') hm
        · rw [List.mem_singleton.mp hm] at hk'
          exact (List.nodup_cons.mp ht.nodup).1 hk'
      · rw [hsame.transforms]
        exact hts k' (List.mem_cons_of_mem _ hk')

theorem hangs_prepare (h : o.prepare.1.hangs = false) : o.hangs = false := by
  have hends := o.prepare_ends
  generalize o.prepare = x at hends h
  cases hends
  case failed b order o₁ e hs hh hord hw =>
    exact hangs_prepareWorkers (o := o.begun b) (by rw [hw]; exact h)
  case prepared b order o₁ m hs hh hord hw =>
    exact hangs_prepareWorkers (o := o.begun b) (by rw [hw]; exact h)
  all_goals exact h

/-- **A preparation** of a run in which everybody has been disposed of leaves all workers waiting for
their start, or all of them have ended, or it has not touched anybody. -/
theorem prepare_manned (hp : p.WellFormed) (hpipe : o.pipeline = p)
    (hts : ∀ id ∈ p.ids, ∃ r, o.transforms.find? id = some r ∧ p.transform? id = some r.spec)
    (hspent : ∀ k, Spent (lifeOf k o.world.shared.episodes)) (hh : o.prepare.1.hangs = false) :
    (o.prepare.2 = .ok () → ∃ order, (HopGraph.ofPipeline p).topologicalOrder = some order ∧
      Manned p o.world.shared.episodes (order.flatMap p.copiesOf) o.prepare.1) ∧
    ∀ e, o.prepare.2 = .error e → o.prepare.1.world.shared.episodes = o.world.shared.episodes ∨
      Vacant p o.world.shared.episodes o.prepare.1 := by
  subst hpipe
  have hbegun : ∀ b, Manned o.pipeline o.world.shared.episodes [] (o.begun b) := fun b =>
    { pipeline := rfl
      tended := {
        laid := by
          show ((Topology.build o.pipeline).rowSets o.pipeline.engine.capacity).toArray.size = _
          rw [Topology.build_rowSets]
          simp [Pipeline.rowSets]
        nodup := List.nodup_nil
        writes := Array.forall_mem_empty _
        records := Array.forall_mem_empty _
        spent := hspent
        others := fun _ _ => rfl }
      keys := rfl
      ready := Array.forall_mem_empty _ }
  have hall : ∀ {b : Table String} {order : List String} {o₁ : Orchestrator σ}
      {result : Except ExecutionError Unit},
      (HopGraph.ofPipeline o.pipeline).topologicalOrder = some order →
      (o.begun b).prepareWorkers (Topology.build o.pipeline) b
        (order.flatMap o.pipeline.copiesOf) = (o₁, result) → o₁.hangs = false →
      (result = .ok () → Manned o.pipeline o.world.shared.episodes
        (order.flatMap o.pipeline.copiesOf) o₁) ∧
      ∀ e, result = .error e → Vacant o.pipeline o.world.shared.episodes o₁ := by
    intro b order o₁ result hord hw hh
    have hspec := prepareWorkers_manned hp b (hbegun b) (Topology.keeps_build hord)
      (fun k _ => List.not_mem_nil) Pipeline.copiesOf_of_mem_order (fun k hk => ?_)
      (by rw [hw]; exact hh)
    · rwa [hw] at hspec
    · obtain ⟨id, hid, hkid⟩ := List.mem_flatMap.mp hk
      rw [(Pipeline.mem_copiesOf.mp hkid).1]
      exact hts id ((hp.forward hord).1.subset hid)
  have hends := o.prepare_ends
  generalize o.prepare = x at hends hh ⊢
  cases hends
  case failed b order o₁ e hs ha hord hw =>
    exact ⟨fun hok => by (cases hok), fun e' _ => Or.inr ((hall hord hw hh).2 e rfl)⟩
  case prepared b order o₁ m hs ha hord hw =>
    have hmanned := (hall hord hw hh).1 rfl
    refine ⟨fun _ => ⟨order, hord, hmanned.pipeline, ?_, hmanned.keys, hmanned.ready⟩,
      fun e he => by (cases he)⟩
    exact hmanned.tended.share rfl rfl fun i hi => hi
  all_goals exact ⟨fun hok => by (cases hok), fun _ _ => Or.inl rfl⟩

/-! ### A start that is refused -/

omit [Transform σ] in
theorem Manned.closeInjectors {ks : List WorkerKey} (h : Manned p old ks o)
    (claimed : List String) : Manned p old ks (o.closeInjectors claimed) := by
  unfold Orchestrator.closeInjectors
  dsimp only
  generalize (Topology.build o.pipeline).injectors.filterMap _ = positions
  obtain ⟨hep, hsize⟩ := o.world.shared.finishAll_fixed positions
  have hdone := o.world.shared.done_finishAll positions
  exact ⟨h.pipeline, h.tended.share hep hsize fun i hi => (hdone i).mpr (Or.inl hi), h.keys, h.ready⟩

omit [Transform σ] in
theorem done_closeInjectors (hp : p.WellFormed) (ho : o.pipeline = p) (claimed : List String) {i : Nat}
    {t : String} (hch : p.channels[i]? = some (.injector t)) (ht : t ∉ claimed) :
    (o.closeInjectors claimed).world.shared.done i = true := by
  unfold Orchestrator.closeInjectors
  dsimp only
  refine (o.world.shared.done_finishAll _ i).mpr (Or.inr ?_)
  rw [ho, Topology.build_injectors]
  exact List.mem_filterMap.mpr ⟨(t, i), hp.mem_injectors.mpr hch, if_neg ht⟩

theorem done_abandonAll {n i : Nat} (h : o.world.shared.done i = true) :
    (o.abandonAll n).world.shared.done i = true := by
  have hone : ∀ {o : Orchestrator σ} {j : Nat}, o.world.shared.done i = true →
      (o.abandon j).world.shared.done i = true := by
    intro o j h
    rw [world_abandon]
    refine World.runUntil_induction (P := fun w => w.shared.done i = true) (fun w w' ht hw => ?_)
      (fun w j hw => ?_) _ none _ h
    · obtain ⟨-, ⟨stopped, clock, hshared⟩, -⟩ := ht
      rw [hshared]
      exact hw
    · rcases hx : w.workers[j]? with _ | x
      · rwa [World.step_of_none hx]
      · rw [World.step_of_getElem? hx]
        exact x.done_step w.shared hw
  unfold abandonAll
  induction List.range n generalizing o with
  | nil => exact h
  | cons j rest ih => exact ih (hone h)

theorem hangs_start (h : o.start.1.hangs = false) : o.hangs = false := by
  have hends := o.start_ends
  generalize o.start = x at hends h
  cases hends
  case refused claimed message hs hh o₁ ho =>
    have hh₁ : o₁.hangs = false :=
      hangs_abandonAll (o := ({ o₁ with state := .finished } : Orchestrator σ).closeInjectors []) h
    rw [ho] at hh₁
    exact hh₁
  all_goals exact h

/-- **A start that is refused** abandons all workers and closes what rows could have been injected
into. -/
theorem start_vacant (hp : p.WellFormed) {ks : List WorkerKey} {claimed : List String}
    {e : ExecutionError} (h : Manned p old ks o) (hs : o.state = .prepared claimed) (he : o.start.2 = .error e)
    (hh : o.start.1.hangs = false) :
    Vacant p old o.start.1 ∧ o.start.1.keys = ks ∧
      ∀ i t, p.channels[i]? = some (.injector t) → o.start.1.world.shared.done i = true := by
  have hends := o.start_ends
  generalize o.start = x at hends he hh ⊢
  cases hends
  case unprepared hs' =>
    rw [hs] at hs'
    cases hs'
  case misplaced hs' => exact absurd hs (hs' claimed)
  case refused claimed' message hs' hn o₁ ho =>
    have hsaid : Manned p old ks { o₁ with state := .finished } := by
      subst ho
      exact ⟨h.pipeline, h.tended.share rfl rfl fun i hi => hi, h.keys, h.ready⟩
    have hsize : o.world.workers.size =
        (({ o₁ with state := .finished } : Orchestrator σ).closeInjectors []).world.workers.size := by
      subst ho
      rfl
    rw [hsize] at hh ⊢
    obtain ⟨hvacant, hkeys⟩ := (hsaid.closeInjectors []).abandonAll hh
    exact ⟨hvacant, hkeys, fun i t hch =>
      done_abandonAll (done_closeInjectors hp hsaid.pipeline [] hch List.not_mem_nil)⟩
  case started => cases he

end Orchestrator

/-! ### What has been abandoned -/

/-- There is a row set at the position, and it is done. -/
def Shared.Sealed (s : Shared) (i : Nat) : Prop := ∃ r, s.rowSet? i = some r ∧ r.isDone = true

theorem Shared.sealed_of_done {s : Shared} {i : Nat} (hi : i < s.rowSets.size) (h : s.done i = true) :
    s.Sealed i := by
  have hr : s.rowSet? i = some s.rowSets[i] := Array.getElem?_eq_getElem hi
  unfold done at h
  rw [hr] at h
  exact ⟨_, hr, h⟩

namespace Orchestrator.Vacant

variable {o : Orchestrator σ} (h : o.Vacant p old)
include h

omit [Transform σ] in
theorem spent (k : WorkerKey) : Spent (lifeOf k o.world.shared.episodes) := by
  by_cases hk : k ∈ o.keys
  · obtain ⟨x, hx, rfl⟩ := List.mem_map.mp hk
    have hmem := Array.mem_toList_iff.mp hx
    have hrecords := h.tended.records x hmem
    rw [h.ended x hmem] at hrecords
    cases hrecords with
    | ended hspent _ => exact hspent
  · rw [h.tended.others k hk]
    exact h.tended.spent k

omit [Transform σ] in
theorem sealed_of_done {i : Nat} {ch : Channel} (hch : p.channels[i]? = some ch)
    (hd : o.world.shared.done i = true) : o.world.shared.Sealed i := by
  refine Shared.sealed_of_done ?_ hd
  rw [h.tended.laid]
  exact (List.getElem?_eq_some_iff.mp hch).choose

omit [Transform σ] in
theorem sealed_of_writer {k : WorkerKey} {i : Nat} {ch : Channel} (hk : k ∈ o.keys)
    (hch : p.channels[i]? = some ch) (hw : ch.writer? = some k) : o.world.shared.Sealed i := by
  obtain ⟨x, hx, rfl⟩ := List.mem_map.mp hk
  have hmem := Array.mem_toList_iff.mp hx
  have hrecords := h.tended.records x hmem
  rw [h.ended x hmem] at hrecords
  cases hrecords with
  | ended _ hclosed => exact h.sealed_of_done hch (hclosed i (h.tended.writes x hmem i ch hch hw))

end Orchestrator.Vacant

end Rowflow
