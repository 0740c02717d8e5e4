import Rowflow.Proofs.Course.Preparation

/-!
# What happens to a transform

A run notes when a copy of a transform is initialized, put to work and disposed of. A step of a worker
notes one episode at most (`Worker.step_episodes`). As long as nothing has been started, the episodes
of a worker tell where it is in its life (`Phase.Records`), and a worker that is past its disposal has
closed everything that it writes to. `World.Tended` says this of all workers at once.
-/

namespace Rowflow

variable {σ : Type}

/-! ### Lives -/

/-- What has happened to one copy of a transform, the last episode first. -/
def lifeOf (k : WorkerKey) (es : List (WorkerKey × Episode)) : List Episode :=
  (es.filter (·.1 = k)).map Prod.snd

theorem mem_lifeOf {k : WorkerKey} {es : List (WorkerKey × Episode)} {e : Episode} :
    e ∈ lifeOf k es ↔ (k, e) ∈ es := by
  simp [lifeOf]

theorem lifeOf_cons_self (k : WorkerKey) (e : Episode) (es : List (WorkerKey × Episode)) :
    lifeOf k ((k, e) :: es) = e :: lifeOf k es := by
  simp [lifeOf]

theorem lifeOf_cons_of_ne {k k' : WorkerKey} (h : k' ≠ k) (e : Episode)
    (es : List (WorkerKey × Episode)) : lifeOf k ((k', e) :: es) = lifeOf k es := by
  simp [lifeOf, h]

theorem lifeOf_append_self (k : WorkerKey) (e : Option Episode)
    (es : List (WorkerKey × Episode)) :
    lifeOf k (e.toList.map (k, ·) ++ es) = e.toList ++ lifeOf k es := by
  rcases e with _ | e
  · rfl
  · exact lifeOf_cons_self k e es

theorem lifeOf_append_of_ne {k k' : WorkerKey} (h : k' ≠ k) (e : Option Episode)
    (es : List (WorkerKey × Episode)) : lifeOf k (e.toList.map (k', ·) ++ es) = lifeOf k es := by
  rcases e with _ | e
  · rfl
  · exact lifeOf_cons_of_ne h e es

/-- Every instance that was initialized, with whatever result, has been disposed of, once, and none
has been put to work. -/
inductive Spent : List Episode → Prop where
  | nil : Spent []
  | disposed {es : List Episode} (result : Except TransformError Unit) (h : Spent es) :
    Spent (.disposed :: .initialized result :: .begun :: es)

theorem Spent.unstarted {es : List Episode} (h : Spent es) : Episode.started ∉ es := by
  induction h with
  | nil => exact List.not_mem_nil
  | disposed result _ ih => simpa using ih

/-- The result of the last initialization. -/
def outcome : List Episode → Option (Except TransformError Unit)
  | [] => none
  | .initialized result :: _ => some result
  | _ :: es => outcome es

/-! ### Steps -/

theorem Context.Delivered.episodes {s s' : Shared} {c c' : Context} {d : Delivery}
    {deed : Option Deed} {r : Progress} (h : Delivered s c d deed s' c' r) :
    s'.episodes = s.episodes := by
  cases h
  case last same _ _ => exact same.episodes
  case nowhere same _ _ => exact same.episodes
  all_goals rfl

theorem Activity.ReadStep.episodes {α : Type} {s s' : Shared} {c c' : Context}
    {next : Option Entry → Plan σ α} {deed : Option Deed} {a : Activity σ α}
    (h : ReadStep s c next deed s' c' a) : s'.episodes = s.episodes := by
  cases h
  case row _ same => exact same.episodes
  case broken _ same => exact same.episodes
  all_goals rfl

theorem Activity.step_episodes {α : Type} (d : Activity.Desk σ) (a : Activity σ α) :
    (a.step d).1.shared.episodes = d.shared.episodes := by
  obtain ⟨s, c, state⟩ := d
  rcases a with plan | ⟨stage, next⟩ | ⟨delivery, next⟩ | ⟨deadline, next⟩ | answer | p
  case run =>
    simp only [step]
    rcases plan with _ | _ | _ | _ | _ | ⟨e, next⟩ | ⟨target, e, next⟩ | ⟨e, why, next⟩ | _ |
      ⟨m, next⟩ | ⟨n, next⟩ | _ | ⟨m, next⟩ | _
    case write => simp only [stepPlan, startDelivery_desk]
    case writeTo => simp only [stepPlan, startDelivery_desk]
    case divert =>
      simp only [stepPlan, startDiversion_desk]
      rcases Context.startDivert_cases c s e why with ⟨-, h⟩ | ⟨route, maximum, count, -, -, h⟩ |
        ⟨route, -, -, h⟩ | ⟨route, count, -, -, h⟩ <;> rw [h]
      exact (s.same_sayAll route.diversion.refusal).episodes
    case stopAll => exact s.episodes_requestStop c.name
    case await =>
      simp only [stepPlan]
      split <;> rfl
    all_goals rfl
  case reading => exact (stepRead_spec ⟨s, c, state⟩ stage next).2.episodes
  case writing =>
    have h := (Context.deliver_spec c s delivery).episodes
    simp only [step]
    rcases hd : c.deliver s delivery with ⟨s', c', _ | _ | _⟩ <;> rw [hd] at h <;> exact h
  case resting =>
    simp only [step]
    split <;> rfl
  all_goals rfl

namespace Worker

/-- What a step of a worker notes. -/
def episode? (x : Worker σ) : Option Episode :=
  match x.phase with
  | .initializing (.done result) => some (.initialized result)
  | .initializing (.broken p) => some (.initialized (.error (.fatal p.render)))
  | .starting => some .started
  | .closing _ [] => some .disposed
  | _ => none

theorem episode?_initializing {c : Context} {state : σ} {a : Activity σ (Except TransformError Unit)}
    (h : a.Ongoing) : episode? ⟨c, state, .initializing a⟩ = none := by
  cases a
  case done => exact absurd h id
  case broken => exact absurd h id
  all_goals rfl

variable [Transform σ]

/-- **A step of a worker** notes its episode and nothing else. -/
theorem step_episodes (s : Shared) (x : Worker σ) :
    (x.step s).1.episodes = x.episode?.toList.map (x.key, ·) ++ s.episodes := by
  have hmoves := x.step_moves s
  generalize x.deed? s = d, (x.step s).1 = s', (x.step s).2 = y at hmoves ⊢
  obtain ⟨c, state, phase⟩ := x
  have hperform := fun {α : Type} (a : Activity σ α) => Activity.step_episodes ⟨s, c, state⟩ a
  cases hmoves
  case initializing a hgoing => exact episode?_initializing hgoing ▸ hperform a
  case working a _ => exact hperform a
  case diverting a _ => exact hperform a
  case disposing a _ => exact hperform a
  case fails => exact Shared.episodes_requestStop _ c.name
  case collapses => exact s.episodes_requestStop c.name
  all_goals rfl

theorem done_step (s : Shared) (x : Worker σ) {i : Nat} (h : s.done i = true) :
    (x.step s).1.done i = true :=
  (Shared.done_act (x.step_effect s).rowSets i).mpr (Or.inl h)

end Worker

/-! ### Workers that have not been started -/

/-- The episodes of a worker that has not been started tell where it is. What it writes to, it closes
before it is disposed of. -/
inductive Phase.Records (closed : Nat → Prop) (written : List Nat) : Phase σ → List Episode → Prop where
  | initializing (a : Activity σ (Except TransformError Unit)) {es : List Episode} (h : Spent es) :
    Records closed written (.initializing a) (.begun :: es)
  | initialized (result : Except TransformError Unit) {es : List Episode} (h : Spent es) :
    Records closed written (.initialized result) (.initialized result :: .begun :: es)
  | closing (result : Except TransformError Unit) (rest : List Nat) {es : List Episode} (h : Spent es)
    (hc : ∀ i ∈ written, i ∈ rest ∨ closed i) :
    Records closed written (.closing .abandoned rest) (.initialized result :: .begun :: es)
  | disposing (a : Activity σ Unit) {es : List Episode} (h : Spent es) (hc : ∀ i ∈ written, closed i) :
    Records closed written (.disposing .abandoned a) es
  | ended {es : List Episode} (h : Spent es) (hc : ∀ i ∈ written, closed i) :
    Records closed written .ended es

namespace Phase.Records

theorem mono {closed closed' : Nat → Prop} {written : List Nat} {ph : Phase σ} {es : List Episode}
    (h : ph.Records closed written es) (hmono : ∀ i, closed i → closed' i) :
    ph.Records closed' written es := by
  cases h with
  | initializing a h => exact .initializing a h
  | initialized result h => exact .initialized result h
  | closing result rest h hc => exact .closing result rest h fun i hi => (hc i hi).imp_right (hmono i)
  | disposing a h hc => exact .disposing a h fun i hi => hmono i (hc i hi)
  | ended h hc => exact .ended h fun i hi => hmono i (hc i hi)

variable [Transform σ]

theorem step {x : Worker σ} {s : Shared} {es : List Episode}
    (h : x.phase.Records (s.done · = true) x.context.written es) :
    (x.step s).2.phase.Records ((x.step s).1.done · = true) (x.step s).2.context.written
      (x.episode?.toList ++ es) := by
  rw [(x.step_effect s).leads.written]
  have hmono : ∀ i, s.done i = true → (x.step s).1.done i = true := fun i => x.done_step s
  have hmoves := x.step_moves s
  generalize x.deed? s = d, (x.step s).1 = s', (x.step s).2 = y at hmoves hmono ⊢
  obtain ⟨c, state, phase⟩ := x
  cases hmoves
  case initializing a hgoing =>
    cases h with
    | initializing _ h =>
      rw [Worker.episode?_initializing hgoing]
      exact .initializing _ h
  case initialized r =>
    cases h with
    | initializing _ h => exact .initialized r h
  case uninitialized p =>
    cases h with
    | initializing _ h => exact .initialized _ h
  case waits r =>
    cases h with
    | initialized _ h => exact .initialized r h
  case closes j rest =>
    cases h with
    | closing result _ h hc =>
      refine .closing result rest h fun i hi => ?_
      rcases hc i hi with hm | hd
      · rcases List.mem_cons.mp hm with rfl | hm
        · exact Or.inr ((s.done_finish i i).mpr (Or.inr rfl))
        · exact Or.inl hm
      · exact Or.inr (hmono i hd)
  case closed =>
    cases h with
    | closing result _ h hc =>
      refine .disposing _ (.disposed result h) fun i hi => hmono i ?_
      exact (hc i hi).resolve_left List.not_mem_nil
  case disposing a _ =>
    cases h with
    | disposing _ h hc => exact .disposing _ h fun i hi => hmono i (hc i hi)
  case disposed =>
    cases h with
    | disposing _ h hc => exact .ended h hc
  case undisposed =>
    cases h with
    | disposing _ h hc => exact .ended h fun i hi => hmono i (hc i hi)
  case ended =>
    cases h with
    | ended h hc => exact .ended h hc
  all_goals cases h

end Phase.Records

/-! ### Worlds before the start -/

namespace Shared

theorem size_act {s s' : Shared} {d : Option Deed} (h : s'.rowSets = Deed.act? s.rowSets d) :
    s'.rowSets.size = s.rowSets.size := by
  rw [h]
  rcases d with _ | d
  · rfl
  · cases d
    case took => exact Array.size_modify
    case gave => exact Array.size_modify
    case closed => exact Array.size_modify
    all_goals rfl

theorem finishAll_fixed (s : Shared) (is : List Nat) :
    (is.foldl finish s).episodes = s.episodes ∧
      (is.foldl finish s).rowSets.size = s.rowSets.size := by
  induction is generalizing s with
  | nil => exact ⟨rfl, rfl⟩
  | cons i rest ih =>
    obtain ⟨hep, hsize⟩ := ih (s.finish i)
    exact ⟨hep, hsize.trans Array.size_modify⟩

end Shared

/-- Before the start: what has happened to the workers tells where they are, and nobody else has been
touched since some earlier time, at which nobody was there. -/
structure World.Tended (p : Pipeline) (old : List (WorkerKey × Episode)) (w : World σ) : Prop where
  laid : w.shared.rowSets.size = p.channels.length
  nodup : (w.workers.toList.map Worker.key).Nodup
  writes : ∀ x ∈ w.workers, ∀ i ch, p.channels[i]? = some ch → ch.writer? = some x.key →
    i ∈ x.context.written
  records : ∀ x ∈ w.workers, x.phase.Records (w.shared.done · = true) x.context.written
    (lifeOf x.key w.shared.episodes)
  spent : ∀ k, Spent (lifeOf k old)
  others : ∀ k, k ∉ w.workers.toList.map Worker.key → lifeOf k w.shared.episodes = lifeOf k old

namespace World.Tended

variable {p : Pipeline} {old : List (WorkerKey × Episode)} {w w' : World σ}

/-- What workers share may change as long as it is neither episodes nor end marks. -/
theorem share (h : w.Tended p old) {s : Shared} (hep : s.episodes = w.shared.episodes)
    (hsize : s.rowSets.size = w.shared.rowSets.size)
    (hdone : ∀ i, w.shared.done i = true → s.done i = true) : Tended p old { w with shared := s } where
  laid := hsize.trans h.laid
  nodup := h.nodup
  writes := h.writes
  records x hx := by
    rw [hep]
    exact (h.records x hx).mono hdone
  spent := h.spent
  others k hk := by
    rw [hep]
    exact h.others k hk

theorem tick (h : w.Tended p old) (ht : w.Ticks w') : w'.Tended p old := by
  obtain ⟨hworkers, ⟨stopped, clock, hshared⟩, -⟩ := ht
  have hsame := h.share (s := { w.shared with stopped, clock }) rfl rfl fun i hi => hi
  rw [← hshared] at hsame
  exact ⟨hsame.laid, hworkers ▸ hsame.nodup, hworkers ▸ hsame.writes, hworkers ▸ hsame.records,
    hsame.spent, hworkers ▸ hsame.others⟩

/-- A worker may be replaced by one of the same name, which notes an episode. -/
theorem set (h : w.Tended p old) {i : Nat} {x y : Worker σ} {s : Shared} {e : Option Episode}
    (hx : w.workers[i]? = some x) (hkey : y.key = x.key)
    (hwritten : y.context.written = x.context.written)
    (hep : s.episodes = e.toList.map (x.key, ·) ++ w.shared.episodes)
    (hsize : s.rowSets.size = w.shared.rowSets.size)
    (hdone : ∀ i, w.shared.done i = true → s.done i = true)
    (hr : y.phase.Records (s.done · = true) x.context.written
      (e.toList ++ lifeOf x.key w.shared.episodes)) :
    Tended p old { w with shared := s, workers := w.workers.setIfInBounds i y } := by
  have hmem := Array.mem_of_getElem? hx
  have hkeys := World.keys_set hx hkey
  refine ⟨hsize.trans h.laid, by rw [hkeys]; exact h.nodup, fun z hz => ?_, fun z hz => ?_, h.spent,
    fun k hk => ?_⟩
  · rcases Array.mem_or_eq_of_mem_setIfInBounds hz with hz | rfl
    · exact h.writes z hz
    · rw [hwritten, hkey]
      exact h.writes x hmem
  · obtain ⟨j, hj⟩ := Array.getElem?_of_mem hz
    rw [Array.getElem?_setIfInBounds] at hj
    dsimp only
    split at hj
    · split at hj
      · cases hj
        rw [hwritten, hkey, hep, lifeOf_append_self]
        exact hr
      · cases hj
    · rename_i hij
      have hne : x.key ≠ z.key := fun hk => hij (World.key_inj h.nodup hx hj hk)
      rw [hep, lifeOf_append_of_ne hne]
      exact (h.records z (Array.mem_of_getElem? hj)).mono hdone
  · rw [hkeys] at hk
    have hne : x.key ≠ k := fun he =>
      hk (he ▸ List.mem_map_of_mem (Array.mem_toList_iff.mpr hmem))
    dsimp only
    rw [hep, lifeOf_append_of_ne hne]
    exact h.others k hk

theorem step [Transform σ] (h : w.Tended p old) (i : Nat) : (w.step i).Tended p old := by
  rcases hx : w.workers[i]? with _ | x
  · rwa [World.step_of_none hx]
  · rw [World.step_of_getElem? hx]
    have heffect := x.step_effect w.shared
    have hrecords := (h.records x (Array.mem_of_getElem? hx)).step
    rw [heffect.leads.written] at hrecords
    exact h.set hx heffect.leads.key heffect.leads.written (x.step_episodes w.shared)
      (Shared.size_act heffect.rowSets) (fun _ => x.done_step w.shared) hrecords

end World.Tended

end Rowflow
