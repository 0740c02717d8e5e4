import Mathlib.Data.List.Nodup
import Mathlib.Tactic.Common
import Rowflow.Engine.Topology
import Rowflow.Proofs.Pipeline.WellFormed

/-!
# What the row sets of a run are

`Topology.build` makes one row set after the other and tells workers of them as it goes. Here is the
same without a state: the list of all row sets (`Pipeline.channels`) and what a worker reads and
writes as a selection from this list (`Pipeline.wiring`). `Topology.Laid` says what has been laid
out once the row sets of a list have been made; every further one keeps it (`Laid.make`), and what
is left to be told to workers in the end is read off it (`build_wiringOf`).
-/

namespace Rowflow

/-- The transform into which rows are injected through a row set, with the position of the row set. -/
def Channel.injected? : Channel × Nat → Option (String × Nat)
  | (.injector target, i) => some (target, i)
  | _ => none

namespace Pipeline

/-- The row sets of a run, in order. -/
def channels (p : Pipeline) : List Channel :=
  p.enabledHops.flatMap (fun h => (p.copiesOf h.origin).map (.hop · h.target)) ++
    p.transforms.flatMap (fun t =>
      match t.errorHandling with
      | some h => t.workers.map (.errors · h.target)
      | none => []) ++
    (p.transforms.filter (·.inject)).map fun t => .injector t.id

/-- The positions of the row sets of a run. -/
def places (p : Pipeline) : List (Channel × Nat) := p.channels.zipIdx

/-- What a worker reads and writes. -/
def wiring (p : Pipeline) (k : WorkerKey) : Wiring where
  inputs := p.places.filterMap fun (c, i) => if c.target = k.id then some i else none
  outputs := p.places.filterMap fun
    | (.hop origin target, i) => if origin = k then some (target, i) else none
    | _ => none
  errors := (p.places.filterMap fun
    | (.errors origin _, i) => if origin = k then some i else none
    | _ => none).getLast?

/-- The position of the row set into which rows for a transform are injected. -/
def injector? (p : Pipeline) (id : String) : Option Nat := p.channels.idxOf? (.injector id)

/-- The positions of all row sets into which rows are injected, the last one for each name. -/
def injectors (p : Pipeline) : List (String × Nat) :=
  (p.places.filterMap Channel.injected?).foldl
    (fun found x => found.filter (·.1 ≠ x.1) ++ [x]) []

/-- The row sets of a run before it starts. -/
def rowSets (p : Pipeline) : List RowSet := p.channels.map (Channel.rowSet p.engine.capacity)

variable {p : Pipeline} {k : WorkerKey}

/-! ### Workers -/

theorem mem_copiesOf {id : String} : k ∈ p.copiesOf id ↔ k.id = id ∧ k.copy < p.copies id := by
  obtain ⟨kid, copy⟩ := k
  unfold copiesOf
  rw [List.mem_map]
  constructor
  · rintro ⟨n, hn, h⟩
    cases h
    exact ⟨rfl, List.mem_range.mp hn⟩
  · rintro ⟨rfl, hn⟩
    exact ⟨copy, List.mem_range.mpr hn, rfl⟩

theorem nodup_copiesOf (id : String) : (p.copiesOf id).Nodup :=
  List.nodup_range.map fun _ _ h => congrArg WorkerKey.copy h

theorem exists_copies {id : String} {n : Nat} (h : n < p.copies id) :
    ∃ t ∈ p.transforms, t.id = id ∧ t.copies = p.copies id := by
  unfold copies at h ⊢
  rcases hf : p.transforms.reverse.find? (·.id = id) with _ | t <;> rw [hf] at h ⊢
  · exact absurd h (Nat.not_lt_zero n)
  · exact ⟨t, List.mem_reverse.mp (List.mem_of_find?_eq_some hf), by simpa using List.find?_some hf, rfl⟩

theorem transform?_of_copiesOf {id : String} (hk : k ∈ p.copiesOf id) :
    ∃ t, p.transform? id = some t := by
  obtain ⟨t, ht, hid, -⟩ := exists_copies (mem_copiesOf.mp hk).2
  unfold transform?
  exact Option.isSome_iff_exists.mp (List.find?_isSome.mpr ⟨t, ht, by simpa using hid⟩)

theorem WellFormed.copies_eq (hp : p.WellFormed) {t : TransformSpec} (ht : t ∈ p.transforms) :
    p.copies t.id = t.copies := by
  unfold copies
  rcases hf : p.transforms.reverse.find? (·.id = t.id) with _ | t'
  · have := List.find?_eq_none.mp hf t (List.mem_reverse.mpr ht)
    simp at this
  · have ht' := List.mem_reverse.mp (List.mem_of_find?_eq_some hf)
    rw [hf, hp.transform_eq ht' ht (by simpa using List.find?_some hf)]
    rfl

/-- In a well-formed pipeline a transform has its own number of copies. -/
theorem WellFormed.workers_of_mem (hp : p.WellFormed) {t : TransformSpec} (ht : t ∈ p.transforms) :
    t.workers = p.copiesOf t.id := by
  unfold TransformSpec.workers copiesOf
  rw [hp.copies_eq ht]

theorem WellFormed.copy_lt (hp : p.WellFormed) {id : String} (hk : k ∈ p.copiesOf id)
    {t : TransformSpec} (ht : p.transform? id = some t) : k.copy < t.copies := by
  obtain ⟨hmem, rfl⟩ := transform?_mem ht
  rw [← hp.copies_eq hmem]
  exact (mem_copiesOf.mp hk).2

theorem copiesOf_of_mem_order {order : List String} :
    ∀ k ∈ order.flatMap p.copiesOf, k ∈ p.copiesOf k.id := by
  intro k hk
  obtain ⟨id, -, hk⟩ := List.mem_flatMap.mp hk
  rwa [(mem_copiesOf.mp hk).1]

theorem mem_copiesOf_self {id : String} (hk : k ∈ p.copiesOf k.id) :
    k ∈ p.copiesOf id ↔ k.id = id := by
  constructor
  · exact fun h => (mem_copiesOf.mp h).1
  · rintro rfl
    exact hk

theorem mem_workers_of {t : TransformSpec} : k ∈ t.workers ↔ t.id = k.id ∧ k.copy < t.copies := by
  obtain ⟨kid, copy⟩ := k
  unfold TransformSpec.workers
  rw [List.mem_map]
  constructor
  · rintro ⟨n, hn, h⟩
    cases h
    exact ⟨rfl, List.mem_range.mp hn⟩
  · rintro ⟨rfl, hn⟩
    exact ⟨copy, List.mem_range.mpr hn, rfl⟩

theorem mem_workers : k ∈ p.workers ↔ ∃ t ∈ p.transforms, t.id = k.id ∧ k.copy < t.copies := by
  unfold workers
  rw [List.mem_flatMap]
  exact exists_congr fun t => and_congr_right fun _ => mem_workers_of

theorem mem_workers_of_copiesOf {id : String} (hk : k ∈ p.copiesOf id) : k ∈ p.workers := by
  obtain ⟨rfl, hlt⟩ := mem_copiesOf.mp hk
  obtain ⟨t, ht, hid, hcopies⟩ := exists_copies hlt
  exact mem_workers.mpr ⟨t, ht, hid, hcopies ▸ hlt⟩

end Pipeline

namespace Topology

variable {p : Pipeline} {t : Topology} {k k' : WorkerKey} {f : Wiring → Wiring}

/-! ### Changing one wiring -/

/-- The workers that have a wiring. -/
def crew (t : Topology) : List WorkerKey := t.wiring.map Prod.fst

theorem crew_rewire : (t.rewire k f).crew = t.crew := by
  unfold crew rewire
  rw [List.map_map]
  rfl

theorem wiringOf_rewire (hk : k' ∈ t.crew) :
    (t.rewire k f).wiringOf k' = if k' = k then f (t.wiringOf k') else t.wiringOf k' := by
  unfold crew at hk
  unfold wiringOf rewire
  dsimp only
  generalize t.wiring = entries at hk ⊢
  induction entries with
  | nil => cases hk
  | cons entry rest ih =>
    obtain ⟨key, w⟩ := entry
    rw [List.map_cons]
    dsimp only at hk ⊢
    by_cases hkey : k' = key
    · subst hkey
      rw [List.lookup_cons_self, List.lookup_cons_self]
      simp only [Option.getD_some]
    · have hne : (k' == key) = false := beq_eq_false_iff_ne.mpr hkey
      rw [List.lookup_cons, List.lookup_cons, hne]
      exact ih (List.mem_of_ne_of_mem hkey (by simpa using hk))

theorem wiringOf_connect (i : Nat) {ks : List WorkerKey} (hks : ks.Nodup) (hk : k ∈ t.crew) :
    (ks.foldl (connect i) t).wiringOf k =
      { t.wiringOf k with inputs := (t.wiringOf k).inputs ++ if k ∈ ks then [i] else [] } := by
  induction ks generalizing t with
  | nil => simp
  | cons k' rest ih =>
    obtain ⟨hnot, hrest⟩ := List.nodup_cons.mp hks
    rw [List.foldl_cons, ih hrest (by rwa [connect, crew_rewire]), connect, wiringOf_rewire hk]
    by_cases hkk : k = k'
    · subst hkk
      simp [hnot]
    · simp [hkk]

theorem crew_connect (i : Nat) (ks : List WorkerKey) : (ks.foldl (connect i) t).crew = t.crew := by
  induction ks generalizing t with
  | nil => rfl
  | cons k rest ih => rw [List.foldl_cons, ih, connect, crew_rewire]

theorem connect_rest (i : Nat) (ks : List WorkerKey) :
    (ks.foldl (connect i) t) = { t with wiring := (ks.foldl (connect i) t).wiring } := by
  induction ks generalizing t with
  | nil => rfl
  | cons k rest ih => exact ih

/-! ### Making row sets -/

/-- What there is once the row sets of a list have been made. -/
structure Laid (p : Pipeline) (chs : List Channel) (t : Topology) : Prop where
  channels : t.channels = chs
  crew : t.crew = p.workers
  inputs : ∀ k ∈ p.copiesOf k.id, t.wiringOf k =
    { inputs := chs.zipIdx.filterMap fun (c, i) => if c.target = k.id then some i else none }
  outputs : t.outputs = chs.zipIdx.filterMap fun
    | (.hop origin target, i) => some (origin, target, i)
    | _ => none
  errors : t.errors = chs.zipIdx.filterMap fun
    | (.errors origin _, i) => some (origin, i)
    | _ => none
  injectors : t.injectors = (chs.zipIdx.filterMap Channel.injected?).foldl
    (fun found x => found.filter (·.1 ≠ x.1) ++ [x]) []

theorem laid_bare : Laid p [] (bare p) where
  channels := rfl
  crew := by
    unfold Topology.crew bare
    rw [List.map_map]
    exact List.map_id _
  inputs k _ := by
    unfold wiringOf bare
    dsimp only
    induction p.workers with
    | nil => rfl
    | cons k' rest ih =>
      rw [List.map_cons, List.lookup_cons]
      split
      · rfl
      · exact ih
  outputs := rfl
  errors := rfl
  injectors := rfl

theorem Laid.make {chs : List Channel} (h : Laid p chs t) (ch : Channel) :
    Laid p (chs ++ [ch]) (t.make p ch) := by
  have hconnect := connect_rest (t := { t with channels := t.channels ++ [ch] })
    t.channels.length (p.copiesOf ch.target)
  have hcrew := crew_connect (t := { t with channels := t.channels ++ [ch] })
    t.channels.length (p.copiesOf ch.target)
  have hinputs : ∀ k ∈ p.copiesOf k.id, ((p.copiesOf ch.target).foldl (connect t.channels.length)
      { t with channels := t.channels ++ [ch] }).wiringOf k =
        { inputs := (chs ++ [ch]).zipIdx.filterMap fun (c, i) =>
            if c.target = k.id then some i else none } := by
    intro k hk
    have hw : k ∈ ({ t with channels := t.channels ++ [ch] } : Topology).crew := by
      have := Pipeline.mem_workers_of_copiesOf hk
      rwa [← h.crew] at this
    have hbefore : ({ t with channels := t.channels ++ [ch] } : Topology).wiringOf k =
        t.wiringOf k := rfl
    rw [wiringOf_connect _ (Pipeline.nodup_copiesOf _) hw, hbefore, h.inputs k hk, h.channels]
    simp only [Pipeline.mem_copiesOf_self hk, List.zipIdx_append, List.filterMap_append,
      Nat.zero_add, List.zipIdx_singleton, List.filterMap_cons, List.filterMap_nil,
      @eq_comm _ k.id]
    split <;> rfl
  unfold Topology.make
  dsimp only
  generalize (p.copiesOf ch.target).foldl (connect t.channels.length)
    { t with channels := t.channels ++ [ch] } = t' at hconnect hcrew hinputs ⊢
  obtain ⟨channels, wiring, outputs, errors, injectors⟩ := t'
  obtain ⟨rfl, -, rfl, rfl, rfl⟩ := Topology.mk.inj hconnect
  -- each kind of row set adds to the list of its kind
  rcases ch with ⟨origin, target⟩ | ⟨origin, target⟩ | target
  all_goals
    refine ⟨congrArg (· ++ [_]) h.channels, hcrew.trans h.crew, hinputs, ?_, ?_, ?_⟩
    · simp [h.channels, h.outputs, List.zipIdx_append]
    · simp [h.channels, h.errors, List.zipIdx_append]
    · rw [List.zipIdx_append, List.filterMap_append, List.foldl_append, ← h.injectors, Nat.zero_add,
        ← h.channels]
      rfl

theorem Laid.foldl {chs : List Channel} (h : Laid p chs t) (more : List Channel) :
    Laid p (chs ++ more) (more.foldl (Topology.make p) t) := by
  induction more generalizing chs t with
  | nil => rwa [List.append_nil]
  | cons ch rest ih =>
    have := ih (h.make ch)
    rwa [List.append_assoc, List.singleton_append] at this

/-- The three loops make the row sets of the run in order. -/
theorem laid_loops : Laid p p.channels ((p.transforms.filter (·.inject)).foldl (makeInjector p)
    (p.transforms.foldl (makeErrors p) (p.enabledHops.foldl (makeHop p) (bare p)))) := by
  have hhops : ∀ t : Topology, p.enabledHops.foldl (makeHop p) t = (p.enabledHops.flatMap fun h =>
      (p.copiesOf h.origin).map (Channel.hop · h.target)).foldl (make p) t := by
    intro t
    simp only [List.foldl_flatMap, List.foldl_map]
    rfl
  have herrors : ∀ t : Topology, p.transforms.foldl (makeErrors p) t =
      (p.transforms.flatMap fun s =>
        match s.errorHandling with
        | some h => s.workers.map (Channel.errors · h.target)
        | none => []).foldl (make p) t := by
    intro t
    rw [List.foldl_flatMap]
    congr 1
    funext t s
    unfold makeErrors
    rcases s.errorHandling with _ | h
    · rfl
    · exact List.foldl_map.symm
  have hinjectors : ∀ t : Topology, (p.transforms.filter (·.inject)).foldl (makeInjector p) t =
      ((p.transforms.filter (·.inject)).map fun s => Channel.injector s.id).foldl (make p) t := by
    intro t
    rw [List.foldl_map]
    rfl
  rw [hhops, herrors, hinjectors]
  exact ((laid_bare.foldl _).foldl _).foldl _

/-! ### Telling the workers -/

theorem wiringOf_giveOutput (outputs : List (WorkerKey × String × Nat)) (hk : k ∈ t.crew) :
    (outputs.foldl giveOutput t).wiringOf k =
      { t.wiringOf k with
        outputs := (t.wiringOf k).outputs ++
          outputs.filterMap fun (k', output) => if k' = k then some output else none } := by
  induction outputs generalizing t with
  | nil => simp
  | cons x rest ih =>
    obtain ⟨k', output⟩ := x
    rw [List.foldl_cons, ih (by rwa [giveOutput, crew_rewire]), giveOutput, wiringOf_rewire hk,
      List.filterMap_cons]
    by_cases hkk : k = k'
    · subst hkk
      simp
    · simp [hkk, Ne.symm hkk]

theorem wiringOf_giveErrors (errors : List (WorkerKey × Nat)) (hk : k ∈ t.crew) :
    (errors.foldl giveErrors t).wiringOf k =
      { t.wiringOf k with
        errors := ((errors.filterMap fun (k', i) => if k' = k then some i else none).getLast?).or
          (t.wiringOf k).errors } := by
  induction errors generalizing t with
  | nil => simp
  | cons x rest ih =>
    obtain ⟨k', i⟩ := x
    rw [List.foldl_cons, ih (by rwa [giveErrors, crew_rewire]), giveErrors, wiringOf_rewire hk,
      List.filterMap_cons]
    by_cases hkk : k = k'
    · subst hkk
      simp [List.getLast?_cons]
    · simp [hkk, Ne.symm hkk]

theorem giveOutput_rest (outputs : List (WorkerKey × String × Nat)) :
    (outputs.foldl giveOutput t) = { t with wiring := (outputs.foldl giveOutput t).wiring } ∧
      (outputs.foldl giveOutput t).crew = t.crew := by
  induction outputs generalizing t with
  | nil => exact ⟨rfl, rfl⟩
  | cons x rest ih =>
    obtain ⟨h1, h2⟩ := ih (t := t.giveOutput x)
    exact ⟨h1, h2.trans crew_rewire⟩

theorem giveErrors_rest (errors : List (WorkerKey × Nat)) :
    (errors.foldl giveErrors t) = { t with wiring := (errors.foldl giveErrors t).wiring } ∧
      (errors.foldl giveErrors t).crew = t.crew := by
  induction errors generalizing t with
  | nil => exact ⟨rfl, rfl⟩
  | cons x rest ih =>
    obtain ⟨h1, h2⟩ := ih (t := t.giveErrors x)
    exact ⟨h1, h2.trans crew_rewire⟩

/-! ### What has been laid out in the end -/

theorem build_rest : (build p).channels = p.channels ∧ (build p).injectors = p.injectors ∧
    (build p).crew = p.workers := by
  obtain ⟨hchannels, hcrew, -, -, -, hinjectors⟩ := laid_loops (p := p)
  unfold build
  dsimp only
  generalize (p.transforms.filter (·.inject)).foldl (makeInjector p) _ = t at *
  obtain ⟨h1, h2⟩ := giveOutput_rest (t := t) t.outputs
  obtain ⟨h3, h4⟩ := giveErrors_rest (t := t.outputs.foldl giveOutput t)
    (t.outputs.foldl giveOutput t).errors
  refine ⟨?_, ?_, h4.trans (h2.trans hcrew)⟩
  · rw [h3, h1]
    exact hchannels
  · rw [h3, h1]
    exact hinjectors

/-- **The row sets that are made** are the channels of the pipeline. -/
theorem build_channels : (build p).channels = p.channels := build_rest.1

theorem build_injectors : (build p).injectors = p.injectors := build_rest.2.1

/-- Nobody but the workers has a wiring. -/
theorem build_wiringOf_of_notMem (hk : k ∉ p.workers) : (build p).wiringOf k = {} := by
  have hcrew := (build_rest (p := p)).2.2
  unfold crew at hcrew
  rw [← hcrew] at hk
  unfold wiringOf
  rw [List.lookup_eq_none_iff.mpr fun x hx => ?_]
  · rfl
  · rw [bne_iff_ne]
    rintro rfl
    exact hk (List.mem_map_of_mem hx)

theorem build_rowSets : (build p).rowSets p.engine.capacity = p.rowSets := by
  unfold rowSets Pipeline.rowSets
  rw [build_channels]

/-- **What the workers are told** is what the channels say about them. -/
theorem build_wiringOf (hk : k ∈ p.copiesOf k.id) : (build p).wiringOf k = p.wiring k := by
  obtain ⟨-, hcrew, hinputs, houtputs, herrors, -⟩ := laid_loops (p := p)
  unfold build
  dsimp only
  generalize (p.transforms.filter (·.inject)).foldl (makeInjector p) _ = t at *
  have hmem : k ∈ t.crew := by
    rw [hcrew]
    exact Pipeline.mem_workers_of_copiesOf hk
  have htold := giveOutput_rest (t := t) t.outputs
  rw [wiringOf_giveErrors _ (by rwa [htold.2]), wiringOf_giveOutput _ hmem, hinputs k hk,
    htold.1]
  dsimp only
  rw [houtputs, herrors, List.filterMap_filterMap, List.filterMap_filterMap, Option.or_none,
    List.nil_append]
  unfold Pipeline.wiring Pipeline.places
  congr 2
  · funext ⟨ch, i⟩
    rcases ch with _ | _ | _ <;> rfl
  · congr 1
    funext ⟨ch, i⟩
    rcases ch with _ | _ | _ <;> rfl

theorem lookup_injected (id : String) :
    (p.places.filterMap Channel.injected?).lookup id = p.injector? id := by
  have hfrom : ∀ (chs : List Channel) (n : Nat),
      ((chs.zipIdx n).filterMap Channel.injected?).lookup id =
        (chs.idxOf? (.injector id)).map (· + n) := by
    intro chs
    induction chs with
    | nil => exact fun _ => rfl
    | cons ch rest ih =>
      intro n
      have hshift : (rest.idxOf? (Channel.injector id)).map (· + (n + 1)) =
          ((rest.idxOf? (Channel.injector id)).map (· + 1)).map (· + n) := by
        rw [Option.map_map]
        refine congrArg (Option.map · _) (funext fun i => ?_)
        exact (Nat.add_assoc i n 1).symm.trans (Nat.add_right_comm i n 1)
      rw [List.zipIdx_cons, List.filterMap_cons, List.idxOf?_cons]
      rcases ch with _ | _ | target
      case injector =>
        dsimp only [Channel.injected?]
        by_cases ht : target = id
        · subst ht
          simp
        · have hne : (id == target) = false := beq_eq_false_iff_ne.mpr (Ne.symm ht)
          have hne' : (Channel.injector target == Channel.injector id) = false :=
            beq_eq_false_iff_ne.mpr fun h => ht (Channel.injector.inj h)
          simp only [List.lookup_cons, hne, hne', ih, hshift]
          rfl
      all_goals exact (ih (n + 1)).trans hshift
  unfold Pipeline.injector? Pipeline.places
  simpa using hfrom p.channels 0

end Topology

end Rowflow
