import Mathlib.Algebra.Ring.Nat
import Mathlib.Data.List.Count
import Mathlib.Tactic.Common
import Rowflow.Proofs.Pipeline.Wiring

/-!
# Every stream has one row set

What has been laid out for a valid pipeline is connected exactly as its definition says:
`Topology.Serves` tells how the row set for one purpose is connected to all workers, and
`Topology.Exact` that there is one such row set for every purpose and none besides. Both are shown of
`Topology.build` from what the channels of the pipeline say (`serves_of_channel`).
-/

namespace Rowflow

namespace Topology

/-- What can write to row sets. -/
inductive Writer where
  | worker (k : WorkerKey)
  | producer (id : String)
  deriving DecidableEq, Repr

/-- The writer has been told of the row set at a position. -/
def Writer.Writes (t : Topology) (i : Nat) : Writer → Prop
  | .worker k => i ∈ (t.wiringOf k).outputs.map Prod.snd ∨ (t.wiringOf k).errors = some i
  | .producer id => (id, i) ∈ t.injectors

/-- The row set at a position has been made for a channel: it is connected to whoever the channel
says, once, and to nobody else. -/
structure Serves (p : Pipeline) (t : Topology) (i : Nat) (ch : Channel) : Prop where
  made : t.channels[i]? = some ch
  outputs : ∀ k target,
    (t.wiringOf k).outputs.count (target, i) = if ch = .hop k target then 1 else 0
  errors : ∀ k, (t.wiringOf k).errors = some i ↔ ∃ target, ch = .errors k target
  injectors : ∀ target, t.injectors.count (target, i) = if ch = .injector target then 1 else 0
  inputs : ∀ k, (t.wiringOf k).inputs.count i = if k ∈ p.copiesOf ch.target then 1 else 0

/-- Everything that has been laid out is what the pipeline says. -/
structure Exact (p : Pipeline) (t : Topology) : Prop where
  hops : ∀ h ∈ p.enabledHops, ∀ k ∈ p.copiesOf h.origin, ∃! i, t.Serves p i (.hop k h.target)
  errors : ∀ s ∈ p.transforms, ∀ eh ∈ s.errorHandling, ∀ k ∈ p.copiesOf s.id,
    ∃! i, t.Serves p i (.errors k eh.target)
  injectors : ∀ s ∈ p.transforms, s.inject = true → ∃! i, t.Serves p i (.injector s.id)
  /-- Every row set is one of these. -/
  nothing_else : ∀ i < t.channels.length, ∃ ch, t.Serves p i ch ∧
    ((∃ h ∈ p.enabledHops, ∃ k ∈ p.copiesOf h.origin, ch = .hop k h.target) ∨
      (∃ s ∈ p.transforms, ∃ eh ∈ s.errorHandling, ∃ k ∈ p.copiesOf s.id,
        ch = .errors k eh.target) ∨
      ∃ s ∈ p.transforms, s.inject = true ∧ ch = .injector s.id)
  size : (t.rowSets p.engine.capacity).length =
    (p.enabledHops.map fun h => (p.copiesOf h.origin).length).sum +
    (p.transforms.map fun s => if s.errorHandling.isSome then s.copies else 0).sum +
    p.transforms.countP (·.inject)
  /-- The outputs of a worker stand in the order of the hops. -/
  order : ∀ k ∈ p.workers, (t.wiringOf k).outputs.map Prod.fst =
    (p.enabledHops.filter (·.origin = k.id)).map (·.target)
  /-- A hop and the way of failing rows are kept apart, even if they join the same transforms. -/
  apart : ∀ k target target' i j, t.Serves p i (.hop k target) →
    t.Serves p j (.errors k target') → i ≠ j
  one_writer : ∀ i < t.channels.length, ∃! w : Writer, w.Writes t i
  one_reader : ∀ i < t.channels.length, ∃! id, id ∈ p.ids ∧
    ∀ k, i ∈ (t.wiringOf k).inputs ↔ k ∈ p.copiesOf id
  /-- A copy of a transform diverts into its own row set and counts at the place of its transform. -/
  counted : ∀ s ∈ p.transforms, ∀ eh ∈ s.errorHandling, ∀ k ∈ p.copiesOf s.id,
    ∃ i, t.Serves p i (.errors k eh.target) ∧
      (Context.new s k.copy (t.wiringOf k) (p.slot s.id)).errors =
        some ⟨i, p.slot s.id, { transform := s.id, handling := eh }⟩
  /-- Every transform has a place of its own. -/
  places : ∀ s ∈ p.transforms, p.slot s.id < p.transforms.length ∧
    ∀ s' ∈ p.transforms, p.slot s.id = p.slot s'.id ↔ s = s'

variable {p : Pipeline} {k : WorkerKey}

/-! ### Told of one position -/

theorem build_wiringOf_workers (hp : p.WellFormed) (hk : k ∈ p.workers) :
    (build p).wiringOf k = p.wiring k :=
  build_wiringOf (hp.mem_copiesOf_iff.mpr hk)

theorem serves_of_channel (hp : p.WellFormed) {i : Nat} {ch : Channel}
    (h : p.channels[i]? = some ch) : (build p).Serves p i ch := by
  have hmem := List.mem_of_getElem? h
  -- whoever writes to the row set is a worker
  have hwriter : ∀ {k}, ch.writer? = some k → k ∈ p.workers := fun hw =>
    hp.mem_copiesOf_iff.mp (hp.edge_of_writer hmem hw).2
  have hhop : ∀ {k target}, p.channels[i]? = some (.hop k target) ↔ ch = .hop k target := by
    intro k target
    rw [h, Option.some.injEq]
  refine ⟨?_, fun k target => ?_, fun k => ?_, fun target => ?_, fun k => ?_⟩
  · rw [build_channels, h]
  · by_cases hk : k ∈ p.workers
    · rw [build_wiringOf_workers hp hk, (List.Nodup.of_map _ Pipeline.nodup_outputs).count]
      simp only [Pipeline.mem_outputs, hhop]
    · rw [build_wiringOf_of_notMem hk, List.count_nil, if_neg]
      rintro rfl
      exact hk (hwriter rfl)
  · by_cases hk : k ∈ p.workers
    · obtain ⟨s, hs⟩ := Pipeline.transform?_of_copiesOf (hp.mem_copiesOf_iff.mpr hk)
      rw [build_wiringOf_workers hp hk, hp.wiring_errors hs]
      simp only [h, Option.some.injEq]
    · rw [build_wiringOf_of_notMem hk]
      refine ⟨fun he => (by cases he), ?_⟩
      rintro ⟨target, rfl⟩
      exact absurd (hwriter rfl) hk
  · rw [build_injectors, hp.injectors_eq, (List.Nodup.of_map _ Pipeline.nodup_injected).count]
    simp only [Pipeline.mem_injected, h, Option.some.injEq]
  · by_cases hk : k ∈ p.workers
    · rw [build_wiringOf_workers hp hk, Pipeline.nodup_inputs.count]
      simp only [Pipeline.mem_inputs, h, Option.some.injEq, exists_eq_left',
        Pipeline.mem_copiesOf_self (hp.mem_copiesOf_iff.mpr hk), @eq_comm _ k.id]
    · rw [build_wiringOf_of_notMem hk, List.count_nil, if_neg]
      exact fun hm => hk (Pipeline.mem_workers_of_copiesOf hm)

theorem existsUnique_serves (hp : p.WellFormed) {ch : Channel} (h : ch ∈ p.channels) :
    ∃! i, (build p).Serves p i ch := by
  obtain ⟨i, hi⟩ := List.getElem?_of_mem h
  refine ⟨i, serves_of_channel hp hi, fun j hj => ?_⟩
  have hj' := hj.made
  rw [build_channels] at hj'
  exact hp.channel_inj hj' hi

/-! ### One writer, one transform that reads -/

/-- Who writes to the row set that is made for a channel. -/
def writerOf : Channel → Writer
  | .hop origin _ => .worker origin
  | .errors origin _ => .worker origin
  | .injector id => .producer id

theorem Serves.writes_iff {t : Topology} {i : Nat} {ch : Channel} (h : t.Serves p i ch)
    (w : Writer) : w.Writes t i ↔ w = writerOf ch := by
  have hcount : ∀ P : Prop, [Decidable P] → (0 < (if P then 1 else 0 : Nat) ↔ P) := by
    intro P _
    by_cases hP : P <;> simp [hP]
  rcases w with k | id
  · have hout : i ∈ (t.wiringOf k).outputs.map Prod.snd ↔ ∃ target, ch = .hop k target := by
      rw [List.mem_map]
      constructor
      · rintro ⟨⟨target, j⟩, hm, rfl⟩
        have hpos := List.count_pos_iff.mpr hm
        rw [h.outputs, hcount] at hpos
        exact ⟨target, hpos⟩
      · rintro ⟨target, rfl⟩
        refine ⟨(target, i), List.count_pos_iff.mp ?_, rfl⟩
        rw [h.outputs, if_pos rfl]
        exact Nat.zero_lt_one
    show i ∈ (t.wiringOf k).outputs.map Prod.snd ∨ (t.wiringOf k).errors = some i ↔ _
    rw [hout, h.errors]
    rcases ch with ⟨origin, target⟩ | ⟨origin, target⟩ | target <;>
      simp [writerOf, @eq_comm _ k]
  · show (id, i) ∈ t.injectors ↔ _
    rw [← List.count_pos_iff, h.injectors, hcount]
    rcases ch with ⟨origin, target⟩ | ⟨origin, target⟩ | target <;>
      simp [writerOf, @eq_comm _ id]

theorem writerOf_eq_worker {ch : Channel} : writerOf ch = .worker k ↔ ch.writer? = some k := by
  cases ch <;> simp [writerOf, Channel.writer?]

theorem mem_workers_of_writes {i : Nat} (h : (Writer.worker k).Writes (build p) i) :
    k ∈ p.workers := by
  by_contra hk
  have hw : i ∈ ((build p).wiringOf k).outputs.map Prod.snd ∨
      ((build p).wiringOf k).errors = some i := h
  rw [build_wiringOf_of_notMem hk] at hw
  rcases hw with hw | hw <;> cases hw

/-- Whatever can be written to has been made for a channel of the writer. -/
theorem exists_channel_of_writes (hp : p.WellFormed) {w : Writer} {i : Nat}
    (h : w.Writes (build p) i) : ∃ ch, p.channels[i]? = some ch ∧ w = writerOf ch := by
  have hchannel : ∃ ch, p.channels[i]? = some ch := by
    rcases w with k | id
    · have hk := mem_workers_of_writes h
      have hw : i ∈ ((build p).wiringOf k).outputs.map Prod.snd ∨
          ((build p).wiringOf k).errors = some i := h
      rw [build_wiringOf_workers hp hk] at hw
      rcases hw with hw | hw
      · obtain ⟨⟨target, j⟩, hm, rfl⟩ := List.mem_map.mp hw
        exact ⟨_, Pipeline.mem_outputs.mp hm⟩
      · obtain ⟨s, hs⟩ := Pipeline.transform?_of_copiesOf (hp.mem_copiesOf_iff.mpr hk)
        obtain ⟨target, hch⟩ := (hp.wiring_errors hs).mp hw
        exact ⟨_, hch⟩
    · have hw : (id, i) ∈ (build p).injectors := h
      rw [build_injectors] at hw
      exact ⟨_, hp.mem_injectors.mp hw⟩
  obtain ⟨ch, hch⟩ := hchannel
  exact ⟨ch, hch, ((serves_of_channel hp hch).writes_iff w).mp h⟩

theorem Serves.mem_inputs {t : Topology} {i : Nat} {ch : Channel} (h : t.Serves p i ch) :
    i ∈ (t.wiringOf k).inputs ↔ k ∈ p.copiesOf ch.target := by
  rw [← List.count_pos_iff, h.inputs]
  split <;> simp [*]

theorem existsUnique_reader (hp : p.WellFormed) {i : Nat} {ch : Channel}
    (h : p.channels[i]? = some ch) :
    ∃! id, id ∈ p.ids ∧ ∀ k, i ∈ ((build p).wiringOf k).inputs ↔ k ∈ p.copiesOf id := by
  have hserves := serves_of_channel hp h
  refine ⟨ch.target, ⟨hp.target_mem (List.mem_of_getElem? h), fun k => hserves.mem_inputs⟩, ?_⟩
  rintro id ⟨hid, hreads⟩
  have hfirst := hp.first_copy hid
  rw [← hreads, hserves.mem_inputs] at hfirst
  exact (Pipeline.mem_copiesOf.mp hfirst).1

/-! ### How many, and in which order -/

theorem length_channels :
    p.channels.length = (p.enabledHops.map fun h => (p.copiesOf h.origin).length).sum +
      (p.transforms.map fun s => if s.errorHandling.isSome then s.copies else 0).sum +
      p.transforms.countP (·.inject) := by
  unfold Pipeline.channels
  rw [List.length_append, List.length_append, List.length_flatMap, List.length_flatMap,
    List.length_map, List.countP_eq_length_filter]
  congr 2
  · simp only [List.length_map]
  · refine congrArg List.sum (List.map_congr_left fun s hs => ?_)
    rcases he : s.errorHandling with _ | eh
    · rfl
    · simp [TransformSpec.workers]

/-- Where an output leads, if it is one of the worker. -/
def labelFor (k : WorkerKey) : Channel → Option String
  | .hop origin target => if origin = k then some target else none
  | _ => none

theorem map_fst_outputs_eq_filterMap :
    (p.wiring k).outputs.map Prod.fst = p.channels.filterMap (labelFor k) := by
  have hchannels : p.places.map Prod.fst = p.channels := List.zipIdx_map_fst ..
  rw [← hchannels, List.filterMap_map]
  unfold Pipeline.wiring
  rw [List.map_filterMap]
  refine List.filterMap_congr fun x _ => ?_
  obtain ⟨⟨origin, target⟩ | _ | _, i⟩ := x
  · dsimp only [labelFor, Function.comp_apply]
    split <;> rfl
  · rfl
  · rfl

/-- A hop gives every copy of its origin one output, and other workers none. -/
theorem filterMap_labelFor_hop (hk : k ∈ p.copiesOf k.id) (h : Hop) :
    ((p.copiesOf h.origin).map (Channel.hop · h.target)).filterMap (labelFor k) =
      if h.origin = k.id then [h.target] else [] := by
  have hone : ∀ ks : List WorkerKey, ks.Nodup →
      (ks.map (Channel.hop · h.target)).filterMap (labelFor k) =
        if k ∈ ks then [h.target] else [] := by
    intro ks hks
    induction ks with
    | nil => rfl
    | cons k' rest ih =>
      obtain ⟨hnot, hrest⟩ := List.nodup_cons.mp hks
      rw [List.map_cons, List.filterMap_cons, ih hrest, labelFor]
      by_cases hkk : k' = k
      · subst hkk
        simp [hnot]
      · simp [hkk, Ne.symm hkk]
  rw [hone _ (Pipeline.nodup_copiesOf _)]
  simp only [Pipeline.mem_copiesOf_self hk, @eq_comm _ k.id]

theorem map_fst_outputs (hk : k ∈ p.copiesOf k.id) : (p.wiring k).outputs.map Prod.fst =
    (p.enabledHops.filter (·.origin = k.id)).map (·.target) := by
  have hhops : ∀ hops : List Hop,
      (hops.flatMap fun h => (p.copiesOf h.origin).map (Channel.hop · h.target)).filterMap
        (labelFor k) = (hops.filter (·.origin = k.id)).map (·.target) := by
    intro hops
    induction hops with
    | nil => rfl
    | cons h rest ih =>
      rw [List.flatMap_cons, List.filterMap_append, ih, filterMap_labelFor_hop hk]
      by_cases ho : h.origin = k.id <;> simp [ho]
  rw [map_fst_outputs_eq_filterMap, Pipeline.channels, List.filterMap_append,
    List.filterMap_append, hhops, List.append_assoc]
  refine (congrArg (_ ++ ·) ?_).trans (List.append_nil _)
  rw [List.append_eq_nil_iff, List.filterMap_eq_nil_iff, List.filterMap_eq_nil_iff]
  constructor
  · intro ch hch
    obtain ⟨s, -, hch⟩ := List.mem_flatMap.mp hch
    rcases he : s.errorHandling with _ | eh <;> rw [he] at hch
    · cases hch
    · obtain ⟨k', -, rfl⟩ := List.mem_map.mp hch
      rfl
  · intro ch hch
    obtain ⟨s, -, rfl⟩ := List.mem_map.mp hch
    rfl

/-! ### All together -/

/-- **Every stream of a valid pipeline has one row set**, connected to whoever writes and reads the
stream and to nobody else; there are no other row sets. -/
theorem build_exact (h : p.validationErrors = []) : Exact p (build p) := by
  have hp := Pipeline.wellFormed_of_validationErrors h
  have hat : ∀ i < (build p).channels.length, ∃ ch, p.channels[i]? = some ch := by
    intro i hi
    rw [build_channels] at hi
    exact ⟨_, List.getElem?_eq_getElem hi⟩
  constructor
  case hops =>
    intro hop hhop k hk
    exact existsUnique_serves hp (Pipeline.mem_channels.mpr (Or.inl ⟨hop, hhop, k, hk, rfl⟩))
  case errors =>
    intro s hs eh heh k hk
    rw [← hp.workers_of_mem hs] at hk
    exact existsUnique_serves hp
      (Pipeline.mem_channels.mpr (Or.inr (Or.inl ⟨s, hs, eh, heh, k, hk, rfl⟩)))
  case injectors =>
    intro s hs hinject
    exact existsUnique_serves hp
      (Pipeline.mem_channels.mpr (Or.inr (Or.inr ⟨s, hs, hinject, rfl⟩)))
  case nothing_else =>
    intro i hi
    obtain ⟨ch, hch⟩ := hat i hi
    refine ⟨ch, serves_of_channel hp hch, ?_⟩
    rcases Pipeline.mem_channels.mp (List.mem_of_getElem? hch) with h | ⟨s, hs, eh, heh, k, hk, hc⟩ | h
    · exact Or.inl h
    · rw [hp.workers_of_mem hs] at hk
      exact Or.inr (Or.inl ⟨s, hs, eh, heh, k, hk, hc⟩)
    · exact Or.inr (Or.inr h)
  case size => rw [rowSets, List.length_map, build_channels, length_channels]
  case order =>
    intro k hk
    rw [build_wiringOf_workers hp hk, map_fst_outputs (hp.mem_copiesOf_iff.mpr hk)]
  case apart =>
    rintro k target target' i _ hi hj rfl
    cases hi.made.symm.trans hj.made
  case one_writer =>
    intro i hi
    obtain ⟨ch, hch⟩ := hat i hi
    have hserves := serves_of_channel hp hch
    exact ⟨writerOf ch, (hserves.writes_iff _).mpr rfl, fun w hw => (hserves.writes_iff w).mp hw⟩
  case one_reader =>
    intro i hi
    obtain ⟨ch, hch⟩ := hat i hi
    exact existsUnique_reader hp hch
  case counted =>
    intro s hs eh heh k hk
    rw [← hp.workers_of_mem hs] at hk
    obtain ⟨i, hserves, -⟩ := existsUnique_serves hp
      (Pipeline.mem_channels.mpr (Or.inr (Or.inl ⟨s, hs, eh, heh, k, hk, rfl⟩)))
    refine ⟨i, hserves, ?_⟩
    unfold Context.new
    dsimp only
    rw [Option.mem_def.mp heh, (hserves.errors k).mpr ⟨_, rfl⟩]
    rfl
  case places =>
    intro s hs
    have hmem : s.id ∈ p.ids := Pipeline.mem_ids.mpr ⟨s, hs, rfl⟩
    have hlt := List.idxOf_lt_length_of_mem hmem
    rw [Pipeline.ids, List.length_map] at hlt
    refine ⟨hlt, fun s' hs' => ?_⟩
    constructor
    · exact fun he => hp.transform_eq hs hs' ((List.idxOf_inj hmem).mp he)
    · rintro rfl
      rfl

/-- A pipeline with several copies, a transform that reads its rows and its failing rows alike, and
rows from outside. -/
def branching : Pipeline where
  transforms := [
    { id := "read", type := "dummy", copies := 2, inject := true,
      errorHandling := some { target := "check" } },
    { id := "check", type := "dummy", copies := 3 },
    { id := "write", type := "dummy" }]
  hops := [⟨"read", "check", true⟩, ⟨"read", "write", true⟩, ⟨"check", "write", false⟩]

theorem branching_exact :
    branching.validationErrors = [] ∧ Exact branching (build branching) :=
  ⟨by decide +kernel, build_exact (by decide +kernel)⟩

end Topology

end Rowflow
