import Mathlib.Data.List.Induction
import Mathlib.Data.List.Nodup
import Mathlib.Data.List.Perm.Subperm
import Mathlib.Tactic.Common
import Rowflow.Engine.Context
import Rowflow.Proofs.Pipeline.Allocation

/-!
# Who reads and writes which row set

In a well-formed pipeline every row set has one purpose (`channels_nodup`), is read by the copies of
the transform it leads to (`mem_inputs`) and written by one worker at most, which the list of
channels names (`Channel.writer?`, `written_context`). Every channel that a worker writes to goes
along an edge of the pipeline (`WellFormed.edge_of_writer`).
-/

namespace Rowflow

/-- The worker that writes to the row set, unless its rows come from outside. -/
def Channel.writer? : Channel → Option WorkerKey
  | .hop origin _ => some origin
  | .errors origin _ => some origin
  | .injector _ => none

namespace Pipeline

variable {p : Pipeline} {k : WorkerKey}

/-! ### Workers -/

theorem WellFormed.first_copy (hp : p.WellFormed) {id : String} (hid : id ∈ p.ids) :
    (⟨id, 0⟩ : WorkerKey) ∈ p.copiesOf id := by
  obtain ⟨t, ht, rfl⟩ := mem_ids.mp hid
  exact mem_copiesOf.mpr ⟨rfl, (hp.copies_eq ht).symm ▸ hp.copies_pos t ht⟩

theorem WellFormed.mem_copiesOf_iff (hp : p.WellFormed) : k ∈ p.copiesOf k.id ↔ k ∈ p.workers := by
  refine ⟨mem_workers_of_copiesOf, fun h => ?_⟩
  obtain ⟨t, ht, hid, hlt⟩ := mem_workers.mp h
  exact mem_copiesOf.mpr ⟨rfl, hid ▸ (hp.copies_eq ht).symm ▸ hlt⟩

/-- The context of a worker that has done nothing yet. -/
def context? (p : Pipeline) (k : WorkerKey) : Option Context :=
  (p.transform? k.id).map fun spec => .new spec k.copy (p.wiring k) (p.slot k.id)

/-! ### Channels -/

theorem mem_channels {ch : Channel} :
    ch ∈ p.channels ↔
      (∃ h ∈ p.enabledHops, ∃ k ∈ p.copiesOf h.origin, ch = .hop k h.target) ∨
      (∃ t ∈ p.transforms, ∃ h ∈ t.errorHandling, ∃ k ∈ t.workers, ch = .errors k h.target) ∨
      ∃ t ∈ p.transforms, t.inject = true ∧ ch = .injector t.id := by
  unfold channels
  rw [List.mem_append, List.mem_append, List.mem_flatMap, List.mem_flatMap, or_assoc]
  refine or_congr ?_ (or_congr ?_ ?_)
  · simp only [List.mem_map, @eq_comm _ ch]
  · refine exists_congr fun t => and_congr_right fun _ => ?_
    rcases t.errorHandling with _ | h
    · simp
    · simp only [List.mem_map, Option.mem_def, Option.some.injEq, exists_eq_left', @eq_comm _ ch]
  · simp only [List.mem_map, List.mem_filter, and_assoc, @eq_comm _ ch]

theorem WellFormed.edge_of_writer (hp : p.WellFormed) {ch : Channel} (h : ch ∈ p.channels)
    (hk : ch.writer? = some k) : (k.id, ch.target) ∈ p.edges ∧ k ∈ p.copiesOf k.id := by
  rcases mem_channels.mp h with ⟨hop, hh, k', hk', rfl⟩ | ⟨t, ht, eh, heh, k', hk', rfl⟩ |
    ⟨t, ht, -, rfl⟩
  · cases hk
    obtain ⟨hid, -⟩ := mem_copiesOf.mp hk'
    rw [hid]
    exact ⟨List.mem_append_left _ (List.mem_map.mpr ⟨hop, hh, rfl⟩), hk'⟩
  · cases hk
    rw [hp.workers_of_mem ht] at hk'
    obtain ⟨hid, -⟩ := mem_copiesOf.mp hk'
    rw [hid]
    refine ⟨List.mem_append_right _ (List.mem_filterMap.mpr ⟨t, ht, ?_⟩), hk'⟩
    rw [Option.mem_def.mp heh]
    rfl
  · cases hk

theorem WellFormed.target_mem (hp : p.WellFormed) {ch : Channel} (h : ch ∈ p.channels) :
    ch.target ∈ p.ids := by
  rcases mem_channels.mp h with ⟨hop, hh, k', -, rfl⟩ | ⟨t, ht, eh, heh, k', -, rfl⟩ |
    ⟨t, ht, -, rfl⟩
  · exact (hp.hop_ends hop (List.mem_of_mem_filter hh)).2
  · exact (hp.targets t ht eh heh).1
  · exact mem_ids.mpr ⟨t, ht, rfl⟩

/-- **Every row set has a purpose of its own.** -/
theorem WellFormed.channels_nodup (hp : p.WellFormed) : p.channels.Nodup := by
  have hhops : (p.enabledHops.flatMap fun h =>
      (p.copiesOf h.origin).map (Channel.hop · h.target)).Nodup := by
    rw [List.nodup_flatMap]
    refine ⟨fun h _ => (nodup_copiesOf _).map fun a b hab => ?_, ?_⟩
    · exact (Channel.hop.inj hab).1
    · refine (List.pairwise_map.mp hp.hops_nodup).imp ?_
      intro h h' hne ch hm hm'
      obtain ⟨k, hk, rfl⟩ := List.mem_map.mp hm
      obtain ⟨k', hk', he⟩ := List.mem_map.mp hm'
      obtain ⟨rfl, ht⟩ := Channel.hop.inj he
      refine hne ?_
      rw [← (mem_copiesOf.mp hk).1, ← (mem_copiesOf.mp hk').1, ht]
  have hinject : ((p.transforms.filter (·.inject)).map fun t => Channel.injector t.id).Nodup := by
    have := (hp.ids_nodup.sublist (List.filter_sublist.map _ :
      ((p.transforms.filter (·.inject)).map (·.id)).Sublist p.ids)).map
        (f := Channel.injector) fun a b hab => Channel.injector.inj hab
    rwa [List.map_map] at this
  unfold channels
  rw [List.nodup_append, List.nodup_append]
  refine ⟨⟨hhops, ?_, ?_⟩, hinject, ?_⟩
  · rw [List.nodup_flatMap]
    constructor
    · intro t ht
      rw [hp.workers_of_mem ht]
      split
      · exact (nodup_copiesOf _).map fun a b hab => (Channel.errors.inj hab).1
      · exact List.nodup_nil
    · refine (List.pairwise_map.mp hp.ids_nodup).imp ?_
      intro t t' hne ch hm hm'
      dsimp only at hm hm'
      rcases ht : t.errorHandling with _ | h <;> rw [ht] at hm
      · cases hm
      · rcases ht' : t'.errorHandling with _ | h' <;> rw [ht'] at hm'
        · cases hm'
        · obtain ⟨k, hk, rfl⟩ := List.mem_map.mp hm
          obtain ⟨k', hk', he⟩ := List.mem_map.mp hm'
          obtain ⟨rfl, -⟩ := Channel.errors.inj he
          exact hne ((mem_workers_of.mp hk).1.trans (mem_workers_of.mp hk').1.symm)
  · rintro ch hm _ hm' rfl
    obtain ⟨h, -, hm⟩ := List.mem_flatMap.mp hm
    obtain ⟨k, -, rfl⟩ := List.mem_map.mp hm
    obtain ⟨t, -, hm'⟩ := List.mem_flatMap.mp hm'
    rcases ht : t.errorHandling with _ | h' <;> simp [ht] at hm'
  · rintro ch hm _ hm' rfl
    obtain ⟨t, -, rfl⟩ := List.mem_map.mp hm'
    rcases List.mem_append.mp hm with hm | hm
    · obtain ⟨h, -, hm⟩ := List.mem_flatMap.mp hm
      simp at hm
    · obtain ⟨t, -, hm⟩ := List.mem_flatMap.mp hm
      rcases ht : t.errorHandling with _ | h' <;> simp [ht] at hm

/-- A purpose has one place. -/
theorem WellFormed.channel_inj (hp : p.WellFormed) {i j : Nat} {ch : Channel}
    (hi : p.channels[i]? = some ch) (hj : p.channels[j]? = some ch) : i = j := by
  obtain ⟨hlt, -⟩ := List.getElem?_eq_some_iff.mp hi
  exact (List.getElem?_inj hlt hp.channels_nodup).mp (hi.trans hj.symm)

/-! ### Wiring -/

theorem mem_inputs {i : Nat} :
    i ∈ (p.wiring k).inputs ↔ ∃ ch, p.channels[i]? = some ch ∧ ch.target = k.id := by
  unfold wiring places
  rw [List.mem_filterMap]
  constructor
  · rintro ⟨⟨ch, j⟩, hm, h⟩
    dsimp only at h
    split at h
    case isTrue ht =>
      cases h
      exact ⟨ch, List.mem_zipIdx_iff_getElem?.mp hm, ht⟩
    case isFalse => cases h
  · rintro ⟨ch, hc, ht⟩
    exact ⟨(ch, i), List.mem_zipIdx_iff_getElem?.mpr hc, if_pos ht⟩

theorem mem_outputs {t : String} {i : Nat} :
    (t, i) ∈ (p.wiring k).outputs ↔ p.channels[i]? = some (.hop k t) := by
  unfold wiring places
  rw [List.mem_filterMap]
  constructor
  · rintro ⟨⟨_ | _ | _, j⟩, hm, h⟩
    · dsimp only at h
      split at h
      case isTrue ht =>
        cases h
        rw [← ht]
        exact List.mem_zipIdx_iff_getElem?.mp hm
      case isFalse => cases h
    · cases h
    · cases h
  · intro hc
    exact ⟨(.hop k t, i), List.mem_zipIdx_iff_getElem?.mpr hc, if_pos rfl⟩

theorem nodup_filterMap_places {β : Type} {f : Channel × Nat → Option β} {g : β → Nat}
    (h : ∀ x b, f x = some b → g b = x.2) : ((p.places.filterMap f).map g).Nodup := by
  have hplaces : (p.places.map Prod.snd).Nodup := by
    unfold places
    rw [List.zipIdx_map_snd]
    exact List.nodup_range'
  unfold List.Nodup at hplaces ⊢
  rw [List.pairwise_map] at hplaces
  rw [List.pairwise_map, List.pairwise_filterMap]
  refine hplaces.imp fun hne b hb b' hb' => ?_
  rwa [h _ b hb, h _ b' hb']

theorem nodup_inputs : (p.wiring k).inputs.Nodup := by
  have := nodup_filterMap_places (p := p) (g := id)
    (f := fun x => if x.1.target = k.id then some x.2 else none) fun x b hb => by
      split at hb <;> cases hb
      rfl
  rwa [List.map_id] at this

theorem nodup_outputs : ((p.wiring k).outputs.map Prod.snd).Nodup := by
  refine nodup_filterMap_places fun x b hb => ?_
  obtain ⟨_ | _ | _, i⟩ := x
  · dsimp only at hb
    split at hb <;> cases hb
    rfl
  · cases hb
  · cases hb

theorem mem_injected {t : String} {i : Nat} :
    (t, i) ∈ p.places.filterMap Channel.injected? ↔ p.channels[i]? = some (.injector t) := by
  unfold places
  rw [List.mem_filterMap]
  constructor
  · rintro ⟨⟨_ | _ | t', j⟩, hm, h⟩
    · cases h
    · cases h
    · cases h
      exact List.mem_zipIdx_iff_getElem?.mp hm
  · intro h
    exact ⟨(.injector t, i), List.mem_zipIdx_iff_getElem?.mpr h, rfl⟩

theorem nodup_injected : ((p.places.filterMap Channel.injected?).map Prod.snd).Nodup := by
  refine nodup_filterMap_places fun x b hb => ?_
  obtain ⟨_ | _ | _, i⟩ := x
  · cases hb
  · cases hb
  · cases hb
    rfl

/-- Where names do not repeat, all entries are the last of their names. -/
theorem foldl_last {l : List (String × Nat)} (h : (l.map Prod.fst).Nodup) :
    l.foldl (fun found x => found.filter (·.1 ≠ x.1) ++ [x]) [] = l := by
  induction l using List.reverseRecOn with
  | nil => rfl
  | append_singleton l x ih =>
    rw [List.map_append, List.nodup_append] at h
    rw [List.foldl_concat, ih h.1, List.filter_eq_self.mpr fun y hy => ?_]
    rw [decide_eq_true_iff]
    exact h.2.2 _ (List.mem_map_of_mem hy) _ (List.mem_singleton.mpr rfl)

theorem WellFormed.injectors_eq (hp : p.WellFormed) :
    p.injectors = p.places.filterMap Channel.injected? := by
  refine foldl_last (List.Nodup.map_on ?_ (List.Nodup.of_map Prod.snd nodup_injected))
  rintro ⟨t, i⟩ hi ⟨_, j⟩ hj rfl
  rw [hp.channel_inj (mem_injected.mp hi) (mem_injected.mp hj)]

theorem WellFormed.mem_injectors (hp : p.WellFormed) {t : String} {i : Nat} :
    (t, i) ∈ p.injectors ↔ p.channels[i]? = some (.injector t) := by
  rw [hp.injectors_eq, mem_injected]

theorem WellFormed.lookup_injectors (hp : p.WellFormed) (id : String) :
    p.injectors.lookup id = p.injector? id := by
  rw [hp.injectors_eq, Topology.lookup_injected]

theorem WellFormed.outputs_length_le (hp : p.WellFormed) :
    (p.wiring k).outputs.length ≤ (p.enabledHops.filter (·.origin = k.id)).length := by
  have hnodup : ((p.wiring k).outputs.map Prod.fst).Nodup := by
    refine List.Nodup.map_on ?_ (List.Nodup.of_map _ (nodup_outputs (p := p) (k := k)))
    rintro ⟨t, i⟩ hi ⟨_, j⟩ hj rfl
    rw [hp.channel_inj (mem_outputs.mp hi) (mem_outputs.mp hj)]
  have hsub : (p.wiring k).outputs.map Prod.fst ⊆
      (p.enabledHops.filter (·.origin = k.id)).map (·.target) := by
    intro t ht
    obtain ⟨⟨_, i⟩, hm, rfl⟩ := List.mem_map.mp ht
    rcases mem_channels.mp (List.mem_of_getElem? (mem_outputs.mp hm)) with
      ⟨h, hh, k', hk', he⟩ | ⟨s, -, eh, -, k', -, he⟩ | ⟨s, -, -, he⟩ <;> cases he
    refine List.mem_map.mpr ⟨h, List.mem_filter.mpr ⟨hh, ?_⟩, rfl⟩
    rw [decide_eq_true_eq, (mem_copiesOf.mp hk').1]
  simpa using (List.subperm_of_subset hnodup hsub).length_le

theorem WellFormed.errors_target (hp : p.WellFormed) {t : TransformSpec}
    (ht : p.transform? k.id = some t) {target : String} (h : .errors k target ∈ p.channels) :
    ∃ eh, t.errorHandling = some eh ∧ target = eh.target := by
  rcases mem_channels.mp h with ⟨hop, hh, k', -, he⟩ | ⟨t', ht', eh, heh, k', hk', he⟩ |
    ⟨t', -, -, he⟩
  · cases he
  · cases he
    have : t = t' := by
      have := hp.transform?_eq_some ht'
      rw [(mem_workers_of.mp hk').1, ht] at this
      exact Option.some.inj this
    subst this
    exact ⟨eh, heh, rfl⟩
  · cases he

theorem WellFormed.wiring_errors (hp : p.WellFormed) {t : TransformSpec}
    (ht : p.transform? k.id = some t) {i : Nat} :
    (p.wiring k).errors = some i ↔ ∃ target, p.channels[i]? = some (.errors k target) := by
  obtain ⟨l, hl, hmem⟩ : ∃ l : List Nat, (p.wiring k).errors = l.getLast? ∧
      ∀ j, j ∈ l ↔ ∃ target, p.channels[j]? = some (.errors k target) := by
    refine ⟨_, rfl, fun j => ?_⟩
    unfold places
    rw [List.mem_filterMap]
    constructor
    · rintro ⟨⟨_ | ⟨origin, target⟩ | _, j'⟩, hm, h⟩
      · cases h
      · dsimp only at h
        split at h
        case isTrue ho =>
          cases h
          rw [← ho]
          exact ⟨target, List.mem_zipIdx_iff_getElem?.mp hm⟩
        case isFalse => cases h
      · cases h
    · rintro ⟨target, hc⟩
      exact ⟨(.errors k target, j), List.mem_zipIdx_iff_getElem?.mpr hc, if_pos rfl⟩
  rw [hl]
  constructor
  · intro h
    exact (hmem i).mp (List.mem_of_getLast? h)
  · rintro ⟨target, hc⟩
    have hne := List.ne_nil_of_mem ((hmem i).mpr ⟨target, hc⟩)
    refine (List.getLast?_eq_some_getLast hne).trans ?_
    rw [Option.some.injEq]
    obtain ⟨target', hc'⟩ := (hmem _).mp (List.getLast_mem hne)
    obtain ⟨eh, he, rfl⟩ := hp.errors_target ht (List.mem_of_getElem? hc)
    obtain ⟨eh', he', rfl⟩ := hp.errors_target ht (List.mem_of_getElem? hc')
    cases he.symm.trans he'
    exact hp.channel_inj hc' hc

theorem WellFormed.context_errors (hp : p.WellFormed) {c : Context} (hc : p.context? k = some c)
    (hk : k ∈ p.copiesOf k.id) :
    (c.errors = none ∧ c.spec.errorHandling = none) ∨
    ∃ i eh, c.errors = some ⟨i, p.slot k.id, { transform := k.id, handling := eh }⟩ ∧
      c.spec.errorHandling = some eh ∧ p.channels[i]? = some (.errors k eh.target) := by
  unfold context? at hc
  rw [Option.map_eq_some_iff] at hc
  obtain ⟨t, ht, rfl⟩ := hc
  obtain ⟨hmem, hid⟩ := transform?_mem ht
  unfold Context.new
  rcases he : t.errorHandling with _ | eh
  · exact Or.inl ⟨rfl, rfl⟩
  · right
    have hch : Channel.errors k eh.target ∈ p.channels :=
      mem_channels.mpr (Or.inr (Or.inl ⟨t, hmem, eh, he, k, by rwa [hp.workers_of_mem hmem, hid], rfl⟩))
    obtain ⟨i, hi⟩ := List.getElem?_of_mem hch
    refine ⟨i, eh, ?_, rfl, hi⟩
    rw [(hp.wiring_errors ht).mpr ⟨eh.target, hi⟩, ← hid]
    rfl

/-- **What a worker writes to** is what the channels say. -/
theorem WellFormed.written_context (hp : p.WellFormed) {c : Context} (hc : p.context? k = some c)
    (hk : k ∈ p.copiesOf k.id) {i : Nat} :
    i ∈ c.written ↔ ∃ ch, p.channels[i]? = some ch ∧ ch.writer? = some k := by
  have houtputs : c.outputs = (p.wiring k).outputs := by
    unfold context? at hc
    rw [Option.map_eq_some_iff] at hc
    obtain ⟨t, -, rfl⟩ := hc
    rfl
  have hspec : p.transform? k.id = some c.spec := by
    unfold context? at hc
    rw [Option.map_eq_some_iff] at hc
    obtain ⟨t, ht, rfl⟩ := hc
    exact ht
  have herrors : i ∈ (c.errors.map (·.rowSet)).toList ↔
      ∃ target, p.channels[i]? = some (.errors k target) := by
    rcases hp.context_errors hc hk with ⟨h1, h2⟩ | ⟨j, eh, h1, h2, h3⟩
    · rw [h1]
      refine ⟨fun h => (by cases h), ?_⟩
      rintro ⟨target, ht⟩
      obtain ⟨eh, he, -⟩ := hp.errors_target hspec (List.mem_of_getElem? ht)
      rw [h2] at he
      cases he
    · rw [h1]
      simp only [Option.map_some, Option.toList_some, List.mem_singleton]
      constructor
      · rintro rfl
        exact ⟨_, h3⟩
      · rintro ⟨target, ht⟩
        obtain ⟨eh', he', rfl⟩ := hp.errors_target hspec (List.mem_of_getElem? ht)
        cases h2.symm.trans he'
        exact hp.channel_inj ht h3
  unfold Context.written
  rw [List.mem_append, herrors, houtputs]
  constructor
  · rintro (h | ⟨target, h⟩)
    · obtain ⟨⟨t, j⟩, hm, rfl⟩ := List.mem_map.mp h
      exact ⟨_, mem_outputs.mp hm, rfl⟩
    · exact ⟨_, h, rfl⟩
  · rintro ⟨_ | _ | _, hch, hw⟩
    · cases hw
      exact Or.inl (List.mem_map.mpr ⟨_, mem_outputs.mpr hch, rfl⟩)
    · cases hw
      exact Or.inr ⟨_, hch⟩
    · cases hw

end Pipeline

end Rowflow
