import Rowflow.Proofs.Pipeline.Allocation
import Rowflow.Proofs.Pipeline.TopologicalOrder

/-!
# The workers of a pipeline in order

Workers are made by the topological order of their transforms and then by copies. Such a list has every
worker of the pipeline once (`WellFormed.lists`), and it is the list of the declarations only if these
are in topological order (`Lists.declared`).
-/

namespace Rowflow.Pipeline

variable {p : Pipeline}

theorem keys_nodup {order : List String}
    (h : (HopGraph.ofPipeline p).topologicalOrder = some order) :
    (order.flatMap p.copiesOf).Nodup := by
  rw [List.nodup_flatMap]
  refine ⟨fun id _ => nodup_copiesOf id, (order_nodup h).imp ?_⟩
  intro a b hne k ha hb
  exact hne ((mem_copiesOf.mp ha).1.symm.trans (mem_copiesOf.mp hb).1)

/-- All workers, each once, by the topological order of the transforms and then by copies. -/
structure Lists (p : Pipeline) (ks : List WorkerKey) : Prop where
  ordered : ∃ order, (HopGraph.ofPipeline p).topologicalOrder = some order ∧
    ks = order.flatMap p.copiesOf
  perm : ks.Perm p.workers
  nodup : ks.Nodup
  /-- It is the order of declaration only if the declarations are in topological order. -/
  declared : ks = p.workers ↔ (HopGraph.ofPipeline p).topologicalOrder = some p.ids

theorem WellFormed.workers_eq (hp : p.WellFormed) : p.workers = p.ids.flatMap p.copiesOf := by
  unfold workers ids
  rw [List.flatMap_map]
  exact List.flatMap_congr fun t ht => hp.workers_of_mem ht

/-- The workers tell in which order the transforms are. -/
theorem WellFormed.flatMap_copiesOf_inj (hp : p.WellFormed) {as bs : List String}
    (has : as ⊆ p.ids) (hbs : bs ⊆ p.ids) (h : as.flatMap p.copiesOf = bs.flatMap p.copiesOf) :
    as = bs := by
  have hfirst : ∀ {a}, a ∈ p.ids → ∃ rest, p.copiesOf a = ⟨a, 0⟩ :: rest := by
    intro a ha
    obtain ⟨t, ht, rfl⟩ := mem_ids.mp ha
    obtain ⟨n, hn⟩ := Nat.exists_eq_succ_of_ne_zero (Nat.ne_of_gt (hp.copies_pos t ht))
    unfold copiesOf
    rw [hp.copies_eq ht, hn, List.range_succ_eq_map]
    exact ⟨_, rfl⟩
  induction as generalizing bs with
  | nil =>
    rcases bs with _ | ⟨b, bs⟩
    · rfl
    · obtain ⟨rest, hb⟩ := hfirst (hbs List.mem_cons_self)
      rw [List.flatMap_cons, hb] at h
      cases h
  | cons a as ih =>
    obtain ⟨resta, ha⟩ := hfirst (has List.mem_cons_self)
    rcases bs with _ | ⟨b, bs⟩
    · rw [List.flatMap_cons, ha] at h
      cases h
    · obtain ⟨restb, hb⟩ := hfirst (hbs List.mem_cons_self)
      have hab : a = b := by
        rw [List.flatMap_cons, List.flatMap_cons, ha, hb] at h
        exact congrArg WorkerKey.id (List.cons.inj h).1
      subst hab
      rw [List.flatMap_cons, List.flatMap_cons, List.append_cancel_left_eq] at h
      rw [ih (List.subset_of_cons_subset has) (List.subset_of_cons_subset hbs) h]

/-- **The workers in the topological order** of their transforms. -/
theorem WellFormed.lists (hp : p.WellFormed) {order : List String}
    (h : (HopGraph.ofPipeline p).topologicalOrder = some order) :
    p.Lists (order.flatMap p.copiesOf) where
  ordered := ⟨order, h, rfl⟩
  perm := by
    rw [hp.workers_eq]
    exact (hp.forward h).1.flatMap_right p.copiesOf
  nodup := keys_nodup h
  declared := by
    rw [hp.workers_eq, h, Option.some.injEq]
    refine ⟨fun he => ?_, fun he => by rw [he]⟩
    exact hp.flatMap_copiesOf_inj (hp.forward h).1.subset (List.Subset.refl _) he

end Rowflow.Pipeline
