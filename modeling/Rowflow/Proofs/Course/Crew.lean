import Rowflow.Proofs.Course.Launch

/-!
# The workers of a course

The workers that run are the workers of the pipeline, each once (`Course.Crew`), from the start on
and as long as they run. What happens to one worker leaves the others alone: after a step a worker
is either the one that took it or one that was there before, under another name
(`Course.Stepped.cases`).
-/

namespace Rowflow.Course

variable {σ : Type}

/-- The workers are those of the pipeline, each once. -/
structure Crew (p : Pipeline) (c : Course σ) : Prop where
  ordered : ∃ order, (HopGraph.ofPipeline p).topologicalOrder = some order
  nodup : (c.workers.toList.map Worker.key).Nodup
  mem_iff : ∀ k, k ∈ c.workers.toList.map Worker.key ↔ k ∈ p.copiesOf k.id

variable {p : Pipeline} {c c' : Course σ}

theorem Launched.crew (hp : p.WellFormed) (h : c.Launched p) : c.Crew p := by
  obtain ⟨order, hord, hkeys⟩ := h.keys
  obtain ⟨hperm, -⟩ := hp.forward hord
  refine ⟨⟨order, hord⟩, ?_, fun k => ?_⟩
  · rw [hkeys]
    exact Pipeline.keys_nodup hord
  · rw [hkeys, List.mem_flatMap]
    constructor
    · rintro ⟨id, -, hk⟩
      have := (Pipeline.mem_copiesOf.mp hk).1
      rwa [this]
    · intro hk
      obtain ⟨t, ht⟩ := Pipeline.transform?_of_copiesOf hk
      refine ⟨k.id, hperm.mem_iff.mpr ?_, hk⟩
      exact Pipeline.mem_ids.mpr ⟨t, Pipeline.transform?_mem ht⟩

namespace Crew

variable (h : c.Crew p)
include h

theorem exists_worker {k : WorkerKey} (hk : k ∈ p.copiesOf k.id) :
    ∃ x ∈ c.workers, x.key = k := by
  obtain ⟨x, hx, he⟩ := List.mem_map.mp ((h.mem_iff k).mpr hk)
  exact ⟨x, Array.mem_toList_iff.mp hx, he⟩

end Crew

theorem Crew.of_keys (h : c.Crew p)
    (hk : c'.workers.toList.map Worker.key = c.workers.toList.map Worker.key) : c'.Crew p :=
  ⟨h.ordered, by rw [hk]; exact h.nodup, fun k => by rw [hk]; exact h.mem_iff k⟩

theorem Outside.crew {d : Option Deed} (h : c.Outside c' d) (hc : c.Crew p) : c'.Crew p :=
  hc.of_keys (by rw [h.workers])

section Stepped

variable [Transform σ] {i : Nat} {x : Worker σ} (h : c.Stepped c' i x)
include h

theorem Stepped.mem : x ∈ c.workers := Array.mem_of_getElem? h.worker

theorem Stepped.effect :
    Context.Effect c.shared c'.shared x.context (x.step c.shared).2.context (x.deed? c.shared) := by
  rw [h.shared]
  exact x.step_effect c.shared

theorem Stepped.keys : c'.workers.toList.map Worker.key = c.workers.toList.map Worker.key := by
  rw [h.workers]
  exact World.keys_set h.worker h.effect.leads.key

theorem Stepped.crew (hc : c.Crew p) : c'.Crew p := hc.of_keys h.keys

/-- After a step a worker is the one that took it, or was there before under another name. -/
theorem Stepped.cases (hc : c.Crew p) {y : Worker σ} (hy : y ∈ c'.workers) :
    y = (x.step c.shared).2 ∨ (y ∈ c.workers ∧ x.key ≠ y.key) := by
  obtain ⟨j, hj⟩ := Array.getElem?_of_mem hy
  rw [h.workers, Array.getElem?_setIfInBounds] at hj
  split at hj
  · split at hj
    · exact Or.inl (Option.some.inj hj).symm
    · cases hj
  · rename_i hij
    exact Or.inr ⟨Array.mem_of_getElem? hj, fun hk => hij (World.key_inj hc.nodup h.worker hj hk)⟩

end Stepped

end Rowflow.Course
