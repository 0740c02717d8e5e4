import Mathlib.Data.List.Chain
import Rowflow.Proofs.Pipeline.Acyclicity

/-!
# The cycle that is reported

The path of a search leads to the nodes that are searched, and has no node twice. So an edge back to
one of its nodes closes the part of the path from that node on to a cycle, and the nodes before it,
which only lead into the cycle, are left out (`closeCycle_spec`).

* `Searches.closed`: what a search reports is a cycle.
* `Pipeline.cyclicHop_genuine`: a cycle is reported if everything else is in order and there is one.
-/

namespace Rowflow

namespace HopGraph

variable {g : HopGraph}

/-- A way along the edges that comes back to where it began, and passes no node twice. -/
structure IsCycle (g : HopGraph) (cycle : List String) : Prop where
  length : 2 ≤ cycle.length
  closed : cycle.head? = cycle.getLast?
  edges : cycle.IsChain g.Leads
  nodup : cycle.dropLast.Nodup

/-- A path, given from its end, has every node once, and each of its nodes is led to by the one
behind it in the list. -/
structure IsPath (g : HopGraph) (path : List String) : Prop where
  nodup : path.Nodup
  edges : path.IsChain fun b a => g.Leads a b

theorem IsPath.cons {path : List String} {b : String} (h : g.IsPath path) (hb : b ∉ path)
    (hlast : ∀ a ∈ path.head?, g.Leads a b) : g.IsPath (b :: path) :=
  ⟨List.nodup_cons.mpr ⟨hb, h.nodup⟩, h.edges.cons hlast⟩

theorem exists_takeWhile_append {path : List String} {b : String} (hb : b ∈ path) :
    ∃ rest, path = path.takeWhile (· ≠ b) ++ [b] ++ rest := by
  obtain ⟨before, rest, hpath, hbefore⟩ := List.eq_append_cons_of_mem hb
  refine ⟨rest, ?_⟩
  have hall : ∀ a ∈ before, decide (a ≠ b) = true := fun a ha => by
    rw [decide_eq_true_eq]
    exact fun he => hbefore (he ▸ ha)
  rw [hpath, List.takeWhile_append_of_pos hall, List.takeWhile_cons_of_neg (by simp)]
  simp

/-- **An edge back to a path** closes a cycle. -/
theorem closeCycle_spec {path : List String} {b : String} (h : g.IsPath path) (hb : b ∈ path)
    (hlast : ∀ a ∈ path.head?, g.Leads a b) : g.IsCycle (closeCycle path b) := by
  obtain ⟨rest, hpath⟩ := exists_takeWhile_append hb
  -- the edge back comes first when the way is gone from its end
  have hway := h.edges.cons hlast
  have hnodup := h.nodup
  unfold closeCycle
  generalize path.takeWhile (· ≠ b) = steps at hpath ⊢
  rw [hpath] at hnodup hway
  rw [← List.cons_append] at hway
  replace hway := hway.left_of_append
  replace hnodup := hnodup.of_append_left
  refine ⟨by simp, ?_, ?_, ?_⟩
  · rw [List.getLast?_concat, List.reverse_concat, List.cons_append, List.head?_cons]
  · rw [← List.reverse_cons, List.isChain_reverse]
    exact hway
  · rw [List.dropLast_concat]
    exact List.nodup_reverse.mpr hnodup

/-- **What a search reports** is a cycle: nodes are searched to which the end of the path leads, and
whatever is on the path has been visited. -/
theorem Searches.closed {path visited bs cycle : List String} {r : Except (List String) (List String)}
    (h : g.Searches path visited bs r) (hr : r = .error cycle) (hpath : g.IsPath path)
    (hvisited : path ⊆ visited) (hlast : ∀ a ∈ path.head?, ∀ b ∈ bs, g.Leads a b) :
    g.IsCycle cycle := by
  induction h generalizing cycle with
  | exhausted => cases hr
  | visits fresh behind _ _ ih =>
    refine ih hr hpath ?_ fun a ha c hc => hlast a ha c (List.mem_cons_of_mem _ hc)
    exact List.Subset.trans hvisited
      (List.Subset.trans (List.subset_cons_self _ _) (behind.subset rfl))
  | fails fresh _ ih =>
    have hlonger := hpath.cons (fun hm => fresh (hvisited hm)) fun a ha =>
      hlast a ha _ List.mem_cons_self
    refine ih hr hlonger (List.cons_subset_cons _ hvisited) ?_
    rintro a ⟨⟩ b hb
    exact mem_successors.mp hb
  | returns _ back =>
    cases hr
    exact closeCycle_spec hpath back fun a ha => hlast a ha _ List.mem_cons_self
  | passes _ _ _ ih =>
    exact ih hr hpath hvisited fun a ha c hc => hlast a ha c (List.mem_cons_of_mem _ hc)

theorem isCycle_of_cycle? (hg : ∀ e ∈ g.edges, e.2 ∈ g.nodes) {cycle : List String}
    (h : g.cycle? = some cycle) : g.IsCycle cycle := by
  have hsearch := (cycle?_eq_some_iff hg cycle).mp h
  exact hsearch.closed rfl ⟨List.nodup_nil, .nil⟩ (List.nil_subset _) fun a ha => by cases ha

end HopGraph

/-! ### Errors of validation -/

namespace Pipeline

/-- A way along enabled hops and edges of failing rows that comes back to where it began, and passes
no transform twice. -/
structure IsCycle (p : Pipeline) (cycle : List String) : Prop where
  length : 2 ≤ cycle.length
  closed : cycle.head? = cycle.getLast?
  edges : cycle.IsChain fun a b => (a, b) ∈ p.edges
  nodup : cycle.dropLast.Nodup

theorem cyclicHop_notMem_duplicateIds (seen ids cycle : List String) :
    .cyclicHop cycle ∉ duplicateIds seen ids := by
  induction ids generalizing seen with
  | nil => exact List.not_mem_nil
  | cons a rest ih =>
    unfold duplicateIds
    split
    · exact List.not_mem_cons_of_ne_of_not_mem (by simp) (ih seen)
    · exact ih (a :: seen)

theorem cyclicHop_notMem_hopListErrors (ids : List String) (seen : List (String × String))
    (hops : List Hop) (cycle : List String) : .cyclicHop cycle ∉ hopListErrors ids seen hops := by
  induction hops generalizing seen with
  | nil => exact List.not_mem_nil
  | cons h rest ih =>
    unfold hopListErrors hopErrors
    rw [List.mem_append, not_or]
    refine ⟨?_, ih _⟩
    split <;> simp

/-- The checks that do not concern cycles report none. -/
theorem cyclicHop_notMem_structuralErrors (p : Pipeline) (cycle : List String) :
    .cyclicHop cycle ∉ p.structuralErrors := by
  have htargets : .cyclicHop cycle ∉ p.transforms.filterMap (targetError? p.ids) := by
    rw [List.mem_filterMap]
    rintro ⟨t, -, h⟩
    obtain ⟨handling, -, he⟩ := Option.bind_eq_some_iff.mp h
    split at he
    · cases he
    · split at he <;> cases he
  unfold structuralErrors
  simp only [List.mem_append, not_or]
  exact ⟨⟨⟨cyclicHop_notMem_duplicateIds _ _ _, by simp [missingCopies]⟩,
    cyclicHop_notMem_hopListErrors _ _ _ _⟩, htargets⟩

/-- A cycle is reported in pipelines that are well-formed, and as the only error. -/
theorem cyclicHop_mem_validationErrors {p : Pipeline} {cycle : List String} :
    .cyclicHop cycle ∈ p.validationErrors ↔
      p.WellFormed ∧ (HopGraph.ofPipeline p).cycle? = some cycle := by
  unfold validationErrors
  rcases hs : p.structuralErrors with _ | ⟨e, rest⟩
  · have hp := (structuralErrors_eq_nil_iff p).mp hs
    rcases hc : (HopGraph.ofPipeline p).cycle? with _ | cycle' <;> simp [hp, eq_comm]
  · have hp : ¬ p.WellFormed := fun hp => by
      rw [(structuralErrors_eq_nil_iff p).mpr hp] at hs
      cases hs
    have hnone := p.cyclicHop_notMem_structuralErrors cycle
    rw [hs] at hnone
    simp only [hnone, hp, false_and]

theorem validationErrors_of_cycle? {p : Pipeline} {cycle : List String} (hp : p.WellFormed)
    (hc : (HopGraph.ofPipeline p).cycle? = some cycle) : p.validationErrors = [.cyclicHop cycle] := by
  unfold validationErrors
  rw [(structuralErrors_eq_nil_iff p).mpr hp, hc]

theorem validate_eq_error_iff {p : Pipeline} {errors : List ValidationError} :
    p.validate = .error errors ↔ errors ≠ [] ∧ p.validationErrors = errors := by
  unfold validate
  rcases p.validationErrors with _ | ⟨e, rest⟩
  · simp [eq_comm]
  · simp only [Except.error.injEq]
    exact ⟨fun h => ⟨h ▸ List.cons_ne_nil _ _, h⟩, fun h => h.2⟩

theorem WellFormed.isCycle {p : Pipeline} (hp : p.WellFormed) {cycle : List String}
    (h : (HopGraph.ofPipeline p).IsCycle cycle) : p.IsCycle cycle := by
  obtain ⟨hlength, hclosed, hedges, hnodup⟩ := h
  unfold HopGraph.Leads at hedges
  rw [hp.graph_edges] at hedges
  exact ⟨hlength, hclosed, hedges, hnodup⟩

/-- **A cycle is reported** exactly if the pipeline is well-formed and has one. It is then all that is
reported, and it is a cycle of the pipeline: its neighbours are joined by enabled hops or edges of
failing rows, and it has no transform twice but the one at which it begins and ends. -/
theorem cyclicHop_genuine (p : Pipeline) :
    ((∃ errors, p.validate = .error errors ∧ ∃ cycle, .cyclicHop cycle ∈ errors) ↔
      p.WellFormed ∧ ¬ p.Acyclic) ∧
    ∀ errors cycle, p.validate = .error errors → .cyclicHop cycle ∈ errors →
      errors = [.cyclicHop cycle] ∧ p.IsCycle cycle := by
  have hends := fun e he => (p.graph_ends e he).2
  refine ⟨⟨?_, ?_⟩, ?_⟩
  · rintro ⟨errors, he, cycle, hc⟩
    obtain ⟨-, rfl⟩ := validate_eq_error_iff.mp he
    obtain ⟨hp, hcycle⟩ := cyclicHop_mem_validationErrors.mp hc
    refine ⟨hp, fun hacyclic => ?_⟩
    have hnone := (HopGraph.cycle?_eq_none_iff hends fun e he => (p.graph_ends e he).1).mpr
      (hp.graph_acyclic.mpr hacyclic)
    rw [hcycle] at hnone
    cases hnone
  · rintro ⟨hp, hcyclic⟩
    rcases hc : (HopGraph.ofPipeline p).cycle? with _ | cycle
    · have hacyclic := (HopGraph.cycle?_eq_none_iff hends fun e he => (p.graph_ends e he).1).mp hc
      exact absurd (hp.graph_acyclic.mp hacyclic) hcyclic
    · have herrors := validationErrors_of_cycle? hp hc
      exact ⟨_, validate_eq_error_iff.mpr ⟨List.cons_ne_nil _ _, herrors⟩, cycle,
        List.mem_singleton_self _⟩
  · intro errors cycle he hc
    obtain ⟨-, rfl⟩ := validate_eq_error_iff.mp he
    obtain ⟨hp, hcycle⟩ := cyclicHop_mem_validationErrors.mp hc
    exact ⟨validationErrors_of_cycle? hp hcycle,
      hp.isCycle (HopGraph.isCycle_of_cycle? hends hcycle)⟩

/-! ### A cycle behind its entrance -/

namespace Entrance

/-- The first transform leads into a cycle of the other two, one of whose edges is for failing
rows. -/
def pipeline : Pipeline where
  transforms := [{ id := "in", type := "dummy" }, { id := "a", type := "dummy" },
    { id := "b", type := "dummy", errorHandling := some { target := "a" } }]
  hops := [{ origin := "in", target := "a" }, { origin := "a", target := "b" }]

end Entrance

/-- The first transform is on the path when the cycle is found, and is not part of it. -/
theorem cyclicHop_genuine_entrance :
    Entrance.pipeline.validate = .error [.cyclicHop ["a", "b", "a"]] ∧
      Entrance.pipeline.IsCycle ["a", "b", "a"] := by
  have hreported : Entrance.pipeline.validate = .error [.cyclicHop ["a", "b", "a"]] := by decide
  exact ⟨hreported, ((cyclicHop_genuine Entrance.pipeline).2 _ _ hreported
    (List.mem_singleton_self _)).2⟩

end Pipeline

end Rowflow
