import Mathlib.Order.WellFoundedSet
import Rowflow.Proofs.Pipeline.Completeness

/-!
# Taking nodes until the queue is empty

`HopGraph.Takes` takes nodes from the queue without any bound, until none is left there. Whenever an
edge to a node is taken away there was one left: `Releases` has no rule for a degree that is zero
already. The degrees count the edges that come from nodes not yet taken, so this never stops in the
middle; and no node is queued twice, so it comes to an end within as many steps as there are nodes
(`takes_takeReady`).

* `exists_topologicalOrder_iff`: an order is found exactly if there is no cycle.
* `Pipeline.topologicalOrder_correct`: what is found, for any pipeline whatever.
-/

namespace Rowflow

namespace HopGraph

variable {g : HopGraph}

/-- The nodes that are queued at first, in ascending order. -/
def startQueue (d : Degrees) : List String := sortNames ((d.filter fun (_, n) => n = 0).map (·.1))

/-! ### Without a bound -/

/-- Takes edges to some nodes away, one after the other, where each of the nodes has one left. -/
inductive Releases : Degrees × List String → List String → Degrees × List String → Prop where
  /-- No edge is left to take away. -/
  | done (state : Degrees × List String) : Releases state [] state
  /-- The degree of the node is not zero before it is lowered. -/
  | releases {state state' : Degrees × List String} {b : String} {rest : List String}
    (held : state.1.lookup b ≠ some 0) (onward : Releases (release b state) rest state') :
    Releases state (b :: rest) state'

/-- The nodes that are taken from a queue until it is empty, in order. -/
inductive Takes (g : HopGraph) : Degrees → List String → List String → Prop where
  /-- The queue is empty. -/
  | exhausted (d : Degrees) : Takes g d [] []
  /-- The first node of the queue, and behind the queue those that it was the last to hold back. -/
  | takes {d : Degrees} {a : String} {queue order : List String} {state : Degrees × List String}
    (releases : Releases (d, []) (g.successors a) state)
    (onward : Takes g state.1 (queue ++ state.2) order) : Takes g d (a :: queue) (a :: order)

theorem Releases.eq_foldl {state state' : Degrees × List String} {bs : List String}
    (h : Releases state bs state') : state' = bs.foldl (fun state b => release b state) state := by
  induction h with
  | done => rfl
  | releases _ _ ih => exact ih

theorem Takes.unique {d : Degrees} {queue order order' : List String} (h : g.Takes d queue order)
    (h' : g.Takes d queue order') : order' = order := by
  induction h generalizing order' with
  | exhausted =>
    cases h'
    rfl
  | takes releases _ ih =>
    cases h' with
    | takes releases' onward' =>
      rw [releases'.eq_foldl, ← releases.eq_foldl] at onward'
      rw [ih onward']

/-! ### Degrees never fall below zero -/

theorem release_are {nodes : List String} {f : String → Nat} {b : String} {d : Degrees}
    (ready : List String) (hb : b ∈ nodes) (hd : d.Are nodes fun c => f c + if c = b then 1 else 0) :
    (release b (d, ready)).1.Are nodes f := by
  have hready : (release b (d, ready)).1 = (release b (d, [])).1 := by
    unfold release
    dsimp only
    split <;> rfl
  rw [hready]
  exact (release_spec hb hd List.nodup_nil List.not_mem_nil).1

/-- Degrees that are enough for some nodes can be lowered for one after the other. -/
theorem releases_foldl {nodes : List String} {f : String → Nat} {bs : List String} {d : Degrees}
    (ready : List String) (hbs : ∀ b ∈ bs, b ∈ nodes)
    (hd : d.Are nodes fun b => f b + bs.count b) :
    Releases (d, ready) bs (bs.foldl (fun state b => release b state) (d, ready)) := by
  induction bs generalizing d ready with
  | nil => exact .done _
  | cons b rest ih =>
    have hb := hbs b List.mem_cons_self
    simp only [count_cons_eq, ← Nat.add_assoc] at hd
    have hheld : d.lookup b ≠ some 0 := by
      rw [hd b, if_pos hb]
      simp
    have hlowered := release_are ready hb hd
    exact .releases hheld (ih _ (fun c hc => hbs c (List.mem_cons_of_mem _ hc)) hlowered)

section Take

variable (hg : ∀ e ∈ g.edges, e.2 ∈ g.nodes)
include hg

theorem Progress.releases {taken : List String} {d : Degrees} {a : String} {queue : List String}
    (h : Progress g taken d (a :: queue)) :
    Releases (d, []) (g.successors a)
      ((g.successors a).foldl (fun state b => release b state) (d, [])) := by
  have ha : a ∉ taken := fun hm =>
    (List.nodup_append.mp h.nodup).2.2 a hm a List.mem_cons_self rfl
  have hbs : ∀ b ∈ g.successors a, b ∈ g.nodes := fun b hb => hg _ (mem_successors.mp hb)
  have hd : d.Are g.nodes fun b => g.openEdges (taken ++ [a]) b + (g.successors a).count b :=
    fun b => by rw [h.degrees b, openEdges_take b ha]
  exact releases_foldl [] hbs hd

/-- **The bound is never reached**: what has been taken or is queued is no more than there are
nodes. -/
theorem takes_takeReady (fuel : Nat) {taken : List String} {d : Degrees} {queue : List String}
    (h : Progress g taken d queue) (hfuel : g.size ≤ taken.length + fuel) :
    g.Takes d queue (g.takeReady fuel d queue) := by
  induction fuel generalizing taken d queue with
  | zero =>
    have hlength := (h.nodup.subperm h.nodes).length_le
    rw [List.length_append] at hlength
    have hempty : queue = [] := List.length_eq_zero_iff.mp (by unfold size at hfuel; omega)
    rw [hempty]
    exact .exhausted d
  | succ fuel ih =>
    rcases queue with _ | ⟨a, queue⟩
    · exact .exhausted d
    · refine .takes (h.releases hg) (ih (h.take hg) ?_)
      rw [List.length_append, List.length_singleton]
      omega

/-- **Taking nodes comes to an end**, and what has been taken is the topological order if it has all
nodes. -/
theorem exists_takes (hn : g.nodes.Nodup) :
    ∃ order, g.Takes g.degrees (startQueue g.degrees) order ∧
      g.topologicalOrder = if order.length = g.size then some order else none :=
  ⟨_, takes_takeReady hg g.size (progress_start hn) (Nat.le_of_eq (Nat.zero_add _).symm), rfl⟩

theorem acyclic_of_topologicalOrder (hn : g.nodes.Nodup) {order : List String}
    (h : g.topologicalOrder = some order) : g.Acyclic := by
  obtain ⟨hperm, hforward⟩ := topologicalOrder_spec hg hn h
  have hgrows : ∀ {a b}, g.Leads a b → order.idxOf a < order.idxOf b := fun hab =>
    hforward.idxOf_lt (hperm.mem_iff.mpr (hg _ hab)) hab
  have htrans : ∀ {a b}, Relation.TransGen g.Leads a b → order.idxOf a < order.idxOf b := by
    intro a b hab
    induction hab with
    | single h => exact hgrows h
    | tail _ h ih => exact ih.trans (hgrows h)
  exact fun a hloop => Nat.lt_irrefl _ (htrans hloop)

end Take

/-- **An order is found** exactly if the graph has no cycle. -/
theorem exists_topologicalOrder_iff (hg : ∀ e ∈ g.edges, e.1 ∈ g.nodes ∧ e.2 ∈ g.nodes)
    (hn : g.nodes.Nodup) : (∃ order, g.topologicalOrder = some order) ↔ g.Acyclic :=
  ⟨fun ⟨_, h⟩ => acyclic_of_topologicalOrder (fun e he => (hg e he).2) hn h,
    fun h => exists_topologicalOrder (fun e he => (hg e he).2) h (fun e he => (hg e he).1) hn⟩

end HopGraph

/-! ### The graph of any pipeline -/

namespace Pipeline

/-- One node for each name of a transform, and as many edges from one to another one as there are
enabled hops and transforms with an edge of failing rows between them. -/
structure HasGraph (p : Pipeline) (g : HopGraph) : Prop where
  nodup : g.nodes.Nodup
  mem_nodes : ∀ a, a ∈ g.nodes ↔ ∃ t ∈ p.transforms, t.id = a
  count_edges : ∀ a b, g.edges.count (a, b) =
    if a ∈ g.nodes ∧ b ∈ g.nodes then
      (p.hops.countP fun h => h.enabled ∧ h.origin = a ∧ h.target = b) +
        p.transforms.countP fun t => t.id = a ∧ t.errorHandling.map (·.target) = some b
    else 0

theorem count_edges (p : Pipeline) (a b : String) : p.edges.count (a, b) =
    (p.hops.countP fun h => h.enabled ∧ h.origin = a ∧ h.target = b) +
      p.transforms.countP fun t => t.id = a ∧ t.errorHandling.map (·.target) = some b := by
  unfold edges errorEdges enabledHops
  rw [List.count_append, List.count_eq_countP, List.count_eq_countP, List.countP_map,
    List.countP_filter, List.countP_filterMap]
  congr 1
  · refine List.countP_congr fun h _ => ?_
    simp [and_comm]
  · refine List.countP_congr fun t _ => ?_
    rcases t.errorHandling with _ | handling <;> simp

theorem hasGraph (p : Pipeline) : p.HasGraph (HopGraph.ofPipeline p) where
  nodup := HopGraph.nodup_distinct p.ids
  mem_nodes a := HopGraph.mem_distinct.trans mem_ids
  count_edges a b := by
    have hmem : ∀ c, c ∈ (HopGraph.ofPipeline p).nodes ↔ c ∈ p.ids := fun c =>
      HopGraph.mem_distinct
    simp only [← p.count_edges, hmem]
    unfold HopGraph.ofPipeline
    split
    case isTrue h => exact List.count_filter (by simp [h])
    case isFalse h =>
      refine List.count_eq_zero_of_not_mem fun hm => h ?_
      simpa using List.of_mem_filter hm

/-- **The topological order** of any pipeline, valid or not. Nodes are taken until the queue is empty,
which comes to an end in one order, and no degree is lowered that is zero. There is a topological
order exactly if the graph has no cycle; it has every node once, and every edge leads forward. -/
theorem topologicalOrder_correct (p : Pipeline) :
    let g := HopGraph.ofPipeline p
    let queue := HopGraph.startQueue g.degrees
    p.HasGraph g ∧
    (∃! order, g.Takes g.degrees queue order) ∧
    (∀ order, g.Takes g.degrees queue order →
      g.topologicalOrder = if order.length = g.size then some order else none) ∧
    ((∃ order, g.topologicalOrder = some order) ↔ g.Acyclic) ∧
    ∀ order, g.topologicalOrder = some order →
      order.Perm g.nodes ∧ ∀ a b, (a, b) ∈ g.edges → order.idxOf a < order.idxOf b := by
  have hg := p.graph_ends
  have hn := p.hasGraph.nodup
  obtain ⟨order, htakes, hfound⟩ := HopGraph.exists_takes (fun e he => (hg e he).2) hn
  refine ⟨p.hasGraph, ⟨order, htakes, fun order' h => htakes.unique h⟩, ?_,
    HopGraph.exists_topologicalOrder_iff hg hn, ?_⟩
  · intro order' h
    rw [htakes.unique h]
    exact hfound
  · intro order' h
    obtain ⟨hperm, hforward⟩ := order_spec h
    exact ⟨hperm, fun a b hab => hforward.idxOf_lt (hperm.mem_iff.mpr (hg _ hab).2) hab⟩

/-! ### A hop beside an edge of failing rows -/

namespace Doubled

/-- Two transforms of one name, and two edges to the next one: a hop and, for failing rows, the target
of the second transform. A third edge leads nowhere. -/
def pipeline : Pipeline where
  transforms := [{ id := "b", type := "dummy" }, { id := "a", type := "dummy" },
    { id := "a", type := "dummy", errorHandling := some { target := "b" } }]
  hops := [{ origin := "a", target := "b" }, { origin := "a", target := "z" }]

end Doubled

/-- Not all names are distinct and not all hops lead to transforms, and there is an order. -/
theorem topologicalOrder_correct_doubled :
    (HopGraph.ofPipeline Doubled.pipeline).topologicalOrder = some ["a", "b"] ∧
      (HopGraph.ofPipeline Doubled.pipeline).edges.count ("a", "b") = 2 ∧
      (HopGraph.ofPipeline Doubled.pipeline).Acyclic ∧ ["a", "b"].idxOf "a" < ["a", "b"].idxOf "b" := by
  have horder : (HopGraph.ofPipeline Doubled.pipeline).topologicalOrder = some ["a", "b"] := by
    decide
  obtain ⟨-, -, -, hexists, hspec⟩ := topologicalOrder_correct Doubled.pipeline
  exact ⟨horder, by decide, hexists.mp ⟨_, horder⟩, (hspec _ horder).2 "a" "b" (by decide)⟩

end Pipeline

end Rowflow
