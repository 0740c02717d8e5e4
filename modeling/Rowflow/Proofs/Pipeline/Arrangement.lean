import Mathlib.Data.List.Sort
import Rowflow.Proofs.Pipeline.Taking

/-!
# The order of declaration

The topological order depends neither on the order in which transforms and hops are declared nor on the
order in which the nodes are listed with their degrees. Nodes that become ready together are queued in
ascending order, and which ones become ready is told by what has been taken (`Progress.released`). So
two graphs with the same edges go through the same queues, whatever else there may be between them
(`takeReady_congr`).

* `orderFrom_congr`: graphs with the same nodes and edges have the same order.
* `Pipeline.SameGraph.orderFrom_eq`: so have pipelines that differ in their arrangement.
-/

namespace Rowflow

namespace HopGraph

/-! ### Ascending names -/

theorem mem_insertName {a b : String} {l : List String} : b ∈ insertName a l ↔ b = a ∨ b ∈ l := by
  induction l with
  | nil => simp [insertName]
  | cons c rest ih =>
    unfold insertName
    split
    case isTrue hac => simp [hac]
    case isFalse =>
      split
      · exact List.mem_cons
      · rw [List.mem_cons, ih, List.mem_cons]
        tauto

theorem ascending_insertName {l : List String} (h : l.Pairwise (· < ·)) (a : String) :
    (insertName a l).Pairwise (· < ·) := by
  induction l with
  | nil => exact List.pairwise_singleton _ _
  | cons c rest ih =>
    obtain ⟨hc, hrest⟩ := List.pairwise_cons.mp h
    unfold insertName
    split
    · exact h
    case isFalse hne =>
      split
      case isTrue hlt =>
        refine List.pairwise_cons.mpr ⟨fun b hb => ?_, h⟩
        rcases List.mem_cons.mp hb with rfl | hb
        · exact hlt
        · exact String.lt_trans hlt (hc b hb)
      case isFalse hlt =>
        refine List.pairwise_cons.mpr ⟨fun b hb => ?_, ih hrest⟩
        rcases mem_insertName.mp hb with rfl | hb
        · exact Std.lt_of_le_of_ne (String.not_lt.mp hlt) (Ne.symm hne)
        · exact hc b hb

theorem foldl_insertName (l : List String) {sorted : List String} (h : sorted.Pairwise (· < ·)) :
    let result := l.foldl (fun sorted a => insertName a sorted) sorted
    result.Pairwise (· < ·) ∧ ∀ b, b ∈ result ↔ b ∈ sorted ∨ b ∈ l := by
  induction l generalizing sorted with
  | nil => exact ⟨h, by simp⟩
  | cons a rest ih =>
    obtain ⟨hascending, hmem⟩ := ih (ascending_insertName h a)
    refine ⟨hascending, fun b => ?_⟩
    rw [List.foldl_cons, hmem, mem_insertName, List.mem_cons]
    tauto

theorem sortNames_spec (l : List String) :
    (sortNames l).Pairwise (· < ·) ∧ ∀ b, b ∈ sortNames l ↔ b ∈ l := by
  obtain ⟨hascending, hmem⟩ := foldl_insertName l List.Pairwise.nil
  exact ⟨hascending, fun b => (hmem b).trans (by simp)⟩

/-- Names are sorted into one list, whatever their order was and how often each of them was there. -/
theorem sortNames_congr {l l' : List String} (h : ∀ a, a ∈ l ↔ a ∈ l') :
    sortNames l = sortNames l' := by
  obtain ⟨hascending, hmem⟩ := sortNames_spec l
  obtain ⟨hascending', hmem'⟩ := sortNames_spec l'
  exact hascending.eq_of_mem_iff hascending' fun a => by rw [hmem, hmem', h]

theorem ascending_release {state : Degrees × List String} (h : state.2.Pairwise (· < ·)) (b : String) :
    (release b state).2.Pairwise (· < ·) := by
  unfold release
  split
  · exact h
  · dsimp only
    split
    · exact ascending_insertName h b
    · exact h

theorem ascending_released (bs : List String) {state : Degrees × List String}
    (h : state.2.Pairwise (· < ·)) :
    (bs.foldl (fun state b => release b state) state).2.Pairwise (· < ·) := by
  induction bs generalizing state with
  | nil => exact h
  | cons b rest ih => exact ih (ascending_release h b)

/-! ### Two graphs with the same edges -/

section Lockstep

variable {g g' : HopGraph} (hg : ∀ e ∈ g.edges, e.2 ∈ g.nodes) (hg' : ∀ e ∈ g'.edges, e.2 ∈ g'.nodes)
  (hedges : ∀ e, e ∈ g.edges ↔ e ∈ g'.edges)
include hg hg' hedges

/-- The same nodes become ready when the same node is taken, and are queued in the same order. -/
theorem released_congr {taken : List String} {d d' : Degrees} {a : String} {queue : List String}
    (h : Progress g taken d (a :: queue)) (h' : Progress g' taken d' (a :: queue)) :
    ((g.successors a).foldl (fun state b => release b state) (d, [])).2 =
      ((g'.successors a).foldl (fun state b => release b state) (d', [])).2 := by
  obtain ⟨-, -, hmem⟩ := h.released hg
  obtain ⟨-, -, hmem'⟩ := h'.released hg'
  have hpredecessors : ∀ {a b}, a ∈ g.predecessors b ↔ a ∈ g'.predecessors b := fun {a b} => by
    rw [mem_predecessors, mem_predecessors, hedges]
  refine (ascending_released _ .nil).eq_of_mem_iff (ascending_released _ .nil) fun b => ?_
  rw [hmem, hmem', openEdges_eq_zero, openEdges_eq_zero]
  simp only [hpredecessors]

/-- **Graphs with the same edges** are gone through in the same order. -/
theorem takeReady_congr (fuel : Nat) {taken : List String} {d d' : Degrees} {queue : List String}
    (h : Progress g taken d queue) (h' : Progress g' taken d' queue) :
    g.takeReady fuel d queue = g'.takeReady fuel d' queue := by
  induction fuel generalizing taken d d' queue with
  | zero => rfl
  | succ fuel ih =>
    rcases queue with _ | ⟨a, queue⟩
    · rfl
    · have hnext := h'.take hg'
      have hready := released_congr hg hg' hedges h h'
      dsimp only at hnext
      rw [← hready] at hnext
      simp only [takeReady]
      rw [ih (h.take hg) hnext, hready]

end Lockstep

/-! ### Degrees in any order -/

/-- What is found if the nodes are listed with their degrees in some order. -/
def orderFrom (g : HopGraph) (entries : Degrees) : Option (List String) :=
  let order := g.takeReady g.size entries (startQueue entries)
  if order.length = g.size then some order else none

theorem topologicalOrder_eq (g : HopGraph) : g.topologicalOrder = g.orderFrom g.degrees := rfl

theorem lookup_perm {d d' : Degrees} (h : d.Perm d') (hn : (d.map Prod.fst).Nodup) (b : String) :
    d.lookup b = d'.lookup b := by
  induction h with
  | nil => rfl
  | cons e _ ih =>
    obtain ⟨a, n⟩ := e
    rw [List.lookup_cons, List.lookup_cons, ih (List.nodup_cons.mp hn).2]
  | swap e e' l =>
    obtain ⟨a, n⟩ := e
    obtain ⟨a', n'⟩ := e'
    have hne : a' ≠ a := fun he => (List.nodup_cons.mp hn).1 (by simp [he])
    simp only [List.lookup_cons]
    by_cases hb : b = a
    · have hb' : (b == a') = false := by simp [hb, Ne.symm hne]
      rw [hb']
    · have hb' : (b == a) = false := by simp [hb]
      rw [hb']
  | trans h _ ih ih' =>
    rw [ih hn]
    exact ih' ((h.map Prod.fst).nodup_iff.mp hn)

variable {g g' : HopGraph} {entries entries' : Degrees}

theorem map_fst_degrees (g : HopGraph) : g.degrees.map Prod.fst = g.nodes := by
  unfold degrees
  rw [List.map_map]
  exact List.map_id _

theorem mem_queued (he : entries.Perm g.degrees) (a : String) :
    a ∈ (entries.filter fun (_, n) => n = 0).map (·.1) ↔ a ∈ g.nodes ∧ g.predecessors a = [] := by
  rw [((he.filter _).map _).mem_iff]
  unfold degrees
  simp [List.filter_map, List.length_eq_zero_iff]

theorem progress_of_perm (hn : g.nodes.Nodup) (he : entries.Perm g.degrees) :
    Progress g [] entries (startQueue entries) := by
  have hstart := progress_start hn
  have hqueue : startQueue entries = startQueue g.degrees := sortNames_congr fun a => by
    rw [mem_queued he, mem_queued (List.Perm.refl g.degrees)]
  have hkeys : (entries.map Prod.fst).Nodup := by
    rw [(he.map Prod.fst).nodup_iff, g.map_fst_degrees]
    exact hn
  rw [hqueue]
  exact { hstart with degrees := fun b => (lookup_perm he hkeys b).trans (hstart.degrees b) }

/-- **Graphs with the same nodes and edges** have the same topological order, or both have none,
however the nodes are listed with their degrees. -/
theorem orderFrom_congr (hg : ∀ e ∈ g.edges, e.2 ∈ g.nodes) (hg' : ∀ e ∈ g'.edges, e.2 ∈ g'.nodes)
    (hn : g.nodes.Nodup) (hn' : g'.nodes.Nodup) (hnodes : ∀ a, a ∈ g.nodes ↔ a ∈ g'.nodes)
    (hedges : ∀ e, e ∈ g.edges ↔ e ∈ g'.edges) (he : entries.Perm g.degrees)
    (he' : entries'.Perm g'.degrees) : g.orderFrom entries = g'.orderFrom entries' := by
  have hsize : g.size = g'.size := ((List.perm_ext_iff_of_nodup hn hn').mpr hnodes).length_eq
  have hnone : ∀ a, g.predecessors a = [] ↔ g'.predecessors a = [] := fun a => by
    simp only [List.eq_nil_iff_forall_not_mem, mem_predecessors, hedges]
  have hqueue : startQueue entries = startQueue entries' := sortNames_congr fun a => by
    rw [mem_queued he, mem_queued he', hnodes, hnone]
  have hprogress' := progress_of_perm hn' he'
  rw [← hqueue] at hprogress'
  unfold orderFrom
  rw [takeReady_congr hg hg' hedges g.size (progress_of_perm hn he) hprogress', hsize, hqueue]

end HopGraph

/-! ### Two arrangements of a pipeline -/

namespace Pipeline

/-- Two pipelines with transforms of the same names and, in some order, the same edges between them,
each as often in one as in the other. -/
structure SameGraph (p q : Pipeline) : Prop where
  ids : ∀ id, id ∈ p.ids ↔ id ∈ q.ids
  edges : (HopGraph.ofPipeline p).edges.Perm (HopGraph.ofPipeline q).edges

/-- **The arrangement of a pipeline** has no influence on the topological order. -/
theorem SameGraph.orderFrom_eq {p q : Pipeline} (h : p.SameGraph q) {entries entries' : HopGraph.Degrees}
    (he : entries.Perm (HopGraph.ofPipeline p).degrees)
    (he' : entries'.Perm (HopGraph.ofPipeline q).degrees) :
    (HopGraph.ofPipeline p).orderFrom entries = (HopGraph.ofPipeline q).orderFrom entries' := by
  refine HopGraph.orderFrom_congr (fun e he => (p.graph_ends e he).2)
    (fun e he => (q.graph_ends e he).2) (HopGraph.nodup_distinct _) (HopGraph.nodup_distinct _)
    (fun a => ?_) (fun e => h.edges.mem_iff) he he'
  exact HopGraph.mem_distinct.trans ((h.ids a).trans HopGraph.mem_distinct.symm)

end Pipeline

end Rowflow
