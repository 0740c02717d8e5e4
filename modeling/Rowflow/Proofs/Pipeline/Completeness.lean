import Mathlib.Order.WellFoundedSet
import Rowflow.Proofs.Pipeline.Acyclicity

/-!
# Graphs without cycles have a topological order

While nodes are taken, every node that nothing holds back is in the queue (`Queued`). So when the
queue is empty, each node that is left has a predecessor that is left as well, and in a finite graph
without cycles none is left (`mem_of_held`). Hence the order that is found misses no node
(`exists_topologicalOrder`), in particular for every accepted pipeline (`Pipeline.exists_order`).
-/

namespace Rowflow

namespace HopGraph

variable {g : HopGraph}

/-- Every node whose predecessors have been taken is taken or in the queue. -/
def Queued (g : HopGraph) (taken queue : List String) : Prop :=
  ∀ b ∈ g.nodes, (∀ a ∈ g.predecessors b, a ∈ taken) → b ∈ taken ++ queue

theorem queued_start (hn : g.nodes.Nodup) :
    g.Queued [] (sortNames ((g.degrees.filter fun (_, d) => d = 0).map (·.1))) := by
  intro b hb hfree
  rw [List.nil_append, (sortNames_entries hn).mem_iff, List.mem_filter, decide_eq_true_eq,
    List.length_eq_zero_iff, List.eq_nil_iff_forall_not_mem]
  exact ⟨hb, fun a ha => List.not_mem_nil (hfree a ha)⟩

/-- In a graph without cycles a list has all nodes if it has every node all of whose predecessors it
has. -/
theorem mem_of_held (hacyclic : g.Acyclic) (hg : ∀ e ∈ g.edges, e.1 ∈ g.nodes) {taken : List String}
    (hheld : ∀ b ∈ g.nodes, (∀ a ∈ g.predecessors b, a ∈ taken) → b ∈ taken) :
    ∀ b ∈ g.nodes, b ∈ taken := by
  have hirrefl : Std.Irrefl (Relation.TransGen g.Leads) := ⟨hacyclic⟩
  have horder : IsStrictOrder String (Relation.TransGen g.Leads) := ⟨⟩
  have hwf : {b | b ∈ g.nodes}.WellFoundedOn (Relation.TransGen g.Leads) :=
    (List.finite_toSet g.nodes).wellFoundedOn
  intro b hb
  refine hwf.induction hb fun b hb ih => hheld b hb fun a ha => ?_
  have hedge := mem_predecessors.mp ha
  exact ih a (hg _ hedge) (.single hedge)

section Take

variable (hg : ∀ e ∈ g.edges, e.2 ∈ g.nodes)
include hg

theorem Queued.take {taken : List String} {d : Degrees} {a : String} {queue : List String}
    (hq : g.Queued taken (a :: queue)) (h : Progress g taken d (a :: queue)) :
    g.Queued (taken ++ [a])
      (queue ++ ((g.successors a).foldl (fun state b => release b state) (d, [])).2) := by
  obtain ⟨-, -, hreleased⟩ := h.released hg
  intro b hb hfree
  by_cases hab : a ∈ g.predecessors b
  · -- the node taken was the last one to hold it back
    have hnoted := (hreleased b).mpr ⟨hab, openEdges_eq_zero.mpr hfree⟩
    exact List.mem_append_right _ (List.mem_append_right _ hnoted)
  · have hbefore := hq b hb fun x hx => by
      rcases List.mem_append.mp (hfree x hx) with hx' | hx'
      · exact hx'
      · exact absurd (List.mem_singleton.mp hx' ▸ hx) hab
    simp only [List.mem_append, List.mem_cons] at hbefore ⊢
    tauto

/-- **Nothing is left** when nodes are taken as long as there are any in the queue. -/
theorem takeReady_complete (hacyclic : g.Acyclic) (hg' : ∀ e ∈ g.edges, e.1 ∈ g.nodes) (fuel : Nat)
    {taken : List String} {d : Degrees} {queue : List String} (h : Progress g taken d queue)
    (hq : g.Queued taken queue) (hfuel : g.size ≤ taken.length + fuel) :
    ∀ b ∈ g.nodes, b ∈ taken ++ g.takeReady fuel d queue := by
  induction fuel generalizing taken d queue with
  | zero =>
    have hsub := h.nodup.of_append_left.subperm fun b hb => h.nodes b (List.mem_append_left _ hb)
    intro b hb
    exact List.mem_append_left _ ((hsub.perm_of_length_le hfuel).mem_iff.mpr hb)
  | succ fuel ih =>
    rcases queue with _ | ⟨a, queue⟩
    · have hall : ∀ b ∈ g.nodes, b ∈ taken := mem_of_held hacyclic hg' fun b hb hfree => by
        simpa using hq b hb hfree
      exact fun b hb => List.mem_append_left _ (hall b hb)
    · have hrest := ih (h.take hg) (hq.take hg h) (by
        rw [List.length_append, List.length_singleton]
        omega)
      simpa only [takeReady, List.append_assoc, List.singleton_append] using hrest

/-- **A graph without cycles** has a topological order. -/
theorem exists_topologicalOrder (hacyclic : g.Acyclic) (hg' : ∀ e ∈ g.edges, e.1 ∈ g.nodes)
    (hn : g.nodes.Nodup) : ∃ order, g.topologicalOrder = some order := by
  have hall := takeReady_complete hg hacyclic hg' g.size (progress_start hn) (queued_start hn)
    (Nat.le_of_eq (Nat.zero_add _).symm)
  obtain ⟨-, hnodup, hnodes⟩ := takeReady_forward hg g.size (progress_start hn)
  rw [List.nil_append] at hall hnodup hnodes
  have hperm := (List.perm_ext_iff_of_nodup hnodup hn).mpr fun b => ⟨hnodes b, hall b⟩
  exact ⟨_, if_pos hperm.length_eq⟩

end Take

end HopGraph

/-- **An accepted pipeline** has a topological order. -/
theorem Pipeline.exists_order {p : Pipeline} (h : p.validationErrors = []) :
    ∃ order, (HopGraph.ofPipeline p).topologicalOrder = some order := by
  obtain ⟨hp, hacyclic⟩ := p.validationErrors_eq_nil_iff.mp h
  refine HopGraph.exists_topologicalOrder (fun e he => (p.graph_ends e he).2) ?_
    (fun e he => (p.graph_ends e he).1) (HopGraph.nodup_distinct p.ids)
  exact hp.graph_acyclic.mpr hacyclic

end Rowflow
