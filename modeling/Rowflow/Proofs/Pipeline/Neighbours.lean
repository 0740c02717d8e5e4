import Rowflow.Proofs.Pipeline.Taking
import Rowflow.Proofs.Table

/-!
# Neighbours in the hop graph

`Neighbours` is the hop graph kept as two tables, of the nodes behind every node and of those before
it, to which nodes and edges are added one by one. Whatever is added, the tables are those of the graph
with these nodes and edges (`Neighbours.Holds`), so each edge counts once in both. In a graph without
cycles every node can be reached from an entry point (`HopGraph.exists_entryPoint`); with all edges
turned around this says that a terminal can be reached from every node (`HopGraph.exists_terminal`).
Main statement: `HopGraph.neighbours_mirrored`.
-/

namespace Rowflow

/-! ### Two tables -/

/-- A graph that is built up, with a table of the nodes behind every node and one of those before
it. -/
structure Neighbours where
  nodes : List String := []
  behind : Table (List String) := .empty
  before : Table (List String) := .empty

namespace Neighbours

/-- Adds a node, if it is new. -/
def addNode (t : Neighbours) (a : String) : Neighbours :=
  if t.behind.contains a then t
  else ⟨t.nodes ++ [a], t.behind.insert a [], t.before.insert a []⟩

/-- Adds a name to those under a key, if there is the key. -/
def extend (table : Table (List String)) (key name : String) : Table (List String) :=
  match table.find? key with
  | some names => table.insert key (names ++ [name])
  | none => table

/-- Adds an edge between two nodes; an edge with another end is dropped. -/
def addEdge (t : Neighbours) (e : String × String) : Neighbours :=
  if t.behind.contains e.1 && t.behind.contains e.2 then
    { t with behind := extend t.behind e.1 e.2, before := extend t.before e.2 e.1 }
  else t

/-- The tables of a pipeline: its transforms, then the enabled hops, then the edges of failing rows. -/
def ofPipeline (p : Pipeline) : Neighbours :=
  p.errorEdges.foldl addEdge
    ((p.enabledHops.map fun h => (h.origin, h.target)).foldl addEdge (p.ids.foldl addNode {}))

/-- The nodes behind a node. -/
def successors (t : Neighbours) (a : String) : List String := (t.behind.find? a).getD []

/-- The nodes before a node. -/
def predecessors (t : Neighbours) (b : String) : List String := (t.before.find? b).getD []

/-- The tables have the nodes of a graph, and under each of them its neighbours. -/
structure Holds (t : Neighbours) (g : HopGraph) : Prop where
  nodes : t.nodes = g.nodes
  behind : ∀ a, t.behind.find? a = if a ∈ g.nodes then some (g.successors a) else none
  before : ∀ b, t.before.find? b = if b ∈ g.nodes then some (g.predecessors b) else none

variable {t : Neighbours} {g : HopGraph} {nodes : List String} {edges : List (String × String)}

theorem Holds.contains (h : t.Holds g) (a : String) : t.behind.contains a = decide (a ∈ g.nodes) := by
  unfold Table.contains
  rw [h.behind a]
  by_cases ha : a ∈ g.nodes <;> simp [ha]

theorem find?_extend (table : Table (List String)) (key name k : String) :
    (extend table key name).find? k =
      (table.find? k).map fun names => names ++ if key = k then [name] else [] := by
  unfold extend
  rcases hkey : table.find? key with _ | names
  · by_cases h : key = k
    · rw [← h, hkey]
      rfl
    · simp [h]
  · dsimp only
    rw [Table.find?_insert]
    by_cases h : k = key
    · rw [if_pos h, h, hkey]
      simp
    · simp [h, Ne.symm h]

/-! ### Adding nodes and edges -/

/-- Names with one more at the end, if it is new. -/
def appendNew (nodes : List String) (a : String) : List String :=
  if a ∈ nodes then nodes else nodes ++ [a]

theorem foldl_appendNew (nodes ids : List String) :
    ids.foldl appendNew nodes = nodes ++ (HopGraph.distinct ids).filter (· ∉ nodes) := by
  induction ids generalizing nodes with
  | nil => exact (List.append_nil nodes).symm
  | cons a rest ih =>
    rw [List.foldl_cons, ih, appendNew, HopGraph.distinct]
    by_cases ha : a ∈ nodes
    · have hfilter : ∀ b, (decide (b ∉ nodes) && decide (b ≠ a)) = decide (b ∉ nodes) := by
        intro b
        by_cases hb : b ∈ nodes
        · simp [hb]
        · simp [hb, show b ≠ a from fun h => hb (h ▸ ha)]
      rw [if_pos ha, List.filter_cons_of_neg (by simpa using ha), List.filter_filter]
      simp only [hfilter]
    · have hfilter : ∀ b, decide (b ∉ nodes ++ [a]) = (decide (b ∉ nodes) && decide (b ≠ a)) := by
        intro b
        by_cases hb : b = a <;> simp [hb]
      rw [if_neg ha, List.filter_cons_of_pos (by simpa using ha), List.filter_filter]
      simp only [hfilter, List.append_assoc, List.singleton_append]

theorem Holds.addNode (h : t.Holds ⟨nodes, []⟩) (a : String) :
    (t.addNode a).Holds ⟨appendNew nodes a, []⟩ := by
  unfold Neighbours.addNode appendNew
  rw [h.contains]
  by_cases ha : a ∈ nodes
  · rw [if_pos (decide_eq_true ha), if_pos ha]
    exact h
  · rw [if_neg (by simpa using ha), if_neg ha]
    refine ⟨congrArg (· ++ [a]) h.nodes, fun b => ?_, fun b => ?_⟩
    · rw [Table.find?_insert, h.behind]
      by_cases hb : b = a <;> simp [hb, HopGraph.successors]
    · rw [Table.find?_insert, h.before]
      by_cases hb : b = a <;> simp [hb, HopGraph.predecessors]

theorem Holds.foldl_addNode (h : t.Holds ⟨nodes, []⟩) (ids : List String) :
    (ids.foldl Neighbours.addNode t).Holds ⟨ids.foldl appendNew nodes, []⟩ := by
  induction ids generalizing t nodes with
  | nil => exact h
  | cons a rest ih => exact ih (h.addNode a)

/-- The edges between nodes. -/
def inner (nodes : List String) (edges : List (String × String)) : List (String × String) :=
  edges.filter fun (a, b) => a ∈ nodes && b ∈ nodes

theorem Holds.addEdge (h : t.Holds ⟨nodes, edges⟩) (e : String × String) :
    (t.addEdge e).Holds ⟨nodes, edges ++ inner nodes [e]⟩ := by
  obtain ⟨a, b⟩ := e
  unfold Neighbours.addEdge
  rw [h.contains, h.contains]
  dsimp only
  cases hends : decide (a ∈ nodes) && decide (b ∈ nodes) with
  | false =>
    have hinner : inner nodes [(a, b)] = [] := List.filter_cons_of_neg (by simp [hends])
    rw [hinner, List.append_nil]
    exact h
  | true =>
    have hinner : inner nodes [(a, b)] = [(a, b)] := List.filter_cons_of_pos hends
    rw [hinner]
    refine ⟨h.nodes, fun c => ?_, fun c => ?_⟩
    · refine (find?_extend t.behind a b c).trans ?_
      rw [h.behind]
      by_cases hc : c ∈ nodes <;> by_cases hac : a = c <;> simp [hc, hac, HopGraph.successors]
    · refine (find?_extend t.before b a c).trans ?_
      rw [h.before]
      by_cases hc : c ∈ nodes <;> by_cases hbc : b = c <;> simp [hc, hbc, HopGraph.predecessors]

theorem Holds.foldl_addEdge (h : t.Holds ⟨nodes, edges⟩) (more : List (String × String)) :
    (more.foldl Neighbours.addEdge t).Holds ⟨nodes, edges ++ inner nodes more⟩ := by
  induction more generalizing t edges with
  | nil => exact (List.append_nil edges).symm ▸ h
  | cons e rest ih =>
    have hrest := ih (h.addEdge e)
    rwa [List.append_assoc, inner, inner, ← List.filter_append] at hrest

/-- **The tables of a pipeline** are those of its hop graph. -/
theorem holds_ofPipeline (p : Pipeline) : (ofPipeline p).Holds (HopGraph.ofPipeline p) := by
  have hempty : Holds {} ⟨[], []⟩ := ⟨rfl, fun _ => rfl, fun _ => rfl⟩
  have hbuilt := ((hempty.foldl_addNode p.ids).foldl_addEdge
    (p.enabledHops.map fun h => (h.origin, h.target))).foldl_addEdge p.errorEdges
  have hnodes : p.ids.foldl appendNew [] = HopGraph.distinct p.ids := by
    rw [foldl_appendNew]
    simp
  have hedges : [] ++ inner (HopGraph.distinct p.ids)
      (p.enabledHops.map fun h => (h.origin, h.target)) ++
        inner (HopGraph.distinct p.ids) p.errorEdges = (HopGraph.ofPipeline p).edges := by
    rw [List.nil_append, inner, inner, ← List.filter_append]
    simp only [HopGraph.mem_distinct]
    rfl
  rwa [hnodes, hedges] at hbuilt

theorem Holds.successors (h : t.Holds g) (hg : ∀ e ∈ g.edges, e.1 ∈ g.nodes) (a : String) :
    t.successors a = g.successors a := by
  unfold Neighbours.successors
  rw [h.behind]
  by_cases ha : a ∈ g.nodes
  · simp [ha]
  · rw [if_neg ha, Option.getD_none, eq_comm, List.eq_nil_iff_forall_not_mem]
    exact fun b hb => ha (hg _ (HopGraph.mem_successors.mp hb))

theorem Holds.predecessors (h : t.Holds g) (hg : ∀ e ∈ g.edges, e.2 ∈ g.nodes) (b : String) :
    t.predecessors b = g.predecessors b := by
  unfold Neighbours.predecessors
  rw [h.before]
  by_cases hb : b ∈ g.nodes
  · simp [hb]
  · rw [if_neg hb, Option.getD_none, eq_comm, List.eq_nil_iff_forall_not_mem]
    exact fun a ha => hb (hg _ (HopGraph.mem_predecessors.mp ha))

end Neighbours

/-! ### Counting edges -/

namespace HopGraph

variable {g : HopGraph}

theorem count_successors_eq (a b : String) : (g.successors a).count b = g.edges.count (a, b) := by
  unfold successors
  induction g.edges with
  | nil => rfl
  | cons e rest ih =>
    obtain ⟨x, y⟩ := e
    by_cases hx : x = a <;> by_cases hy : y = b <;> simp [hx, hy, ih]

end HopGraph

theorem Pipeline.validationErrors_of_validate {p : Pipeline} (h : p.validate = .ok ()) :
    p.validationErrors = [] := by
  unfold validate at h
  split at h
  · assumption
  · cases h

/-! ### The ends of a graph -/

namespace HopGraph

variable {g : HopGraph}

/-- The graph with all its edges turned around. -/
def reverse (g : HopGraph) : HopGraph := ⟨g.nodes, g.edges.map Prod.swap⟩

theorem reverse_leads : g.reverse.Leads = Function.swap g.Leads := by
  funext a b
  refine propext (List.mem_map.trans ⟨?_, fun h => ⟨(b, a), h, rfl⟩⟩)
  rintro ⟨⟨x, y⟩, he, heq⟩
  cases heq
  exact he

theorem reverse_acyclic (h : g.Acyclic) : g.reverse.Acyclic := by
  intro a hloop
  rw [reverse_leads, Relation.transGen_swap] at hloop
  exact h a hloop

theorem reverse_predecessors (a : String) : g.reverse.predecessors a = g.successors a := by
  unfold predecessors reverse successors
  rw [List.filterMap_map]
  rfl

theorem reverse_entryPoints : g.reverse.entryPoints = g.terminals := by
  unfold entryPoints terminals
  simp only [reverse_predecessors]
  rfl

/-- A way along the edges leads from one node to another one, or they are the same. -/
abbrev Reaches (g : HopGraph) : String → String → Prop := Relation.ReflTransGen g.Leads

theorem reverse_reaches {a b : String} : g.reverse.Reaches a b ↔ g.Reaches b a := by
  unfold Reaches
  rw [reverse_leads]
  exact Relation.reflTransGen_swap

/-- **Every node can be reached from an entry point** in a graph without cycles: a node that is none has
a predecessor, and what reaches it reaches the node. -/
theorem exists_entryPoint (hacyclic : g.Acyclic) (hg : ∀ e ∈ g.edges, e.1 ∈ g.nodes) {b : String}
    (hb : b ∈ g.nodes) : ∃ a ∈ g.entryPoints, g.Reaches a b := by
  classical
  let reached := g.nodes.filter fun b => ∃ a ∈ g.entryPoints, g.Reaches a b
  have hall : ∀ b ∈ g.nodes, b ∈ reached := by
    refine mem_of_held hacyclic hg fun b hb hheld => List.mem_filter.mpr ⟨hb, decide_eq_true ?_⟩
    rcases hpred : g.predecessors b with _ | ⟨c, rest⟩
    · exact ⟨b, List.mem_filter.mpr ⟨hb, by rw [hpred]; rfl⟩, .refl⟩
    · have hc : c ∈ g.predecessors b := hpred ▸ List.mem_cons_self
      obtain ⟨a, ha, hreach⟩ := of_decide_eq_true (List.mem_filter.mp (hheld c hc)).2
      exact ⟨a, ha, hreach.tail (mem_predecessors.mp hc)⟩
  exact of_decide_eq_true (List.mem_filter.mp (hall b hb)).2

/-- **Every node reaches a terminal** in a graph without cycles. -/
theorem exists_terminal (hacyclic : g.Acyclic) (hg : ∀ e ∈ g.edges, e.2 ∈ g.nodes) {a : String}
    (ha : a ∈ g.nodes) : ∃ b ∈ g.terminals, g.Reaches a b := by
  have hends : ∀ e ∈ g.reverse.edges, e.1 ∈ g.reverse.nodes := by
    intro e he
    obtain ⟨e', he', rfl⟩ := List.mem_map.mp he
    exact hg e' he'
  obtain ⟨b, hb, hreach⟩ := exists_entryPoint (reverse_acyclic hacyclic) hends ha
  exact ⟨b, reverse_entryPoints ▸ hb, reverse_reaches.mp hreach⟩

/-- **Neighbours.** The two tables of neighbours that are filled node by node and edge by edge are read
off the edges of the hop graph. A node is as often behind another one as this one is before it, and both
as often as there are enabled hops and edges of failing rows from the one to the other, if both are
transforms. In a graph without cycles, every transform can be reached from an entry point and reaches a
terminal; so an accepted pipeline with a transform has both. -/
theorem neighbours_mirrored (p : Pipeline) :
    let g := ofPipeline p
    let t := Neighbours.ofPipeline p
    (t.nodes = g.nodes ∧ ∀ a, t.successors a = g.successors a ∧ t.predecessors a = g.predecessors a) ∧
    (∀ a b, (g.successors a).count b = (g.predecessors b).count a ∧
      (g.successors a).count b =
        if a ∈ p.ids ∧ b ∈ p.ids then
          (p.hops.countP fun h => h.enabled ∧ h.origin = a ∧ h.target = b) +
            p.transforms.countP fun t => t.id = a ∧ t.errorHandling.map (·.target) = some b
        else 0) ∧
    (g.Acyclic → ∀ t ∈ p.transforms,
      (∃ a ∈ g.entryPoints, g.Reaches a t.id) ∧ ∃ b ∈ g.terminals, g.Reaches t.id b) ∧
    (p.validate = .ok () → p.transforms ≠ [] → g.entryPoints ≠ [] ∧ g.terminals ≠ []) := by
  intro g t
  have hends := p.graph_ends
  have hholds := Neighbours.holds_ofPipeline p
  have hcovered (hacyclic : g.Acyclic) : ∀ t ∈ p.transforms,
      (∃ a ∈ g.entryPoints, g.Reaches a t.id) ∧ ∃ b ∈ g.terminals, g.Reaches t.id b := by
    intro t ht
    have hnode : t.id ∈ g.nodes := mem_distinct.mpr (List.mem_map_of_mem ht)
    exact ⟨exists_entryPoint hacyclic (fun e he => (hends e he).1) hnode,
      exists_terminal hacyclic (fun e he => (hends e he).2) hnode⟩
  refine ⟨⟨hholds.nodes, fun a => ⟨?_, ?_⟩⟩, fun a b => ⟨count_successors a b, ?_⟩, hcovered, ?_⟩
  · exact hholds.successors (fun e he => (hends e he).1) a
  · exact hholds.predecessors (fun e he => (hends e he).2) a
  · have hnodes : ∀ c, c ∈ (ofPipeline p).nodes ↔ c ∈ p.ids := fun c => mem_distinct
    rw [count_successors_eq, p.hasGraph.count_edges]
    simp only [hnodes]
  · intro hvalid hne
    obtain ⟨hp, hacyclic⟩ :=
      p.validationErrors_eq_nil_iff.mp (Pipeline.validationErrors_of_validate hvalid)
    obtain ⟨t, ht⟩ := List.exists_mem_of_ne_nil _ hne
    obtain ⟨⟨a, ha, -⟩, b, hb, -⟩ := hcovered (hp.graph_acyclic.mpr hacyclic) t ht
    exact ⟨List.ne_nil_of_mem ha, List.ne_nil_of_mem hb⟩

/-! A transform whose rows go to another one directly, by way of a third one, and if they fail. -/

namespace Detour

def pipeline : Pipeline where
  transforms :=
    [⟨"a", "dummy", 1, .copy, true, some { target := "c" }, .empty⟩,
      ⟨"b", "dummy", 1, .copy, false, none, .empty⟩, ⟨"c", "dummy", 1, .copy, false, none, .empty⟩]
  hops := [⟨"a", "b", true⟩, ⟨"b", "c", true⟩, ⟨"a", "c", true⟩, ⟨"c", "b", false⟩]

end Detour

theorem neighbours_mirrored_detour :
    Detour.pipeline.validate = .ok () ∧ Detour.pipeline.transforms ≠ [] ∧
    (ofPipeline Detour.pipeline).Acyclic ∧
    -- a hop and the edge of failing rows
    ((ofPipeline Detour.pipeline).successors "a").count "c" = 2 ∧
    ((ofPipeline Detour.pipeline).predecessors "c").count "a" = 2 ∧
    (Neighbours.ofPipeline Detour.pipeline).successors "a" = ["b", "c", "c"] ∧
    (ofPipeline Detour.pipeline).Reaches "a" "b" ∧ (ofPipeline Detour.pipeline).Reaches "b" "c" ∧
    (ofPipeline Detour.pipeline).entryPoints ≠ [] ∧ (ofPipeline Detour.pipeline).terminals ≠ [] := by
  have hvalid : Detour.pipeline.validate = .ok () := by decide
  have hne : Detour.pipeline.transforms ≠ [] := by decide
  obtain ⟨hp, hacyclic⟩ := Detour.pipeline.validationErrors_eq_nil_iff.mp
    (Pipeline.validationErrors_of_validate hvalid)
  have hgraph : (ofPipeline Detour.pipeline).Acyclic := hp.graph_acyclic.mpr hacyclic
  have hentry : (ofPipeline Detour.pipeline).entryPoints = ["a"] := by decide
  have hterminal : (ofPipeline Detour.pipeline).terminals = ["c"] := by decide
  obtain ⟨⟨-, htables⟩, hcount, hcovered, hboth⟩ := neighbours_mirrored Detour.pipeline
  obtain ⟨⟨a, ha, hab⟩, c, hc, hbc⟩ := hcovered hgraph
    ⟨"b", "dummy", 1, .copy, false, none, .empty⟩ (.tail _ (.head _))
  rw [hentry, List.mem_singleton] at ha
  rw [hterminal, List.mem_singleton] at hc
  obtain ⟨hmirror, hsum⟩ := hcount "a" "c"
  have htwo : ((ofPipeline Detour.pipeline).successors "a").count "c" = 2 := hsum.trans (by decide)
  refine ⟨hvalid, hne, hgraph, htwo, hmirror.symm.trans htwo, ?_, ha ▸ hab, hc ▸ hbc,
    hboth hvalid hne⟩
  rw [(htables "a").1]
  decide

end HopGraph

end Rowflow
