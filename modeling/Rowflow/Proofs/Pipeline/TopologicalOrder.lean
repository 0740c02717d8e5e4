import Mathlib.Data.List.Nodup
import Mathlib.Data.List.Perm.Subperm
import Mathlib.Tactic.Common
import Rowflow.Proofs.Pipeline.WellFormed

/-!
# The topological order

The order that `HopGraph.topologicalOrder` finds contains every node once, and every edge leads
forward in it. While nodes are taken, the degree of a node is the number of edges that come to it
from nodes not yet taken (`openEdges`); so a node is queued when all its predecessors have been
taken, and only once.

* `takeReady_forward`: in whatever is taken, predecessors come first.
* `topologicalOrder_spec`: the order has all nodes, and edges lead forward.
* `Pipeline.WellFormed.ranked`: the places in the order of a pipeline grow along its edges.
-/

namespace Rowflow

namespace HopGraph

/-! ### Sorting names -/

theorem insertName_perm {a : String} {l : List String} (h : a ∉ l) :
    (insertName a l).Perm (a :: l) := by
  induction l with
  | nil => exact List.Perm.refl _
  | cons b rest ih =>
    have hab : a ≠ b := fun he => h (by simp [he])
    have har : a ∉ rest := fun he => h (List.mem_cons_of_mem _ he)
    unfold insertName
    rw [if_neg hab]
    split
    · exact List.Perm.refl _
    · exact ((ih har).cons b).trans (List.Perm.swap a b rest)

theorem sortNames_perm {l : List String} (h : l.Nodup) : (sortNames l).Perm l := by
  have hfold : ∀ (l acc : List String), (acc ++ l).Nodup →
      (l.foldl (fun sorted a => insertName a sorted) acc).Perm (acc ++ l) := by
    intro l
    induction l with
    | nil =>
      intro acc _
      simp
    | cons a rest ih =>
      intro acc hn
      have ha : a ∉ acc := by
        intro ha
        exact (List.nodup_append.mp hn).2.2 a ha a (by simp) rfl
      have hp := insertName_perm ha
      have hmid : (insertName a acc ++ rest).Perm (acc ++ a :: rest) :=
        (hp.append_right rest).trans List.perm_middle.symm
      exact (ih _ (hmid.nodup_iff.mpr hn)).trans hmid
  exact hfold l [] h

/-! ### Degrees -/

variable (g : HopGraph)

/-- The number of edges to a node that come from nodes not taken. -/
def openEdges (taken : List String) (b : String) : Nat :=
  (g.predecessors b).countP (· ∉ taken)

variable {g}

theorem mem_predecessors {a b : String} : a ∈ g.predecessors b ↔ (a, b) ∈ g.edges := by
  unfold predecessors
  rw [List.mem_filterMap]
  constructor
  · rintro ⟨⟨a', b'⟩, he, h⟩
    by_cases hb : b' = b
    · simp only [hb, if_true, Option.some.injEq] at h
      rw [← h, ← hb]
      exact he
    · simp [hb] at h
  · exact fun h => ⟨(a, b), h, by simp⟩

theorem openEdges_eq_zero {taken : List String} {b : String} :
    g.openEdges taken b = 0 ↔ ∀ a ∈ g.predecessors b, a ∈ taken := by
  unfold openEdges
  rw [List.countP_eq_zero]
  simp

theorem count_successors (a b : String) :
    (g.successors a).count b = (g.predecessors b).count a := by
  unfold successors predecessors
  induction g.edges with
  | nil => rfl
  | cons e rest ih =>
    obtain ⟨x, y⟩ := e
    by_cases hx : x = a <;> by_cases hy : y = b <;> simp [hx, hy, ih]

theorem openEdges_take {taken : List String} {a : String} (b : String) (ha : a ∉ taken) :
    g.openEdges taken b = g.openEdges (taken ++ [a]) b + (g.successors a).count b := by
  rw [count_successors]
  unfold openEdges
  induction g.predecessors b with
  | nil => rfl
  | cons x rest ih =>
    rw [List.countP_cons, List.countP_cons, List.count_cons, ih]
    by_cases hx : x = a
    · subst hx
      simp [ha]
      omega
    · by_cases hxt : x ∈ taken <;> simp [hx, hxt]
      omega

theorem lookup_map_decrement (b c : String) (l : Degrees) :
    (l.map fun (x, e) => if x = b then (x, e - 1) else (x, e)).lookup c =
      (l.lookup c).map fun d => if c = b then d - 1 else d := by
  induction l with
  | nil => rfl
  | cons e rest ih =>
    obtain ⟨x, d⟩ := e
    by_cases hc : c = x
    · subst hc
      by_cases hb : c = b <;> simp [hb]
    · have hcx : (c == x) = false := by simp [hc]
      rw [List.map_cons]
      dsimp only
      by_cases hb : x = b
      · rw [if_pos hb, List.lookup_cons, List.lookup_cons, hcx]
        exact ih
      · rw [if_neg hb, List.lookup_cons, List.lookup_cons, hcx]
        exact ih

/-- Degrees that give every node a number, and nothing else one. -/
def Degrees.Are (d : Degrees) (nodes : List String) (f : String → Nat) : Prop :=
  ∀ b, d.lookup b = if b ∈ nodes then some (f b) else none

/-- Releasing a node takes one from its degree, and notes it if it is not held back any longer. -/
theorem release_spec {nodes : List String} {f : String → Nat} {b : String} {d : Degrees}
    {ready : List String} (hb : b ∈ nodes) (hd : d.Are nodes fun c => f c + if c = b then 1 else 0)
    (hr : ready.Nodup) (hbr : b ∉ ready) :
    (release b (d, ready)).1.Are nodes f ∧ (release b (d, ready)).2.Nodup ∧
      ∀ c, c ∈ (release b (d, ready)).2 ↔ c ∈ ready ∨ (c = b ∧ f b = 0) := by
  have hlookup : d.lookup b = some (f b + 1) := by
    rw [hd b, if_pos hb]
    simp
  unfold release
  simp only [hlookup]
  refine ⟨fun c => ?_, ?_⟩
  · rw [lookup_map_decrement, hd c]
    by_cases hn : c ∈ nodes
    · rw [if_pos hn, if_pos hn, Option.map_some]
      dsimp only
      by_cases hc : c = b
      · rw [if_pos hc, if_pos hc]
        rfl
      · rw [if_neg hc, if_neg hc]
        rfl
    · rw [if_neg hn, if_neg hn]
      rfl
  · have hsub : f b + 1 - 1 = f b := Nat.add_sub_cancel _ _
    rw [hsub]
    by_cases hz : f b = 0
    · have hp := insertName_perm hbr
      rw [if_pos hz]
      refine ⟨hp.nodup_iff.mpr (List.nodup_cons.mpr ⟨hbr, hr⟩), fun c => ?_⟩
      rw [hp.mem_iff, List.mem_cons, or_comm, and_iff_left hz]
    · rw [if_neg hz]
      exact ⟨hr, fun c => ⟨Or.inl, fun h => h.resolve_right fun h => hz h.2⟩⟩

theorem count_cons_eq (b c : String) (rest : List String) :
    (b :: rest).count c = rest.count c + if c = b then 1 else 0 := by
  rw [List.count_cons]
  refine congrArg _ (if_congr ?_ rfl rfl)
  rw [beq_iff_eq, eq_comm]

/-- Releasing successors, one after the other, brings the degrees down, and notes the nodes that are
not held back any longer. -/
theorem foldl_release {nodes : List String} {f : String → Nat} (bs : List String)
    {d : Degrees} {ready : List String} (hbs : ∀ b ∈ bs, b ∈ nodes)
    (hd : d.Are nodes fun b => f b + bs.count b) (hr : ready.Nodup)
    (h0 : ∀ b ∈ ready, f b + bs.count b = 0) :
    let state := bs.foldl (fun state b => release b state) (d, ready)
    state.1.Are nodes f ∧ state.2.Nodup ∧
      ∀ b, b ∈ state.2 ↔ b ∈ ready ∨ (b ∈ bs ∧ f b = 0) := by
  induction bs generalizing d ready with
  | nil => exact ⟨by simpa using hd, hr, by simp⟩
  | cons b rest ih =>
    simp only [count_cons_eq, ← Nat.add_assoc] at hd h0
    have hbr : b ∉ ready := by
      intro hm
      have := h0 b hm
      rw [if_pos rfl] at this
      omega
    obtain ⟨h1, h2, h3⟩ := release_spec (hbs b List.mem_cons_self) hd hr hbr
    obtain ⟨h4, h5, h6⟩ := ih (fun c hc => hbs c (List.mem_cons_of_mem _ hc)) h1 h2 (by
      intro c hc
      rcases (h3 c).mp hc with hc | ⟨rfl, hz⟩
      · have := h0 c hc
        omega
      · exact hz)
    refine ⟨h4, h5, fun c => ?_⟩
    rw [List.foldl_cons, h6 c, h3 c, List.mem_cons]
    constructor
    · rintro ((h | ⟨rfl, hz⟩) | ⟨h, hz⟩)
      · exact Or.inl h
      · exact Or.inr ⟨Or.inl rfl, by omega⟩
      · exact Or.inr ⟨Or.inr h, hz⟩
    · rintro (h | ⟨rfl | h, hz⟩)
      · exact Or.inl (Or.inl h)
      · -- a node to be released once more is noted later
        by_cases hc : c ∈ rest
        · exact Or.inr ⟨hc, hz⟩
        · refine Or.inl (Or.inr ⟨rfl, ?_⟩)
          rw [List.count_eq_zero_of_not_mem hc, hz]
      · exact Or.inr ⟨h, hz⟩

/-! ### Taking nodes -/

/-- Every node of a list stands behind its predecessors. -/
def Forward (g : HopGraph) (order : List String) : Prop :=
  ∀ before b after, order = before ++ b :: after → ∀ a ∈ g.predecessors b, a ∈ before

/-- How far the order has come: what has been taken, and what can be taken next. -/
structure Progress (g : HopGraph) (taken : List String) (d : Degrees) (queue : List String) :
    Prop where
  degrees : d.Are g.nodes (g.openEdges taken)
  nodup : (taken ++ queue).Nodup
  nodes : ∀ b ∈ taken ++ queue, b ∈ g.nodes
  ready : ∀ b ∈ queue, ∀ a ∈ g.predecessors b, a ∈ taken
  forward : g.Forward taken

theorem Forward.snoc {taken : List String} {b : String} (h : g.Forward taken)
    (hb : ∀ a ∈ g.predecessors b, a ∈ taken) : g.Forward (taken ++ [b]) := by
  intro before c after he
  rcases List.eq_nil_or_concat after with rfl | ⟨after', z, rfl⟩
  · obtain ⟨h1, h2⟩ := List.append_inj' he rfl
    cases h2
    rw [← h1]
    exact hb
  · have he' : taken ++ [b] = (before ++ c :: after') ++ [z] := by simpa using he
    exact h before c after' (List.append_inj' he' rfl).1

theorem Forward.mem_of_mem {taken : List String} (h : g.Forward taken) {a b : String}
    (hb : b ∈ taken) (ha : a ∈ g.predecessors b) : a ∈ taken := by
  obtain ⟨before, after, rfl⟩ := List.append_of_mem hb
  exact List.mem_append_left _ (h before b after rfl a ha)

theorem sortNames_entries (hn : g.nodes.Nodup) :
    (sortNames ((g.degrees.filter fun (_, d) => d = 0).map (·.1))).Perm
      (g.nodes.filter fun a => (g.predecessors a).length = 0) := by
  have he : (g.degrees.filter fun (_, d) => d = 0).map (·.1) =
      g.nodes.filter fun a => (g.predecessors a).length = 0 := by
    unfold degrees
    rw [List.filter_map, List.map_map]
    exact List.map_id _
  rw [he]
  exact sortNames_perm (hn.filter _)

theorem progress_start (hn : g.nodes.Nodup) :
    Progress g [] g.degrees (sortNames ((g.degrees.filter fun (_, d) => d = 0).map (·.1))) := by
  have hq := sortNames_entries hn
  refine ⟨?_, ?_, ?_, ?_, ?_⟩
  · intro b
    have hopen : g.openEdges [] b = (g.predecessors b).length := by
      unfold openEdges
      rw [List.countP_eq_length]
      simp
    rw [hopen]
    unfold degrees
    induction g.nodes with
    | nil => rfl
    | cons a rest ih =>
      by_cases hb : b = a
      · subst hb
        simp
      · have hba : (b == a) = false := by simp [hb]
        simp [List.lookup_cons, hba, ih, hb]
  · exact hq.nodup_iff.mpr (hn.filter _)
  · intro b hb
    exact List.mem_of_mem_filter (hq.mem_iff.mp hb)
  · intro b hb a ha
    have h0 := List.of_mem_filter (hq.mem_iff.mp hb)
    rw [decide_eq_true_eq, List.length_eq_zero_iff] at h0
    rw [h0] at ha
    cases ha
  · intro before b after he
    simp at he

theorem Forward.idxOf_lt {order : List String} (h : g.Forward order) {a b : String}
    (hb : b ∈ order) (hab : (a, b) ∈ g.edges) : order.idxOf a < order.idxOf b := by
  obtain ⟨before, after, he, hn⟩ := List.eq_append_cons_of_mem hb
  have ha := h before b after he a (mem_predecessors.mpr hab)
  rw [he, List.idxOf_append_of_mem ha, List.idxOf_append_of_notMem hn]
  exact Nat.lt_add_right _ (List.idxOf_lt_length_iff.mpr ha)

theorem mem_distinct {a : String} {l : List String} : a ∈ distinct l ↔ a ∈ l := by
  induction l with
  | nil => exact Iff.rfl
  | cons b rest ih =>
    unfold distinct
    by_cases hab : a = b <;> simp [hab, ih]

theorem nodup_distinct (l : List String) : (distinct l).Nodup := by
  induction l with
  | nil => exact List.nodup_nil
  | cons a rest ih =>
    unfold distinct
    exact List.nodup_cons.mpr ⟨by simp, ih.filter _⟩

theorem distinct_of_nodup {l : List String} (h : l.Nodup) : distinct l = l := by
  induction l with
  | nil => rfl
  | cons a rest ih =>
    obtain ⟨ha, hr⟩ := List.nodup_cons.mp h
    unfold distinct
    rw [ih hr, List.filter_eq_self.mpr]
    intro b hb
    rw [decide_eq_true_eq]
    rintro rfl
    exact ha hb

section Take

variable (hg : ∀ e ∈ g.edges, e.2 ∈ g.nodes)
include hg

theorem Progress.released {taken : List String} {d : Degrees} {a : String} {queue : List String}
    (h : Progress g taken d (a :: queue)) :
    let state := (g.successors a).foldl (fun state b => release b state) (d, [])
    state.1.Are g.nodes (g.openEdges (taken ++ [a])) ∧ state.2.Nodup ∧
      ∀ b, b ∈ state.2 ↔ a ∈ g.predecessors b ∧ g.openEdges (taken ++ [a]) b = 0 := by
  have ha : a ∉ taken := by
    intro hm
    exact (List.nodup_append.mp h.nodup).2.2 a hm a (by simp) rfl
  have hsucc : ∀ {b}, b ∈ g.successors a ↔ a ∈ g.predecessors b := by
    intro b
    rw [← List.count_pos_iff, count_successors, List.count_pos_iff]
  obtain ⟨h1, h2, h3⟩ := foldl_release (f := g.openEdges (taken ++ [a])) (g.successors a)
    (fun b hb => hg _ (mem_predecessors.mp (hsucc.mp hb)))
    (fun b => by rw [h.degrees b, openEdges_take b ha]) List.nodup_nil (by simp)
  refine ⟨h1, h2, fun b => ?_⟩
  rw [h3 b, hsucc]
  simp

theorem Progress.take {taken : List String} {d : Degrees} {a : String} {queue : List String}
    (h : Progress g taken d (a :: queue)) :
    let state := (g.successors a).foldl (fun state b => release b state) (d, [])
    Progress g (taken ++ [a]) state.1 (queue ++ state.2) := by
  have ha : a ∉ taken := by
    intro hm
    exact (List.nodup_append.mp h.nodup).2.2 a hm a (by simp) rfl
  obtain ⟨h1, h2, h3⟩ := h.released hg
  have hready : ∀ b ∈ ((g.successors a).foldl (fun state b => release b state) (d, [])).2,
      a ∈ g.predecessors b ∧ ∀ x ∈ g.predecessors b, x ∈ taken ++ [a] := by
    intro b hb
    obtain ⟨hab, h0⟩ := (h3 b).mp hb
    exact ⟨hab, openEdges_eq_zero.mp h0⟩
  have hforward := h.forward.snoc (h.ready a (by simp))
  refine ⟨h1, ?_, ?_, ?_, hforward⟩
  · rw [← List.append_assoc, List.nodup_append]
    refine ⟨by simpa using h.nodup, h2, ?_⟩
    rintro x hx y hy rfl
    obtain ⟨hxa, -⟩ := hready x hy
    rcases List.mem_append.mp hx with hx | hx
    · -- a taken node has no open edges left, but the one from `a` was open
      rcases List.mem_append.mp hx with hx | hx
      · exact ha (h.forward.mem_of_mem hx hxa)
      · rw [List.mem_singleton.mp hx] at hxa
        exact ha (h.ready a (by simp) a hxa)
    · exact ha (h.ready x (List.mem_cons_of_mem _ hx) a hxa)
  · intro b hb
    rcases List.mem_append.mp hb with hb | hb
    · exact h.nodes b (by simp at hb ⊢; tauto)
    · rcases List.mem_append.mp hb with hb | hb
      · exact h.nodes b (by simp [hb])
      · exact hg _ (mem_predecessors.mp (hready b hb).1)
  · intro b hb x hx
    rcases List.mem_append.mp hb with hb | hb
    · exact List.mem_append_left _ (h.ready b (List.mem_cons_of_mem _ hb) x hx)
    · exact (hready b hb).2 x hx

/-- **Whatever is taken** stands in an order in which predecessors come first. -/
theorem takeReady_forward (fuel : Nat) {taken : List String} {d : Degrees} {queue : List String}
    (h : Progress g taken d queue) :
    let order := taken ++ g.takeReady fuel d queue
    g.Forward order ∧ order.Nodup ∧ ∀ b ∈ order, b ∈ g.nodes := by
  induction fuel generalizing taken d queue with
  | zero =>
    simp only [takeReady, List.append_nil]
    exact ⟨h.forward, h.nodup.of_append_left, fun b hb => h.nodes b (List.mem_append_left _ hb)⟩
  | succ fuel ih =>
    rcases queue with _ | ⟨a, queue⟩
    · simp only [takeReady, List.append_nil]
      exact ⟨h.forward, h.nodup.of_append_left, fun b hb => h.nodes b (List.mem_append_left _ hb)⟩
    · have := ih (h.take hg)
      simpa only [takeReady, List.append_assoc, List.singleton_append] using this

/-- **The topological order** has every node once, behind its predecessors. -/
theorem topologicalOrder_spec (hn : g.nodes.Nodup) {order : List String}
    (h : g.topologicalOrder = some order) : order.Perm g.nodes ∧ g.Forward order := by
  obtain ⟨h1, h2, h3⟩ := takeReady_forward hg g.size (progress_start hn)
  unfold topologicalOrder at h
  dsimp only at h
  split at h
  case isFalse => cases h
  case isTrue hlen =>
    cases h
    rw [List.nil_append] at h1 h2 h3
    exact ⟨(h2.subperm h3).perm_of_length_le (Nat.le_of_eq hlen.symm), h1⟩

end Take

end HopGraph

/-! ### Ranks of transforms -/

namespace Pipeline

variable {p : Pipeline}

/-- Numbers for the transforms that grow along the edges. -/
structure Ranked (p : Pipeline) (rank : String → Nat) : Prop where
  grows : ∀ a b, (a, b) ∈ p.edges → rank a < rank b
  lt : ∀ id ∈ p.ids, rank id < p.transforms.length

theorem graph_ends (p : Pipeline) : ∀ e ∈ (HopGraph.ofPipeline p).edges,
    e.1 ∈ (HopGraph.ofPipeline p).nodes ∧ e.2 ∈ (HopGraph.ofPipeline p).nodes := by
  intro e he
  have hends := List.of_mem_filter he
  simp only [Bool.and_eq_true, decide_eq_true_eq] at hends
  exact ⟨HopGraph.mem_distinct.mpr hends.1, HopGraph.mem_distinct.mpr hends.2⟩

/-- The topological order of any pipeline has every node of its graph once. -/
theorem order_spec {order : List String}
    (h : (HopGraph.ofPipeline p).topologicalOrder = some order) :
    order.Perm (HopGraph.ofPipeline p).nodes ∧ (HopGraph.ofPipeline p).Forward order :=
  HopGraph.topologicalOrder_spec (fun e he => (p.graph_ends e he).2)
    (HopGraph.nodup_distinct p.ids) h

theorem order_nodup {order : List String}
    (h : (HopGraph.ofPipeline p).topologicalOrder = some order) : order.Nodup :=
  (order_spec h).1.nodup_iff.mpr (HopGraph.nodup_distinct p.ids)

theorem WellFormed.mem_of_edge (hp : p.WellFormed) {a b : String} (h : (a, b) ∈ p.edges) :
    a ∈ p.ids ∧ b ∈ p.ids := by
  rcases List.mem_append.mp h with h | h
  · obtain ⟨hop, hh, he⟩ := List.mem_map.mp h
    cases he
    exact hp.hop_ends hop (List.mem_of_mem_filter hh)
  · obtain ⟨t, ht, he⟩ := List.mem_filterMap.mp h
    rw [Option.map_eq_some_iff] at he
    obtain ⟨eh, heh, he⟩ := he
    cases he
    exact ⟨mem_ids.mpr ⟨t, ht, rfl⟩, (hp.targets t ht eh heh).1⟩

theorem WellFormed.graph_nodes (hp : p.WellFormed) : (HopGraph.ofPipeline p).nodes = p.ids :=
  HopGraph.distinct_of_nodup hp.ids_nodup

theorem WellFormed.graph_edges (hp : p.WellFormed) : (HopGraph.ofPipeline p).edges = p.edges := by
  unfold HopGraph.ofPipeline
  rw [List.filter_eq_self]
  rintro ⟨a, b⟩ he
  simp [hp.mem_of_edge he]

/-- **The topological order of a pipeline** has every transform once, behind those that lead to
it. -/
theorem WellFormed.forward (hp : p.WellFormed) {order : List String}
    (h : (HopGraph.ofPipeline p).topologicalOrder = some order) :
    order.Perm p.ids ∧ (HopGraph.ofPipeline p).Forward order := by
  have hspec := order_spec h
  rwa [hp.graph_nodes] at hspec

/-- **The places in the topological order** grow along the edges of a pipeline. -/
theorem WellFormed.ranked (hp : p.WellFormed) {order : List String}
    (h : (HopGraph.ofPipeline p).topologicalOrder = some order) : p.Ranked order.idxOf := by
  obtain ⟨hperm, hf⟩ := hp.forward h
  refine ⟨fun a b hab => ?_, fun id hid => ?_⟩
  · exact hf.idxOf_lt (hperm.mem_iff.mpr (hp.mem_of_edge hab).2) (by rwa [hp.graph_edges])
  · have := List.idxOf_lt_length_iff.mpr (hperm.mem_iff.mpr hid)
    rw [hperm.length_eq] at this
    simpa [ids] using this

/-- What holds of a transform if it holds of all that lead to it, holds of all. -/
theorem Ranked.induction {rank : String → Nat} (h : p.Ranked rank) {P : String → Prop}
    (step : ∀ b, (∀ a, (a, b) ∈ p.edges → P a) → P b) (b : String) : P b := by
  have hall : ∀ n b, rank b = n → P b := by
    intro n
    induction n using Nat.strongRecOn with
    | ind n ih => exact fun b hb => step b fun a hab => ih _ (hb ▸ h.grows a b hab) a rfl
  exact hall _ b rfl

/-- What holds of a transform if it holds of all that it leads to, holds of all. -/
theorem Ranked.induction_back (hp : p.WellFormed) {rank : String → Nat} (h : p.Ranked rank)
    {P : String → Prop} (step : ∀ a, (∀ b, (a, b) ∈ p.edges → P b) → P a) (a : String) : P a := by
  have hall : ∀ n a, p.transforms.length - rank a = n → P a := by
    intro n
    induction n using Nat.strongRecOn with
    | ind n ih =>
      refine fun a ha => step a fun b hab => ih _ ?_ b rfl
      have hlt := h.grows a b hab
      have hbound := h.lt b (hp.mem_of_edge hab).2
      omega
  exact hall _ a rfl

end Pipeline

end Rowflow
