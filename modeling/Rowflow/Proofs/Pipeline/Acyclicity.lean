import Mathlib.Logic.Relation
import Rowflow.Proofs.Pipeline.TopologicalOrder

/-!
# The search for cycles

`HopGraph.Searches` is the search for a cycle without any bound: it looks at nodes in order, goes
behind those that are new, and ends with a cycle when it comes back to the path on which it is. A
path has every node once, so it is no longer than there are nodes; hence the search always comes to
an end, and `HopGraph.visit` finds what it finds (`searches_visit`).

* `Searches.accessible`: from nodes that are searched without a cycle no way goes on for ever.
* `Searches.cyclic`: a cycle that is reported means that there is one.
* `Pipeline.validate_eq_ok_iff`: the accepted pipelines are the well-formed ones without cycles.
-/

namespace Rowflow

namespace HopGraph

variable {g : HopGraph}

/-- An edge leads from one node to another one. -/
def Leads (g : HopGraph) (a b : String) : Prop := (a, b) ∈ g.edges

/-- No way along the edges comes back to where it began. -/
def Acyclic (g : HopGraph) : Prop := ∀ a, ¬ Relation.TransGen g.Leads a a

theorem not_transGen_self {a : String} (h : Acc (fun b a => g.Leads a b) a) :
    ¬ Relation.TransGen g.Leads a a := by
  have htrans := h.transGen
  clear h
  rw [← Relation.transGen_swap]
  induction htrans with
  | intro a _ ih => exact fun hloop => ih a hloop hloop

theorem mem_successors {a b : String} : b ∈ g.successors a ↔ g.Leads a b := by
  rw [← List.count_pos_iff, count_successors, List.count_pos_iff]
  exact mem_predecessors

/-! ### Searching without a bound -/

/-- What comes of searching some nodes in order, when a path, given from its end, has led to them and
some nodes have been visited: all nodes visited by then, or a cycle. -/
inductive Searches (g : HopGraph) :
    List String → List String → List String → Except (List String) (List String) → Prop where
  /-- No node is left. -/
  | exhausted (path visited : List String) : Searches g path visited [] (.ok visited)
  /-- A new node, and no cycle behind it. -/
  | visits {path visited visited' rest : List String} {b : String}
    {r : Except (List String) (List String)} (fresh : b ∉ visited)
    (behind : Searches g (b :: path) (b :: visited) (g.successors b) (.ok visited'))
    (onward : Searches g path visited' rest r) : Searches g path visited (b :: rest) r
  /-- A new node, and a cycle behind it. -/
  | fails {path visited rest cycle : List String} {b : String} (fresh : b ∉ visited)
    (behind : Searches g (b :: path) (b :: visited) (g.successors b) (.error cycle)) :
    Searches g path visited (b :: rest) (.error cycle)
  /-- A node of the path. -/
  | returns {path visited rest : List String} {b : String} (known : b ∈ visited)
    (back : b ∈ path) : Searches g path visited (b :: rest) (.error (closeCycle path b))
  /-- A node that has been left behind. -/
  | passes {path visited rest : List String} {b : String}
    {r : Except (List String) (List String)} (known : b ∈ visited) (away : b ∉ path)
    (onward : Searches g path visited rest r) : Searches g path visited (b :: rest) r

namespace Searches

variable {path visited visited' bs cycle : List String} {r r' : Except (List String) (List String)}

theorem unique (h : g.Searches path visited bs r) (h' : g.Searches path visited bs r') : r' = r := by
  induction h generalizing r' with
  | exhausted =>
    cases h'
    rfl
  | visits fresh _ _ ih₁ ih₂ =>
    cases h' with
    | visits _ behind onward =>
      cases ih₁ behind
      exact ih₂ onward
    | fails _ behind => cases ih₁ behind
    | returns known => exact absurd known fresh
    | passes known => exact absurd known fresh
  | fails fresh _ ih =>
    cases h' with
    | visits _ behind => cases ih behind
    | fails _ behind => exact ih behind
    | returns known => exact absurd known fresh
    | passes known => exact absurd known fresh
  | returns known back =>
    cases h' with
    | visits fresh => exact absurd known fresh
    | fails fresh => exact absurd known fresh
    | returns => rfl
    | passes _ away => exact absurd back away
  | passes known away _ ih =>
    cases h' with
    | visits fresh => exact absurd known fresh
    | fails fresh => exact absurd known fresh
    | returns _ back => exact absurd back away
    | passes _ _ onward => exact ih onward

theorem subset (h : g.Searches path visited bs r) (hr : r = .ok visited') : visited ⊆ visited' := by
  induction h generalizing visited' with
  | exhausted =>
    cases hr
    exact List.Subset.refl _
  | visits _ _ _ ih₁ ih₂ => exact List.Subset.trans (List.subset_cons_self _ _) (List.Subset.trans (ih₁ rfl) (ih₂ hr))
  | fails => cases hr
  | returns => cases hr
  | passes _ _ _ ih => exact ih hr

/-- **Without a cycle** every way on from a visited node comes to an end, unless the node is on the
path: when a node is left behind, so have been all nodes to which it leads. -/
theorem accessible (h : g.Searches path visited bs r) (hr : r = .ok visited')
    (hvisited : ∀ x ∈ visited, x ∉ path → Acc (fun b a => g.Leads a b) x) :
    (∀ x ∈ visited', x ∉ path → Acc (fun b a => g.Leads a b) x) ∧
      ∀ b ∈ bs, Acc (fun b a => g.Leads a b) b := by
  induction h generalizing visited' with
  | exhausted =>
    cases hr
    exact ⟨hvisited, fun b hb => by cases hb⟩
  | @visits path visited visited₁ rest b r _ _ _ ih₁ ih₂ =>
    obtain ⟨hleft, hnext⟩ := ih₁ rfl fun x hx hn => by
      rw [List.mem_cons, not_or] at hn
      exact hvisited x ((List.mem_cons.mp hx).resolve_left hn.1) hn.2
    have hb : Acc (fun b a => g.Leads a b) b := .intro b fun c hc => hnext c (mem_successors.mpr hc)
    obtain ⟨hall, hrest⟩ := ih₂ hr fun x hx hn => by
      by_cases hxb : x = b
      · exact hxb ▸ hb
      · exact hleft x hx (by simp [hxb, hn])
    refine ⟨hall, fun c hc => ?_⟩
    rcases List.mem_cons.mp hc with rfl | hc
    · exact hb
    · exact hrest c hc
  | fails => cases hr
  | returns => cases hr
  | passes known away _ ih =>
    obtain ⟨hall, hrest⟩ := ih hr hvisited
    refine ⟨hall, fun c hc => ?_⟩
    rcases List.mem_cons.mp hc with rfl | hc
    · exact hvisited c known away
    · exact hrest c hc

theorem cyclic (h : g.Searches path visited bs r) (hr : r = .error cycle)
    (hpath : ∀ x ∈ path, ∀ b ∈ bs, Relation.TransGen g.Leads x b) : ¬ g.Acyclic := by
  induction h generalizing cycle with
  | exhausted => cases hr
  | visits _ _ _ _ ih =>
    exact ih hr fun x hx c hc => hpath x hx c (List.mem_cons_of_mem _ hc)
  | fails _ _ ih =>
    refine ih hr fun x hx c hc => ?_
    have hedge := mem_successors.mp hc
    rcases List.mem_cons.mp hx with rfl | hx
    · exact .single hedge
    · exact .tail (hpath x hx _ List.mem_cons_self) hedge
  | @returns _ _ _ b _ back => exact fun hacyclic => hacyclic b (hpath b back b List.mem_cons_self)
  | passes _ _ _ ih =>
    exact ih hr fun x hx c hc => hpath x hx c (List.mem_cons_of_mem _ hc)

end Searches

/-! ### The bound is never reached -/

section Bound

variable (hg : ∀ e ∈ g.edges, e.2 ∈ g.nodes)
include hg

theorem searches_visit (fuel : Nat) {path visited : List String} {a : String}
    (hbound : g.size < fuel + path.length) (hnodup : (a :: path).Nodup)
    (hnodes : a :: path ⊆ g.nodes) (hpath : path ⊆ visited) :
    g.Searches (a :: path) (a :: visited) (g.successors a) (g.visit fuel path visited a) := by
  -- the bound counts down while the path grows, and the path has no more room than there are nodes
  induction fuel generalizing path visited a with
  | zero =>
    have hlength := (List.subperm_of_subset hnodup hnodes).length_le
    rw [List.length_cons] at hlength
    unfold size at hbound
    omega
  | succ fuel ih =>
    unfold visit
    have hsucc : ∀ b ∈ g.successors a, b ∈ g.nodes := fun b hb => hg _ (mem_successors.mp hb)
    have hvisited : a :: path ⊆ a :: visited := List.cons_subset_cons a hpath
    -- the loop over the successors, from any of them on
    generalize g.successors a = bs at hsucc
    generalize a :: visited = visited₁ at hvisited
    induction bs generalizing visited₁ with
    | nil => exact .exhausted _ _
    | cons b rest ihrest =>
      have hrest : ∀ c ∈ rest, c ∈ g.nodes := fun c hc => hsucc c (List.mem_cons_of_mem _ hc)
      rw [List.foldlM_cons]
      by_cases hb : b ∈ visited₁
      · rw [if_neg (not_not.mpr hb)]
        by_cases hback : b ∈ a :: path
        · rw [if_pos hback]
          exact .returns hb hback
        · rw [if_neg hback]
          exact .passes hb hback (ihrest hrest visited₁ hvisited)
      · rw [if_pos hb]
        have hfresh : b ∉ a :: path := fun hm => hb (hvisited hm)
        have hbehind : g.Searches (b :: a :: path) (b :: visited₁) (g.successors b)
            (g.visit fuel (a :: path) visited₁ b) :=
          ih (by rw [List.length_cons]; omega) (List.nodup_cons.mpr ⟨hfresh, hnodup⟩)
            (List.cons_subset.mpr ⟨hsucc b List.mem_cons_self, hnodes⟩) hvisited
        rcases hv : g.visit fuel (a :: path) visited₁ b with cycle | visited₂ <;> rw [hv] at hbehind
        · exact .fails hb hbehind
        · refine .visits hb hbehind (ihrest hrest visited₂ ?_)
          exact List.Subset.trans hvisited
            (List.Subset.trans (List.subset_cons_self _ _) (hbehind.subset rfl))

theorem searches_roots (visited : List String) {roots : List String} (hroots : roots ⊆ g.nodes) :
    ∃ r, g.Searches [] visited roots r ∧
      ∀ cycle, g.visitRoots visited roots = some cycle ↔ r = .error cycle := by
  induction roots generalizing visited with
  | nil => exact ⟨_, .exhausted [] visited, fun cycle => by simp [visitRoots]⟩
  | cons a rest ih =>
    obtain ⟨ha, hrest⟩ := List.cons_subset.mp hroots
    unfold visitRoots
    by_cases hm : a ∈ visited
    · obtain ⟨r, hr, hcycle⟩ := ih visited hrest
      rw [if_pos hm]
      exact ⟨r, .passes hm (List.not_mem_nil) hr, hcycle⟩
    · have hvisit : g.Searches [a] (a :: visited) (g.successors a)
          (g.visit (g.size + 1) [] visited a) :=
        searches_visit hg (g.size + 1) (Nat.lt_succ_self _) (List.nodup_singleton a)
          (List.cons_subset.mpr ⟨ha, List.nil_subset _⟩) (List.nil_subset _)
      rw [if_neg hm]
      rcases hv : g.visit (g.size + 1) [] visited a with cycle | visited' <;> rw [hv] at hvisit
      · exact ⟨_, .fails hm hvisit, fun cycle' => by simp⟩
      · obtain ⟨r, hr, hcycle⟩ := ih visited' hrest
        exact ⟨r, .visits hm hvisit hr, hcycle⟩

/-- **The search always comes to an end**, with one outcome. -/
theorem existsUnique_searches : ∃! r, g.Searches [] [] g.nodes r := by
  obtain ⟨r, hr, -⟩ := searches_roots hg [] (List.Subset.refl g.nodes)
  exact ⟨r, hr, fun r' h => hr.unique h⟩

theorem cycle?_eq_some_iff (cycle : List String) :
    g.cycle? = some cycle ↔ g.Searches [] [] g.nodes (.error cycle) := by
  obtain ⟨r, hr, hcycle⟩ := searches_roots hg [] (List.Subset.refl g.nodes)
  refine (hcycle cycle).trans ⟨fun h => h ▸ hr, fun h => ?_⟩
  exact h.unique hr

/-- **The search finds a cycle** exactly if there is one. -/
theorem cycle?_eq_none_iff (hg' : ∀ e ∈ g.edges, e.1 ∈ g.nodes) : g.cycle? = none ↔ g.Acyclic := by
  constructor
  · intro hnone a hloop
    obtain ⟨cycle | visited, hr, -⟩ := existsUnique_searches hg
    · rw [(cycle?_eq_some_iff hg cycle).mpr hr] at hnone
      cases hnone
    · obtain ⟨-, hnodes⟩ := hr.accessible rfl fun x hx => by cases hx
      obtain ⟨b, hab, -⟩ := Relation.TransGen.head'_iff.mp hloop
      exact not_transGen_self (hnodes a (hg' _ hab)) hloop
  · intro hacyclic
    rcases hc : g.cycle? with _ | cycle
    · rfl
    · have hr := (cycle?_eq_some_iff hg cycle).mp hc
      exact absurd hacyclic (hr.cyclic rfl fun x hx => by cases hx)

end Bound

end HopGraph

/-! ### Accepted pipelines -/

namespace Pipeline

variable {p : Pipeline}

/-- No way along enabled hops and edges of failing rows comes back to where it began. -/
def Acyclic (p : Pipeline) : Prop :=
  ∀ a, ¬ Relation.TransGen (fun a b => (a, b) ∈ p.edges) a a

theorem WellFormed.graph_acyclic (hp : p.WellFormed) :
    (HopGraph.ofPipeline p).Acyclic ↔ p.Acyclic := by
  unfold HopGraph.Acyclic HopGraph.Leads
  rw [hp.graph_edges]
  rfl

theorem validationErrors_eq_nil_iff (p : Pipeline) :
    p.validationErrors = [] ↔ p.WellFormed ∧ p.Acyclic := by
  have hcycle := HopGraph.cycle?_eq_none_iff (fun e he => (p.graph_ends e he).2)
    fun e he => (p.graph_ends e he).1
  unfold validationErrors
  rcases hs : p.structuralErrors with _ | ⟨e, rest⟩
  · have hp := (structuralErrors_eq_nil_iff p).mp hs
    rw [← hp.graph_acyclic, ← hcycle, and_iff_right hp]
    rcases (HopGraph.ofPipeline p).cycle? with _ | cycle <;> simp
  · have hp : ¬ p.WellFormed := fun hp => by
      rw [(structuralErrors_eq_nil_iff p).mpr hp] at hs
      cases hs
    simp [hp]

/-- **The pipelines that are accepted** are the well-formed ones without cycles. Whatever the
pipeline, the search for a cycle comes to an end without any bound, with one outcome, and a cycle is
reported if that is the outcome. -/
theorem validate_eq_ok_iff (p : Pipeline) : (p.validate = .ok () ↔ p.WellFormed ∧ p.Acyclic) ∧
    (∃! r, (HopGraph.ofPipeline p).Searches [] [] (HopGraph.ofPipeline p).nodes r) ∧
    ∀ cycle, (HopGraph.ofPipeline p).cycle? = some cycle ↔
      (HopGraph.ofPipeline p).Searches [] [] (HopGraph.ofPipeline p).nodes (.error cycle) := by
  have hends := fun e he => (p.graph_ends e he).2
  refine ⟨?_, HopGraph.existsUnique_searches hends, HopGraph.cycle?_eq_some_iff hends⟩
  rw [← validationErrors_eq_nil_iff]
  unfold validate
  rcases p.validationErrors with _ | ⟨e, rest⟩ <;> simp

end Pipeline

end Rowflow
