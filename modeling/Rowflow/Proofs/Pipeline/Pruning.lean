import Mathlib.Tactic.Common
import Rowflow.Engine.Topology
import Rowflow.Pipeline.Validation

/-!
# Disabled hops

A disabled hop is looked at once, to see whether its ends are transforms. So disabled hops between
transforms of the pipeline can be deleted (`Pipeline.Prunes`) without any effect: what is wrong with
the pipeline, its hop graph and its topology stay the same (`Pipeline.unaffected_by_disabled`). It does not
matter what such a hop would do if it were enabled, like closing a cycle or repeating another hop.
-/

namespace Rowflow.Pipeline

/-- `Prunes ids hops left`: the hops `left` are what is left of `hops` when some disabled hops are
deleted that lead from one of the names `ids` to another one. -/
inductive Prunes (ids : List String) : List Hop → List Hop → Prop where
  | nil : Prunes ids [] []
  | keep (h : Hop) {hops left : List Hop} (rest : Prunes ids hops left) :
      Prunes ids (h :: hops) (h :: left)
  | delete (h : Hop) {hops left : List Hop} (disabled : h.enabled = false)
      (origin : h.origin ∈ ids) (target : h.target ∈ ids) (rest : Prunes ids hops left) :
      Prunes ids (h :: hops) left

variable {ids : List String} {hops left : List Hop}

theorem Prunes.filter_enabled (h : Prunes ids hops left) :
    left.filter (·.enabled) = hops.filter (·.enabled) := by
  induction h with
  | nil => rfl
  | keep h _ ih => rw [List.filter_cons, List.filter_cons, ih]
  | delete h disabled _ _ _ ih => rw [List.filter_cons_of_neg (by rw [disabled]; decide), ih]

/-- Nothing is wrong with a disabled hop between transforms. -/
theorem hopErrors_of_disabled {h : Hop} (disabled : h.enabled = false) (origin : h.origin ∈ ids)
    (target : h.target ∈ ids) (seen : List (String × String)) : hopErrors ids seen h = [] := by
  simp [hopErrors, disabled, origin, target]

/-- The hops that are left have the errors that all had: a deleted one had none, and the hops after it
were not compared with it. -/
theorem Prunes.hopListErrors (h : Prunes ids hops left) (seen : List (String × String)) :
    hopListErrors ids seen left = hopListErrors ids seen hops := by
  induction h generalizing seen with
  | nil => rfl
  | keep h _ ih => rw [Pipeline.hopListErrors, Pipeline.hopListErrors, ih]
  | delete h disabled origin target _ ih =>
    have hseen : (if h.enabled then (h.origin, h.target) :: seen else seen) = seen :=
      if_neg (by rw [disabled]; decide)
    rw [Pipeline.hopListErrors, hopErrors_of_disabled disabled origin target, hseen, List.nil_append,
      ih]

section Deleted

variable {p : Pipeline} (h : Prunes p.ids p.hops left)
include h

theorem Prunes.enabledHops : { p with hops := left }.enabledHops = p.enabledHops := h.filter_enabled

theorem Prunes.ofPipeline :
    HopGraph.ofPipeline { p with hops := left } = HopGraph.ofPipeline p := by
  have hedges : { p with hops := left }.edges = p.edges := by
    unfold Pipeline.edges
    rw [h.enabledHops]
    rfl
  unfold HopGraph.ofPipeline
  rw [hedges]
  rfl

theorem Prunes.structuralErrors :
    { p with hops := left }.structuralErrors = p.structuralErrors := by
  unfold Pipeline.structuralErrors
  rw [← h.hopListErrors []]
  rfl

theorem Prunes.validationErrors :
    { p with hops := left }.validationErrors = p.validationErrors := by
  unfold Pipeline.validationErrors
  rw [h.structuralErrors, h.ofPipeline]

theorem Prunes.build : Topology.build { p with hops := left } = Topology.build p := by
  unfold Topology.build
  rw [h.enabledHops]
  rfl

end Deleted

/-- **Disabled hops** between transforms of a pipeline have no effect: the same is wrong with the
pipeline and the same is logged when some of them are deleted, the hop graph is the same, and with it
all that is read off its nodes and edges, and so is what is laid out for a run. -/
theorem unaffected_by_disabled {p : Pipeline} {left : List Hop} (h : Prunes p.ids p.hops left) :
    let q := { p with hops := left }
    (q.validate = p.validate ∧ q.validationMessages = p.validationMessages) ∧
      HopGraph.ofPipeline q = HopGraph.ofPipeline p ∧ Topology.build q = Topology.build p := by
  intro q
  have herrors : q.validationErrors = p.validationErrors := h.validationErrors
  refine ⟨⟨?_, ?_⟩, h.ofPipeline, h.build⟩
  · unfold Pipeline.validate
    rw [herrors]
  · unfold Pipeline.validationMessages
    rw [herrors]

/-! Two transforms with a hop between them, and two disabled hops: one repeats it, the other leads
back. -/

namespace Looped

def there : Hop := ⟨"a", "b", true⟩

def again : Hop := ⟨"a", "b", false⟩

def back : Hop := ⟨"b", "a", false⟩

def pipeline : Pipeline where
  transforms :=
    [⟨"a", "dummy", 1, .copy, true, none, .empty⟩, ⟨"b", "dummy", 2, .copy, false, none, .empty⟩]
  hops := [again, there, back]

end Looped

theorem unaffected_by_disabled_looped :
    -- the disabled hops would be refused if they were enabled
    { Looped.pipeline with hops := [{ Looped.again with enabled := true }, Looped.there] }.validate =
      .error [.duplicateHop "a" "b"] ∧
    { Looped.pipeline with hops := [Looped.there, { Looped.back with enabled := true }] }.validate =
      .error [.cyclicHop ["a", "b", "a"]] ∧
    Prunes Looped.pipeline.ids Looped.pipeline.hops [Looped.there] ∧
    Looped.pipeline.validate = .ok () ∧
    (HopGraph.ofPipeline Looped.pipeline).topologicalOrder = some ["a", "b"] ∧
    (Topology.build Looped.pipeline).channels = [.hop ⟨"a", 0⟩ "b", .injector "a"] := by
  have pruned : Prunes Looped.pipeline.ids Looped.pipeline.hops [Looped.there] :=
    .delete _ rfl (by decide) (by decide) (.keep _ (.delete _ rfl (by decide) (by decide) .nil))
  obtain ⟨⟨hvalidate, -⟩, hgraph, hbuild⟩ := unaffected_by_disabled pruned
  refine ⟨by decide, by decide, pruned, ?_, ?_, ?_⟩
  · rw [← hvalidate]
    decide
  · rw [← hgraph]
    decide
  · rw [← hbuild]
    decide

/-- A disabled hop that leads nowhere is noticed. -/
example :
    { Looped.pipeline with hops := [Looped.there, ⟨"b", "c", false⟩] }.validate =
      .error [.unresolvedHop "b" "c" "c"] := by decide

end Rowflow.Pipeline
