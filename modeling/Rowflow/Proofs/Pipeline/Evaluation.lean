import Mathlib.Logic.Function.Basic
import Rowflow.Proofs.Pipeline.TopologicalOrder

/-!
# One transform after the other

Every transform of a pipeline is given a value, in topological order, that is made of the values
given before. If a value depends on nothing but the values of the transforms that lead to its own, then the
result solves the equations it is made from (`WellFormed.evaluate_eq`), and nothing else does
(`WellFormed.eq_evaluate`).
-/

namespace Rowflow

section Along

variable {α β : Type} [DecidableEq α] (f : (α → β) → α → β)

/-- Gives values to the elements of a list, one after the other, each made of the values so far. -/
def along : (α → β) → List α → α → β
  | g, [] => g
  | g, a :: rest => along (Function.update g a (f g a)) rest

variable {f} {g : α → β} {l after : List α} {a : α}

theorem along_append : along f g (l ++ after) = along f (along f g l) after := by
  induction l generalizing g with
  | nil => rfl
  | cons b rest ih => exact ih

theorem along_of_notMem (ha : a ∉ l) : along f g l a = g a := by
  induction l generalizing g with
  | nil => rfl
  | cons b rest ih =>
    have hrest : a ∉ rest := fun h => ha (List.mem_cons_of_mem _ h)
    have hne : a ≠ b := fun h => ha (h ▸ List.mem_cons_self)
    exact (ih hrest).trans (Function.update_of_ne hne _ _)

/-- A value that is made of values given before is made of the final values. -/
theorem along_eq (hn : (l ++ a :: after).Nodup)
    (hf : ∀ g g' : α → β, (∀ b ∈ l, g b = g' b) → f g a = f g' a) :
    along f g (l ++ a :: after) a = f (along f g (l ++ a :: after)) a := by
  obtain ⟨-, hrest, hdisjoint⟩ := List.nodup_append.mp hn
  have hvalue : along f g (l ++ a :: after) a = f (along f g l) a := by
    rw [along_append, along, along_of_notMem (List.nodup_cons.mp hrest).1, Function.update_self]
  refine hvalue.trans (hf _ _ fun b hb => ?_)
  have hne : b ≠ a := hdisjoint b hb a List.mem_cons_self
  have hb' : b ∉ after := fun h => hdisjoint b hb b (List.mem_cons_of_mem _ h) rfl
  rw [along_append, along, along_of_notMem hb', Function.update_of_ne hne]

end Along

namespace Pipeline

variable {p : Pipeline} {β : Type}

/-- The transforms, each behind those that lead to it. -/
def order (p : Pipeline) : List String := (HopGraph.ofPipeline p).topologicalOrder.getD []

/-- Gives every transform a value, one after the other. -/
def evaluate (p : Pipeline) (f : (String → β) → String → β) (start : β) : String → β :=
  along f (fun _ => start) p.order

/-- **An evaluation** solves its equations. -/
theorem WellFormed.evaluate_eq (hp : p.WellFormed) {order : List String}
    (hord : (HopGraph.ofPipeline p).topologicalOrder = some order)
    {f : (String → β) → String → β} (start : β)
    (hf : ∀ b g g', (∀ a, (a, b) ∈ p.edges → g a = g' a) → f g b = f g' b) {b : String}
    (hb : b ∈ p.ids) : p.evaluate f start b = f (p.evaluate f start) b := by
  obtain ⟨hperm, hforward⟩ := hp.forward hord
  unfold evaluate Pipeline.order
  rw [hord, Option.getD_some]
  obtain ⟨before, after, rfl⟩ := List.append_of_mem (hperm.mem_iff.mpr hb)
  refine along_eq (hperm.nodup_iff.mpr hp.ids_nodup) fun g g' hg => hf b g g' fun a hab => ?_
  refine hg a (hforward before b after rfl a (HopGraph.mem_predecessors.mpr ?_))
  rwa [hp.graph_edges]

/-- Whatever solves the equations is the evaluation. -/
theorem WellFormed.eq_evaluate (hp : p.WellFormed) {order : List String}
    (hord : (HopGraph.ofPipeline p).topologicalOrder = some order)
    {f : (String → β) → String → β} (start : β)
    (hf : ∀ b g g', (∀ a, (a, b) ∈ p.edges → g a = g' a) → f g b = f g' b) {g : String → β}
    (hg : ∀ b ∈ p.ids, g b = f g b) : ∀ b, b ∈ p.ids → g b = p.evaluate f start b := by
  refine (hp.ranked hord).induction fun b ih hb => ?_
  have hstep : f g b = f (p.evaluate f start) b :=
    hf b _ _ fun a hab => ih a hab (hp.mem_of_edge hab).1
  rw [hg b hb, hstep, ← hp.evaluate_eq hord start hf hb]

end Pipeline

end Rowflow
