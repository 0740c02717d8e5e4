import Mathlib.Data.List.Basic
import Mathlib.Tactic.Common
import Rowflow.Engine.Orchestrator
import Rowflow.Proofs.Pipeline.WellFormed
import Rowflow.Proofs.Table

/-!
# What resolving a pipeline gives

A resolved transform has the definition that the pipeline gives it and the constructor of its type
(`Orchestrator.resolved_of_new`), and with the registry of the built-in types the instances are what
`Builtin.ofSpec` makes (`Orchestrator.builtin_of_new`). Every transform of the pipeline is resolved
(`Orchestrator.exists_resolved`), and more instances can be made of it if constructors do not care
which one they make (`Orchestrator.instantiates`).
-/

namespace Rowflow

/-! ### Registries -/

namespace Registry

variable {σ : Type} {registry : Registry σ}

theorem resolveOne_ok {spec : TransformSpec} {n : Nat} {r : Resolved σ}
    (h : registry.resolveOne spec n = .ok r) :
    r.spec = spec ∧ registry.find? spec.type = some r.make ∧ ∃ t, r.instantiate n = .ok t := by
  unfold resolveOne at h
  rcases hm : registry.find? spec.type with _ | make <;> simp only [hm] at h
  · cases h
  · rcases hi : Resolved.instantiate ⟨spec, make⟩ n with e | t <;>
      simp only [hi, bind, Except.bind, pure, Except.pure] at h <;> cases h
    exact ⟨rfl, rfl, t, hi⟩

theorem resolveAll_ok {specs : List TransformSpec} {map map' : TransformMap σ}
    (h : registry.resolveAll specs map = .ok map') {id : String} {r : Resolved σ}
    (hr : map'.find? id = some r) :
    map.find? id = some r ∨ (r.spec ∈ specs ∧ r.spec.id = id ∧
      registry.find? r.spec.type = some r.make ∧ ∃ t, r.instantiate 1 = .ok t) := by
  induction specs generalizing map with
  | nil =>
    cases h
    exact Or.inl hr
  | cons spec rest ih =>
    unfold resolveAll at h
    rcases ho : registry.resolveOne spec 1 with e | r' <;> simp only [ho, bind, Except.bind] at h
    · cases h
    · obtain ⟨hspec, hmake, hinst⟩ := resolveOne_ok ho
      rcases ih h with hfind | ⟨hmem, hrest⟩
      · rw [Table.find?_insert] at hfind
        split at hfind
        · cases hfind
          rename_i hid
          rw [hspec]
          exact Or.inr ⟨List.mem_cons_self, hid.symm, hmake, hinst⟩
        · exact Or.inl hfind
      · exact Or.inr ⟨List.mem_cons_of_mem _ hmem, hrest⟩

/-- What has been resolved stays, and every definition is. -/
theorem resolveAll_find? {specs : List TransformSpec} {map map' : TransformMap σ}
    (h : registry.resolveAll specs map = .ok map') {id : String}
    (hid : id ∈ specs.map (·.id) ∨ ∃ r, map.find? id = some r) : ∃ r, map'.find? id = some r := by
  induction specs generalizing map with
  | nil =>
    cases h
    exact hid.resolve_left List.not_mem_nil
  | cons spec rest ih =>
    unfold resolveAll at h
    rcases ho : registry.resolveOne spec 1 with e | r <;> simp only [ho, bind, Except.bind] at h
    · cases h
    · refine ih h ?_
      simp only [Table.find?_insert]
      by_cases hspec : id = spec.id
      · exact Or.inr ⟨r, if_pos hspec⟩
      · rw [List.map_cons, List.mem_cons] at hid
        simp only [if_neg hspec]
        exact hid.imp_left (Or.resolve_left · hspec)

/-- The constructors are functions of the definition: which instance is made does not matter. -/
def Uniform (registry : Registry σ) : Prop :=
  ∀ type make, registry.find? type = some make → ∀ spec n n', make spec n = make spec n'

theorem find?_builtins {embed : Builtin → σ} {type : String} {make : Constructor σ}
    (h : (builtins embed).find? type = some make) :
    make = fun spec _ => embed <$> Builtin.ofSpec spec := by
  have hfold : ∀ (types : List String) (r : Registry σ),
      (r.find? type = some make → make = fun spec _ => embed <$> Builtin.ofSpec spec) →
      (types.foldl (fun r type => r.register type fun spec _ => embed <$> Builtin.ofSpec spec)
        r).find? type = some make →
      make = fun spec _ => embed <$> Builtin.ofSpec spec := by
    intro types
    induction types with
    | nil => exact fun r hr => hr
    | cons t rest ih =>
      intro r hr
      refine ih _ fun hf => ?_
      unfold register Registry.find? at hf
      rw [Table.find?_insert] at hf
      split at hf
      · exact (Option.some.inj hf).symm
      · exact hr hf
  exact hfold _ empty (fun h => by cases h) h

theorem uniform_builtins (embed : Builtin → σ) : (builtins embed).Uniform := by
  intro type make h spec n n'
  rw [find?_builtins h]

end Registry

/-! ### Runs -/

namespace Orchestrator

variable {σ : Type} {p : Pipeline} {registry : Registry σ} {o : Orchestrator σ}

theorem new_ok (h : new p registry = .ok o) :
    p.validationErrors = [] ∧ o.pipeline = p ∧ o.state = .idle ∧
      registry.resolve p = .ok o.transforms := by
  unfold new at h
  split at h
  · rename_i hv
    rcases hr : registry.resolve p with e | ts <;> simp only [hr] at h <;> cases h
    exact ⟨hv, rfl, rfl, rfl⟩
  · cases h

/-- **A resolved transform** is one of the pipeline. -/
theorem resolved_of_new (h : new p registry = .ok o) {id : String} {r : Resolved σ}
    (hr : o.transforms.find? id = some r) :
    p.transform? id = some r.spec ∧ registry.find? r.spec.type = some r.make := by
  obtain ⟨hv, -, -, hresolve⟩ := new_ok h
  rcases Registry.resolveAll_ok hresolve hr with hnone | ⟨hmem, rfl, hmake, -⟩
  · cases hnone
  · exact ⟨(Pipeline.wellFormed_of_validationErrors hv).transform?_eq_some hmem, hmake⟩

theorem exists_resolved (h : new p registry = .ok o) {id : String} (hid : id ∈ p.ids) :
    ∃ r, o.transforms.find? id = some r :=
  Registry.resolveAll_find? (new_ok h).2.2.2 (Or.inl hid)

/-- What has been made once can be made again, unless the constructor makes a difference. -/
theorem instantiates (h : new p registry = .ok o) (hr : registry.Uniform) {id : String}
    {r : Resolved σ} (hfind : o.transforms.find? id = some r) (n : Nat) :
    ∃ state, r.instantiate n = .ok state := by
  obtain ⟨-, -, -, hresolve⟩ := new_ok h
  rcases Registry.resolveAll_ok hresolve hfind with hnone | ⟨-, -, hmake, state, hone⟩
  · cases hnone
  · refine ⟨state, ?_⟩
    unfold Resolved.instantiate at hone ⊢
    rwa [hr r.spec.type r.make hmake r.spec n 1]

theorem builtin_of_new {o : Orchestrator Builtin} (h : new p (Registry.builtins id) = .ok o)
    {name : String} {r : Resolved Builtin} (hr : o.transforms.find? name = some r) {n : Nat}
    {t : Builtin} (ht : r.instantiate n = .ok t) : Builtin.ofSpec r.spec = .ok t := by
  have hmake := Registry.find?_builtins (resolved_of_new h hr).2
  unfold Resolved.instantiate at ht
  rw [hmake] at ht
  rcases hb : Builtin.ofSpec r.spec with e | t' <;> simp only [hb, Functor.map, Except.map] at ht <;>
    cases ht
  rfl

end Orchestrator

end Rowflow
