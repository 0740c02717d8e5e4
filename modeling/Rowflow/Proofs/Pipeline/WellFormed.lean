import Mathlib.Data.List.Nodup
import Mathlib.Tactic.Common
import Rowflow.Pipeline.Validation

/-!
# Well-formed pipelines

`Pipeline.WellFormed` says in words what the structural checks of a pipeline are for: names are
distinct, every transform has a copy, hops and targets of failing rows lead to transforms, no
enabled hop is declared twice. The checks find nothing exactly then
(`structuralErrors_eq_nil_iff`).
-/

namespace Rowflow.Pipeline

/-- What holds of a pipeline apart from its having no cycle. -/
structure WellFormed (p : Pipeline) : Prop where
  ids_nodup : p.ids.Nodup
  copies_pos : ∀ t ∈ p.transforms, 0 < t.copies
  hop_ends : ∀ h ∈ p.hops, h.origin ∈ p.ids ∧ h.target ∈ p.ids
  hops_nodup : (p.enabledHops.map fun h => (h.origin, h.target)).Nodup
  targets : ∀ t ∈ p.transforms, ∀ h ∈ t.errorHandling, h.target ∈ p.ids ∧ h.target ≠ t.id

theorem duplicateIds_eq_nil_iff (seen ids : List String) :
    duplicateIds seen ids = [] ↔ ids.Nodup ∧ ∀ a ∈ ids, a ∉ seen := by
  induction ids generalizing seen with
  | nil => simp [duplicateIds]
  | cons a rest ih =>
    unfold duplicateIds
    by_cases h : a ∈ seen
    · simp [h]
    · rw [if_neg h, ih, List.nodup_cons]
      constructor
      · rintro ⟨hn, hs⟩
        refine ⟨⟨fun ha => hs a ha (by simp), hn⟩, ?_⟩
        intro b hb
        rcases List.mem_cons.mp hb with rfl | hb
        · exact h
        · exact fun hbs => hs b hb (List.mem_cons_of_mem _ hbs)
      · rintro ⟨⟨ha, hn⟩, hs⟩
        refine ⟨hn, fun b hb hbs => ?_⟩
        rcases List.mem_cons.mp hbs with rfl | hbs
        · exact ha hb
        · exact hs b (List.mem_cons_of_mem _ hb) hbs

theorem missingCopies_eq_nil_iff (p : Pipeline) :
    p.missingCopies = [] ↔ ∀ t ∈ p.transforms, 0 < t.copies := by
  simp only [missingCopies, List.map_eq_nil_iff, List.filter_eq_nil_iff, decide_eq_true_eq,
    Nat.pos_iff_ne_zero, ne_eq]

theorem hopErrors_eq_nil_iff (ids : List String) (seen : List (String × String)) (h : Hop) :
    hopErrors ids seen h = [] ↔ (h.origin ∈ ids ∧ h.target ∈ ids) ∧
      (h.enabled = true → (h.origin, h.target) ∉ seen) := by
  unfold hopErrors
  rw [List.append_eq_nil_iff, List.map_eq_nil_iff, List.filter_eq_nil_iff]
  refine and_congr (by simp) ?_
  by_cases he : h.enabled = true <;> simp [he]

theorem hopListErrors_eq_nil_iff (ids : List String) (seen : List (String × String))
    (hops : List Hop) :
    hopListErrors ids seen hops = [] ↔ (∀ h ∈ hops, h.origin ∈ ids ∧ h.target ∈ ids) ∧
      ((hops.filter (·.enabled)).map fun h => (h.origin, h.target)).Nodup ∧
      ∀ h ∈ hops, h.enabled = true → (h.origin, h.target) ∉ seen := by
  induction hops generalizing seen with
  | nil => simp [hopListErrors]
  | cons h rest ih =>
    unfold hopListErrors
    rw [List.append_eq_nil_iff, hopErrors_eq_nil_iff, ih]
    by_cases he : h.enabled = true
    · simp only [he, if_true, forall_const, List.filter_cons_of_pos he, List.map_cons,
        List.nodup_cons, List.mem_map, List.mem_filter, List.mem_cons, forall_eq_or_imp]
      constructor
      · rintro ⟨⟨h1, h2⟩, h3, h4, h5⟩
        refine ⟨⟨h1, h3⟩, ⟨?_, h4⟩, h2, fun g hg hge hgs => h5 g hg hge (Or.inr hgs)⟩
        rintro ⟨g, ⟨hg, hge⟩, heq⟩
        exact h5 g hg hge (Or.inl heq)
      · rintro ⟨⟨h1, h3⟩, ⟨h6, h4⟩, h2, h5⟩
        refine ⟨⟨h1, h2⟩, h3, h4, fun g hg hge hgs => ?_⟩
        rcases hgs with heq | hgs
        · exact h6 ⟨g, ⟨hg, hge⟩, heq⟩
        · exact h5 g hg hge hgs
    · simp [he]
      tauto

theorem targetErrors_eq_nil_iff (p : Pipeline) :
    p.transforms.filterMap (targetError? p.ids) = [] ↔
      ∀ t ∈ p.transforms, ∀ h ∈ t.errorHandling, h.target ∈ p.ids ∧ h.target ≠ t.id := by
  rw [List.filterMap_eq_nil_iff]
  refine forall₂_congr fun t _ => ?_
  unfold targetError?
  rcases t.errorHandling with _ | h
  · simp
  · by_cases h1 : h.target = t.id <;> by_cases h2 : h.target ∈ p.ids <;> simp_all

/-- **The structural checks** find nothing exactly in the well-formed pipelines. -/
theorem structuralErrors_eq_nil_iff (p : Pipeline) : p.structuralErrors = [] ↔ p.WellFormed := by
  unfold structuralErrors
  rw [List.append_eq_nil_iff, List.append_eq_nil_iff, List.append_eq_nil_iff,
    duplicateIds_eq_nil_iff, missingCopies_eq_nil_iff, hopListErrors_eq_nil_iff,
    targetErrors_eq_nil_iff]
  constructor
  · rintro ⟨⟨⟨⟨h1, -⟩, h2⟩, h3, h4, -⟩, h5⟩
    exact ⟨h1, h2, h3, h4, h5⟩
  · rintro ⟨h1, h2, h3, h4, h5⟩
    exact ⟨⟨⟨⟨h1, by simp⟩, h2⟩, h3, h4, by simp⟩, h5⟩

theorem wellFormed_of_validationErrors {p : Pipeline} (h : p.validationErrors = []) :
    p.WellFormed := by
  rw [← structuralErrors_eq_nil_iff]
  unfold validationErrors at h
  split at h
  · assumption
  · exact h

/-! ### Transforms by name -/

variable {p : Pipeline}

theorem WellFormed.transform_eq (hp : p.WellFormed) {t t' : TransformSpec}
    (ht : t ∈ p.transforms) (ht' : t' ∈ p.transforms) (h : t.id = t'.id) : t = t' :=
  List.inj_on_of_nodup_map hp.ids_nodup ht ht' h

theorem transform?_mem {id : String} {t : TransformSpec} (h : p.transform? id = some t) :
    t ∈ p.transforms ∧ t.id = id :=
  ⟨List.mem_of_find?_eq_some h, by simpa using List.find?_some h⟩

theorem WellFormed.transform?_eq_some (hp : p.WellFormed) {t : TransformSpec}
    (ht : t ∈ p.transforms) : p.transform? t.id = some t := by
  rcases h : p.transform? t.id with _ | t'
  · have := List.find?_eq_none.mp h t ht
    simp at this
  · obtain ⟨ht', hid⟩ := transform?_mem h
    rw [hp.transform_eq ht' ht hid]

theorem mem_ids {id : String} : id ∈ p.ids ↔ ∃ t ∈ p.transforms, t.id = id := List.mem_map

end Rowflow.Pipeline
