import Mathlib.Data.List.Forall2
import Rowflow.Row.Basic

/-!
# Conformance

A row conforms to a layout if it has a value for every field, and every value that is not null has
the kind of its field. Conformance lasts when a value is replaced by one that fits
(`Row.conforms_set`), also if the field changes its kind with it, and when fitting values and their
fields are added at the end (`Row.conforms_append`).
-/

namespace Rowflow

theorem Layout.field?_set {l : Layout} {i : Nat} {f : Field} (h : l.field? i = some f) (g : Field) :
    (l.set i g).field? i = some g :=
  List.getElem?_set_self (List.getElem?_eq_some_iff.mp h).1

theorem Row.conforms_iff {r : Row} {l : Layout} :
    r.conforms l = true ↔ List.Forall₂ (fun v f => v.fits f.kind = true) r.values l.fields := by
  rw [List.forall₂_iff_zip, conforms, Bool.and_eq_true, decide_eq_true_iff, List.all_eq_true]
  constructor
  · rintro ⟨hsize, hall⟩
    exact ⟨hsize, fun hm => hall _ hm⟩
  · rintro ⟨hsize, hall⟩
    exact ⟨hsize, fun x hm => hall hm⟩

theorem Row.fits_of_conforms {r : Row} {l : Layout} (h : r.conforms l = true) {i : Nat} {v : Value}
    {f : Field} (hv : r.get? i = some v) (hf : l.field? i = some f) : v.fits f.kind = true := by
  obtain ⟨hv', rfl⟩ := List.getElem?_eq_some_iff.mp hv
  obtain ⟨hf', rfl⟩ := List.getElem?_eq_some_iff.mp hf
  exact (List.forall₂_iff_get.mp (conforms_iff.mp h)).2 i hv' hf'

theorem Row.conforms_set {r : Row} {l : Layout} (h : r.conforms l = true) (i : Nat) {v : Value}
    {f : Field} (hv : v.fits f.kind = true) : (r.set i v).conforms (l.set i f) = true := by
  rw [conforms_iff] at h ⊢
  refine List.forall₂_iff_get.mpr ⟨?_, fun j hj hj' => ?_⟩
  · simpa [Row.set, Layout.set] using h.length_eq
  · simp only [Row.set, Layout.set, List.get_eq_getElem, List.getElem_set]
    split
    · exact hv
    · exact (List.forall₂_iff_get.mp h).2 j (by simpa [Row.set] using hj)
        (by simpa [Layout.set] using hj')

theorem Row.conforms_append {r : Row} {l : Layout} {vs : List Value} {fs : List Field}
    (h : r.conforms l = true)
    (hs : List.Forall₂ (fun v (f : Field) => Value.fits v f.kind = true) vs fs) :
    (r.append vs).conforms ⟨l.fields ++ fs⟩ = true :=
  conforms_iff.mpr (List.rel_append (conforms_iff.mp h) hs)

/-- The row of an entry conforms to its layout. -/
def Entry.Conforms (e : Entry) : Prop := e.row.conforms e.layout = true

instance (e : Entry) : Decidable e.Conforms := inferInstanceAs (Decidable (_ = true))

end Rowflow
