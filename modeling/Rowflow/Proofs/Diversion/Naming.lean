import Rowflow.Proofs.Diversion.Recall
import Rowflow.Proofs.Row.Names

/-!
# Diagnoses by name

A name stands for the first field that has it, and the fields of a diagnosis are added behind the
others. So a row that is diverted keeps all values that it had by name, and its diagnosis is read by
name as far as its names are new (`Routing.route_named`). A row that is diverted for the second time
under the same names shows its first diagnosis (`Routing.exists_hidden_diagnosis`).
-/

namespace Rowflow

/-! ### Diagnoses -/

/-- What is read by name in the entry `d`, which is `e` with a diagnosis: the values of `e`, and the
diagnosis as far as its names are new. -/
structure Entry.Named (e : Entry) (h : ErrorHandling) (why : Diagnosis) (d : Entry) : Prop where
  kept : ∀ name ∈ e.layout.names, d.row.valueOf? d.layout name = e.row.valueOf? e.layout name
  /-- A count that is no 64-bit integer is read as a negative one. -/
  count : h.countField ∉ e.layout.names →
    ∃ n : Int64, n.toUInt64.toNat = max why.count.toNat 1 ∧
      (why.count.toNat < 2 ^ 63 → n.toInt = (max why.count.toNat 1 : Nat)) ∧
      (2 ^ 63 ≤ why.count.toNat → n.toInt = (why.count.toNat : Int) - 2 ^ 64) ∧
      d.row.valueOf? d.layout h.countField = some (.integer n)
  description : h.descriptionField ∉ e.layout.names → h.descriptionField ≠ h.countField →
    d.row.valueOf? d.layout h.descriptionField = some (.string why.description)
  fields : h.fieldsField ∉ e.layout.names → h.fieldsField ∉ [h.countField, h.descriptionField] →
    d.row.valueOf? d.layout h.fieldsField = some (why.fields.elim .null .string)
  codes : h.codesField ∉ e.layout.names →
    h.codesField ∉ [h.countField, h.descriptionField, h.fieldsField] →
    d.row.valueOf? d.layout h.codesField = some (why.codes.elim .null .string)

theorem Diagnosis.toInt_weight_of_le {why : Diagnosis} (h : 2 ^ 63 ≤ why.count.toNat) :
    why.weight.toInt64.toInt = (why.count.toNat : Int) - 2 ^ 64 := by
  have hweight : why.weight.toBitVec.toNat = why.count.toNat := by
    have := why.toNat_weight
    rw [UInt64.toNat_toBitVec]
    omega
  rw [← Int64.toInt_toBitVec, UInt64.toBitVec_toInt64, BitVec.toInt_eq_toNat_cond, hweight,
    if_neg (by omega)]
  rfl

theorem Entry.valueOf?_diagnosis {e : Entry} (hsize : e.row.size = e.layout.size)
    (h : ErrorHandling) (why : Diagnosis) {name : String} (hname : name ∉ e.layout.names) :
    (e.row.append why.values).valueOf? (h.errorLayout e.layout) name =
      if h.countField = name then some (.integer why.weight.toInt64)
      else if h.descriptionField = name then some (.string why.description)
      else if h.fieldsField = name then some (why.fields.elim .null .string)
      else if h.codesField = name then some (why.codes.elim .null .string)
      else none := by
  rw [h.errorLayout_eq, Row.valueOf?_append_of_notMem hsize hname, why.values_eq]
  unfold ErrorHandling.diagnostics
  rw [Row.valueOf?_cons, Row.valueOf?_cons, Row.valueOf?_cons, Row.valueOf?_cons]
  rfl

theorem Entry.named {e : Entry} (hsize : e.row.size = e.layout.size) (h : ErrorHandling)
    (why : Diagnosis) : e.Named h why ⟨h.errorLayout e.layout, e.row.append why.values⟩ where
  kept name hname := by
    rw [h.errorLayout_eq]
    exact Row.valueOf?_append_of_mem hsize hname
  count hnew := by
    refine ⟨why.weight.toInt64, ?_, Diagnosis.toInt_weight, Diagnosis.toInt_weight_of_le, ?_⟩
    · rw [UInt64.toUInt64_toInt64, why.toNat_weight]
    · rw [valueOf?_diagnosis hsize h why hnew, if_pos rfl]
  description hnew hne := by
    rw [valueOf?_diagnosis hsize h why hnew, if_neg hne.symm, if_pos rfl]
  fields hnew hne := by
    obtain ⟨hcount, hdescription⟩ : h.fieldsField ≠ h.countField ∧
        h.fieldsField ≠ h.descriptionField := by simpa using hne
    rw [valueOf?_diagnosis hsize h why hnew, if_neg hcount.symm, if_neg hdescription.symm,
      if_pos rfl]
  codes hnew hne := by
    obtain ⟨hcount, hdescription, hfields⟩ : h.codesField ≠ h.countField ∧
        h.codesField ≠ h.descriptionField ∧ h.codesField ≠ h.fieldsField := by simpa using hne
    rw [valueOf?_diagnosis hsize h why hnew, if_neg hcount.symm, if_neg hdescription.symm,
      if_neg hfields.symm, if_pos rfl]

/-! ### Any number of uses -/

namespace Routing

/-- **Diagnoses by name.** Whatever was done with the diversions before, and whatever is done while the
row is on its way, in the entry that is added for an accepted row every field of the row has the value
that it had, and a diagnostic field has the value of this diagnosis unless its name is taken by a field
of the row or by an earlier diagnostic field. -/
theorem route_named {uses : List Use} {i : Nat} {h : ErrorHandling}
    (hi : (handlings uses)[i]? = some h) {e : Entry} (hsize : e.row.size = e.layout.size)
    {why : Diagnosis} {between : List Use} (hbetween : .send i ∉ between)
    (hok : ((run uses).routeDuring i e why (·.after between)).2 = some (.ok ())) :
    ∃ d, e.Named h why d ∧ ((run uses).routeDuring i e why (·.after between)).1.accepted =
      Function.update (((run uses).call i e why).1.after between).accepted i
        ((run uses).accepted i ++ [d]) := by
  obtain ⟨hlt, hhandling⟩ := router_of_handlings hi
  have haccepted := (routeDuring_accepted (coherent_run uses) hlt e why hbetween).1 hok
  rw [hhandling] at haccepted
  exact ⟨_, Entry.named hsize h why, haccepted⟩

/-! ### A second diagnosis -/

namespace Again

/-- The first diagnosis. -/
def first : Diagnosis := ⟨1, "first", none, none⟩

/-- The second diagnosis. -/
def second : Diagnosis := ⟨2, "second", some "n", none⟩

/-- A row is diverted to a transform that diverts rows itself. -/
def uses (handling : ErrorHandling) : List Use :=
  [.add "a" { target := "b" } 10 false, .add "b" handling 10 false,
    .call 0 ⟨⟨[⟨"n", .integer, -1, -1⟩]⟩, ⟨[.integer 1]⟩⟩ first, .send 0]

/-- The row with its first diagnosis. -/
def entry : Entry :=
  ⟨⟨[⟨"n", .integer, -1, -1⟩, ⟨"nr_errors", .integer, -1, -1⟩,
      ⟨"error_description", .string, -1, -1⟩, ⟨"error_fields", .string, -1, -1⟩,
      ⟨"error_codes", .string, -1, -1⟩]⟩,
    ⟨[.integer 1, .integer 1, .string "first", .null, .null]⟩⟩

/-- New names for the second diagnosis, two of them the same. -/
def handling : ErrorHandling where
  target := "c"
  countField := "count"
  descriptionField := "text"
  fieldsField := "fields"
  codesField := "count"

end Again

/-- The second diagnosis is read by its own names, but the codes, whose name is taken. -/
theorem route_named_again : (run (Again.uses Again.handling)).accepted 0 = [Again.entry] ∧
    (handlings (Again.uses Again.handling))[1]? = some Again.handling ∧
    Again.entry.row.size = Again.entry.layout.size ∧ Use.send 1 ∉ [Use.drain 0] ∧
    ((run (Again.uses Again.handling)).routeDuring 1 Again.entry Again.second
      (·.after [.drain 0])).2 = some (.ok ()) ∧
    ((((run (Again.uses Again.handling)).routeDuring 1 Again.entry Again.second
        (·.after [.drain 0])).1.accepted 1).map fun d =>
        ["n", "error_description", "count", "text", "fields"].map (d.row.valueOf? d.layout)) =
      [[some (.integer 1), some (.string "first"), some (.integer 2), some (.string "second"),
        some (.string "n")]] ∧
    ∃ d, Again.entry.Named Again.handling Again.second d ∧
      ((run (Again.uses Again.handling)).routeDuring 1 Again.entry Again.second
        (·.after [.drain 0])).1.accepted =
        Function.update (((run (Again.uses Again.handling)).call 1 Again.entry Again.second).1.after
          [.drain 0]).accepted 1 ((run (Again.uses Again.handling)).accepted 1 ++ [d]) :=
  have hok : ((run (Again.uses Again.handling)).routeDuring 1 Again.entry Again.second
      (·.after [.drain 0])).2 = some (.ok ()) := by decide +kernel
  ⟨rfl, rfl, rfl, by simp, hok, by decide +kernel, route_named rfl rfl (by simp) hok⟩

/-- It is not so that the description of a diversion can always be read by its name. -/
theorem exists_hidden_diagnosis : ¬ ∀ (uses : List Use) (i : Nat) (h : ErrorHandling) (e : Entry)
    (why : Diagnosis) (d : Entry), (handlings uses)[i]? = some h → e.row.size = e.layout.size →
    ((run uses).route i e why).2 = some (.ok ()) →
    (((run uses).route i e why).1.accepted i).getLast? = some d →
    d.row.valueOf? d.layout h.descriptionField = some (.string why.description) := by
  intro h
  have hhidden := h (Again.uses { target := "c" }) 1 { target := "c" } Again.entry Again.second
    ⟨({ target := "c" } : ErrorHandling).errorLayout Again.entry.layout,
      Again.entry.row.append Again.second.values⟩ rfl rfl (by decide +kernel) (by decide +kernel)
  revert hhidden
  decide +kernel

end Routing

end Rowflow
