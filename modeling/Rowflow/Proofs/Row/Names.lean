import Rowflow.Engine.Diversion
import Rowflow.Proofs.Table
import Rowflow.Row.Json

/-!
# Fields by name

A row is read by name in two ways: `Row.valueOf?` looks for the first field with the name, and
`Row.toJson` makes an object of all names and values. The object has every name of the layout once and
no other name, with the value of the last field with the name (`Row.read_by_name`). So both ways agree
on names that do not repeat, and a row that is diverted twice shows different diagnoses
(`Row.exists_shadowed`).
-/

namespace Rowflow.Row

variable {r : Row} {l : Layout} {name : String} {vs : List Value} {fs : List Field}

/-- The names of the fields with the values, as far as there are both. -/
def named (r : Row) (l : Layout) : List (String × Value) := l.names.zip r.values

/-- The value of the last field with the given name. -/
def lastValueOf? (r : Row) (l : Layout) (name : String) : Option Value :=
  (Row.mk r.values.reverse).valueOf? ⟨l.fields.reverse⟩ name

/-! ### Looking up names -/

theorem valueOf?_cons (v : Value) (f : Field) :
    (Row.mk (v :: vs)).valueOf? ⟨f :: fs⟩ name =
      if f.name = name then some v else (Row.mk vs).valueOf? ⟨fs⟩ name := by
  unfold valueOf? Layout.indexOf?
  rw [List.findIdx?_cons]
  by_cases hname : f.name = name
  · rw [if_pos (decide_eq_true hname), if_pos hname]
    rfl
  · rw [if_neg fun h => hname (of_decide_eq_true h), if_neg hname]
    dsimp only
    generalize List.findIdx? _ fs = found
    rcases found with _ | i <;> rfl

theorem valueOf?_eq_lookup (r : Row) (l : Layout) (name : String) :
    r.valueOf? l name = (r.named l).lookup name := by
  obtain ⟨vs⟩ := r
  obtain ⟨fs⟩ := l
  induction fs generalizing vs with
  | nil => rfl
  | cons f fs ih =>
    rcases vs with _ | ⟨v, vs⟩
    · exact Option.bind_fun_none _
    · have hnamed : (Row.mk (v :: vs)).named ⟨f :: fs⟩ = (f.name, v) :: (Row.mk vs).named ⟨fs⟩ := rfl
      rw [valueOf?_cons, hnamed, ih]
      by_cases h : f.name = name
      · rw [if_pos h, h, List.lookup_cons_self]
      · rw [if_neg h, lookup_cons_of_ne (Ne.symm h)]

theorem length_names (hsize : r.size = l.size) : l.names.length = r.values.length := by
  rw [Layout.names, List.length_map]
  exact hsize.symm

theorem keys_named (hsize : r.size = l.size) : (r.named l).map (·.1) = l.names :=
  List.map_fst_zip (Nat.le_of_eq (length_names hsize))

theorem named_append (hsize : r.size = l.size) :
    (r.append vs).named ⟨l.fields ++ fs⟩ = r.named l ++ (Row.mk vs).named ⟨fs⟩ := by
  have hnames : (Layout.mk (l.fields ++ fs)).names = l.names ++ (Layout.mk fs).names :=
    List.map_append
  rw [named, hnames]
  exact List.zip_append (length_names hsize)

/-- A field that is added does not hide one that was there. -/
theorem valueOf?_append_of_mem (hsize : r.size = l.size) (hname : name ∈ l.names) :
    (r.append vs).valueOf? ⟨l.fields ++ fs⟩ name = r.valueOf? l name := by
  obtain ⟨v, hv⟩ := exists_lookup ((keys_named hsize).symm ▸ hname)
  rw [valueOf?_eq_lookup, valueOf?_eq_lookup, named_append hsize, List.lookup_append, hv,
    Option.some_or]

/-- A field is found among those that are added if its name is new. -/
theorem valueOf?_append_of_notMem (hsize : r.size = l.size) (hname : name ∉ l.names) :
    (r.append vs).valueOf? ⟨l.fields ++ fs⟩ name = (Row.mk vs).valueOf? ⟨fs⟩ name := by
  have hnone := lookup_eq_none (l := r.named l) ((keys_named hsize).symm ▸ hname)
  rw [valueOf?_eq_lookup, valueOf?_eq_lookup, named_append hsize, List.lookup_append, hnone,
    Option.none_or]

theorem lastValueOf?_eq_lookup (hsize : r.size = l.size) (name : String) :
    r.lastValueOf? l name = (r.named l).reverse.lookup name := by
  rw [lastValueOf?, valueOf?_eq_lookup]
  unfold named
  rw [List.zip_eq_zipWith, List.zip_eq_zipWith, List.reverse_zipWith (length_names hsize),
    Layout.names, Layout.names, List.map_reverse]

theorem toJson_eq (r : Row) (l : Layout) :
    r.toJson l = .object (sortEntries ((r.named l).map fun (name, v) => (name, v.toJson))) := by
  unfold toJson named Layout.names
  rw [List.zip_map_left, List.map_map]
  rfl

/-! ### The two readings -/

/-- **Reading by name.** The object that is made of a row has the names of the layout and no others,
each once and in ascending order. Under a name it has the JSON form of the value that the last field
with this name has, and by name the row gives the value of the first one; they are the same if the name
does not repeat. -/
theorem read_by_name (hsize : r.size = l.size) :
    ∃ members, r.toJson l = .object members ∧ Ascending members ∧
      (∀ name, name ∈ members.map (·.1) ↔ name ∈ l.names) ∧
      ∀ name ∈ l.names, ∃ first last, r.valueOf? l name = some first ∧
        r.lastValueOf? l name = some last ∧ members.lookup name = some last.toJson ∧
        (l.names.count name = 1 → last = first) := by
  have hkeys := keys_named hsize
  refine ⟨_, toJson_eq r l, ascending_sortEntries _, fun name => ?_, fun name hname => ?_⟩
  · rw [mem_keys_sortEntries, ← hkeys, List.map_map]
    rfl
  · rw [← hkeys] at hname
    obtain ⟨first, hfirst⟩ := exists_lookup hname
    have hlast : name ∈ (r.named l).reverse.map (·.1) := by
      rwa [List.map_reverse, List.mem_reverse]
    obtain ⟨last, hlast⟩ := exists_lookup hlast
    refine ⟨first, last, ?_, ?_, ?_, fun hcount => ?_⟩
    · rw [valueOf?_eq_lookup, hfirst]
    · rw [lastValueOf?_eq_lookup hsize, hlast]
    · rw [lookup_sortEntries, ← List.map_reverse, lookup_map, hlast]
      rfl
    · rw [← hkeys] at hcount
      rw [lookup_reverse hcount, hfirst] at hlast
      exact (Option.some.inj hlast).symm

/-! A row that one transform has diverted, and the next one as well. -/

namespace Shadowed

def handling : ErrorHandling := { target := "rejects" }

def layout : Layout := handling.errorLayout (handling.errorLayout ⟨[{ name := "n", kind := .integer }]⟩)

def row : Row :=
  ((Row.mk [.integer 7]).append (Diagnosis.values ⟨1, "first", none, none⟩)).append
    (Diagnosis.values ⟨1, "second", none, none⟩)

end Shadowed

theorem read_by_name_shadowed :
    Shadowed.row.size = Shadowed.layout.size ∧
    -- the number of the row is there once, the description twice
    (Shadowed.layout.names.count "n" = 1 ∧ Shadowed.layout.names.count "error_description" = 2) ∧
    ∃ members, Shadowed.row.toJson Shadowed.layout = .object members ∧
      (members.lookup "n" = some (.integer 7) ∧
        Shadowed.row.valueOf? Shadowed.layout "n" = some (.integer 7)) ∧
      members.lookup "error_description" = some (.string "second") ∧
      Shadowed.row.valueOf? Shadowed.layout "error_description" = some (.string "first") := by
  have hsize : Shadowed.row.size = Shadowed.layout.size := by decide
  have hn : Shadowed.row.valueOf? Shadowed.layout "n" = some (.integer 7) := by decide
  have hdescription : Shadowed.row.lastValueOf? Shadowed.layout "error_description" =
    some (.string "second") := by decide
  obtain ⟨members, hmembers, -, -, hread⟩ := read_by_name hsize
  refine ⟨hsize, by decide, members, hmembers, ⟨?_, hn⟩, ?_, by decide⟩
  · obtain ⟨first, last, hfirst, -, hlookup, honce⟩ := hread "n" (by decide)
    rw [hlookup, honce (by decide), ← Option.some.inj (hn.symm.trans hfirst)]
    rfl
  · obtain ⟨-, last, -, hlast, hlookup, -⟩ := hread "error_description" (by decide)
    rw [hlookup, ← Option.some.inj (hdescription.symm.trans hlast)]
    rfl

theorem exists_shadowed : ∃ (r : Row) (l : Layout) (name : String), r.size = l.size ∧
    name ∈ l.names ∧ (r.toJson l).member? name ≠ (r.valueOf? l name).map Value.toJson := by
  have hfirst : Shadowed.row.valueOf? Shadowed.layout "error_description" =
    some (.string "first") := by decide
  have hlast : (Shadowed.row.toJson Shadowed.layout).member? "error_description" =
    some (.string "second") := by rfl
  refine ⟨Shadowed.row, Shadowed.layout, "error_description", by decide, by decide, ?_⟩
  rw [hfirst, hlast]
  simp [Value.toJson]

end Rowflow.Row
