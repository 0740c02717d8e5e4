import Mathlib.Data.List.Induction
import Mathlib.Tactic.Common
import Rowflow.Table

/-!
# Entries in the order of their keys

What is put under a key is found there, and nothing else changes (`lookup_insertEntry`). A list that
is put into order has every key once (`ascending_sortEntries`), the keys that it had before
(`mem_keys_sortEntries`), and under each of them what the last entry with that key has
(`lookup_sortEntries`).
-/

namespace Rowflow

variable {α : Type}

theorem lookup_cons_of_ne {k a : String} (h : k ≠ a) (v : α) (l : List (String × α)) :
    List.lookup k ((a, v) :: l) = l.lookup k := by
  rw [List.lookup_cons, beq_eq_false_iff_ne.mpr h]

theorem lookup_map {β : Type} (f : α → β) (k : String) (l : List (String × α)) :
    (l.map fun (k, v) => (k, f v)).lookup k = (l.lookup k).map f := by
  induction l with
  | nil => rfl
  | cons e rest ih =>
    obtain ⟨a, v⟩ := e
    by_cases h : k = a
    · rw [List.map_cons, h, List.lookup_cons_self, List.lookup_cons_self]
      rfl
    · rw [List.map_cons, lookup_cons_of_ne h, lookup_cons_of_ne h, ih]

theorem exists_lookup {k : String} {l : List (String × α)} (h : k ∈ l.map (·.1)) :
    ∃ v, l.lookup k = some v := by
  obtain ⟨e, he, rfl⟩ := List.mem_map.mp h
  exact Option.isSome_iff_exists.mp (List.lookup_isSome_iff.mpr ⟨e, he, beq_self_eq_true _⟩)

theorem lookup_eq_none {k : String} {l : List (String × α)} (h : k ∉ l.map (·.1)) :
    l.lookup k = none :=
  List.lookup_eq_none_iff.mpr fun e he =>
    bne_iff_ne.mpr fun hk => h (List.mem_map.mpr ⟨e, he, hk.symm⟩)

/-- A key that is there once has the same value from the front and from the back. -/
theorem lookup_reverse {k : String} {l : List (String × α)} (h : (l.map (·.1)).count k = 1) :
    l.reverse.lookup k = l.lookup k := by
  induction l with
  | nil => rfl
  | cons e rest ih =>
    obtain ⟨a, v⟩ := e
    rw [List.reverse_cons, List.lookup_append]
    rw [List.map_cons] at h
    by_cases hk : k = a
    · subst hk
      rw [List.count_cons_self] at h
      have hrest : k ∉ rest.reverse.map (·.1) := by
        rw [List.map_reverse, List.mem_reverse]
        exact List.count_eq_zero.mp (Nat.succ.inj h)
      rw [lookup_eq_none hrest, List.lookup_cons_self, List.lookup_cons_self]
      rfl
    · rw [List.count_cons_of_ne (Ne.symm hk)] at h
      rw [ih h, lookup_cons_of_ne hk, lookup_cons_of_ne hk, List.lookup_nil, Option.or_none]

/-! ### Putting an entry in -/

theorem lookup_insertEntry (k k' : String) (v : α) (l : List (String × α)) :
    (insertEntry k v l).lookup k' = if k' = k then some v else l.lookup k' := by
  have hfirst : ∀ l, List.lookup k' ((k, v) :: l) = if k' = k then some v else l.lookup k' := by
    intro l
    by_cases h : k' = k
    · rw [if_pos h, h, List.lookup_cons_self]
    · rw [if_neg h, lookup_cons_of_ne h]
  induction l with
  | nil => exact hfirst []
  | cons e rest ih =>
    obtain ⟨a, w⟩ := e
    unfold insertEntry
    by_cases ha : k = a
    · rw [if_pos ha, hfirst]
      by_cases h : k' = k
      · rw [if_pos h, if_pos h]
      · rw [if_neg h, if_neg h, lookup_cons_of_ne (ha ▸ h)]
    · rw [if_neg ha]
      split
      · exact hfirst _
      · by_cases h' : k' = a
        · subst h'
          rw [List.lookup_cons_self, List.lookup_cons_self, if_neg (Ne.symm ha)]
        · rw [lookup_cons_of_ne h', lookup_cons_of_ne h', ih]

theorem Table.find?_insert (t : Table α) (k k' : String) (v : α) :
    (t.insert k v).find? k' = if k' = k then some v else t.find? k' :=
  lookup_insertEntry k k' v t.entries

theorem mem_keys_insertEntry {k k' : String} {v : α} {l : List (String × α)} :
    k' ∈ (insertEntry k v l).map (·.1) ↔ k' = k ∨ k' ∈ l.map (·.1) := by
  induction l with
  | nil => simp [insertEntry]
  | cons e rest ih =>
    unfold insertEntry
    split
    case isTrue heq => simp [← heq]
    case isFalse =>
      split
      · simp
      · rw [List.map_cons, List.map_cons, List.mem_cons, List.mem_cons, ih, or_left_comm]

/-- The keys of the entries ascend, so each of them is there once. -/
def Ascending (l : List (String × α)) : Prop := (l.map (·.1)).Pairwise (· < ·)

theorem Ascending.insertEntry {l : List (String × α)} (h : Ascending l) (k : String) (v : α) :
    Ascending (insertEntry k v l) := by
  induction l with
  | nil => exact List.pairwise_singleton _ _
  | cons e rest ih =>
    obtain ⟨hfirst, hrest⟩ := List.pairwise_cons.mp h
    unfold Rowflow.insertEntry
    split
    case isTrue heq => exact List.pairwise_cons.mpr ⟨heq ▸ hfirst, hrest⟩
    case isFalse hne =>
      split
      case isTrue hlt =>
        refine List.pairwise_cons.mpr ⟨?_, h⟩
        exact List.forall_mem_cons.mpr ⟨hlt, fun a ha => String.lt_trans hlt (hfirst a ha)⟩
      case isFalse hge =>
        have hgt : e.1 < k := by
          by_contra hle
          exact hne (String.le_antisymm (String.not_lt.mp hle) (String.not_lt.mp hge))
        refine List.pairwise_cons.mpr ⟨fun a ha => ?_, ih hrest⟩
        rcases mem_keys_insertEntry.mp ha with rfl | ha
        · exact hgt
        · exact hfirst a ha

/-! ### Putting a list into order -/

theorem sortEntries_concat (l : List (String × α)) (k : String) (v : α) :
    sortEntries (l ++ [(k, v)]) = insertEntry k v (sortEntries l) :=
  List.foldl_append

theorem ascending_sortEntries (l : List (String × α)) : Ascending (sortEntries l) := by
  induction l using List.reverseRecOn with
  | nil => exact List.Pairwise.nil
  | append_singleton l e ih => exact sortEntries_concat l e.1 e.2 ▸ ih.insertEntry e.1 e.2

theorem mem_keys_sortEntries {k : String} {l : List (String × α)} :
    k ∈ (sortEntries l).map (·.1) ↔ k ∈ l.map (·.1) := by
  induction l using List.reverseRecOn with
  | nil => exact Iff.rfl
  | append_singleton l e ih =>
    rw [sortEntries_concat, mem_keys_insertEntry, ih, List.map_append, List.mem_append, or_comm]
    simp

/-- Of several entries with one key the last one counts. -/
theorem lookup_sortEntries (k : String) (l : List (String × α)) :
    (sortEntries l).lookup k = l.reverse.lookup k := by
  induction l using List.reverseRecOn with
  | nil => rfl
  | append_singleton l e ih =>
    obtain ⟨k', v⟩ := e
    rw [sortEntries_concat, lookup_insertEntry, ih, List.reverse_concat]
    by_cases h : k = k'
    · rw [if_pos h, h, List.lookup_cons_self]
    · rw [if_neg h, lookup_cons_of_ne h]

end Rowflow
