import Rowflow.Proofs.Course.RowSets

/-!
# Histories

How the deeds of one worker, and what has been taken out of a row set, grow with a history; and that
in a history with honest stops every stop error comes from a refusal (`HonestStops.refused`).
-/

namespace Rowflow.Course

variable {k k' : WorkerKey} {d : Deed} {h : List (WorkerKey × Deed)}

theorem deedsOf_cons_self (k : WorkerKey) (d : Deed) (h : List (WorkerKey × Deed)) :
    deedsOf k ((k, d) :: h) = d :: deedsOf k h := by
  unfold deedsOf
  rw [List.filterMap_cons, if_pos rfl]

theorem deedsOf_cons_of_ne (hk : k' ≠ k) (d : Deed) (h : List (WorkerKey × Deed)) :
    deedsOf k ((k', d) :: h) = deedsOf k h := by
  unfold deedsOf
  rw [List.filterMap_cons, if_neg hk]

theorem mem_deedsOf : d ∈ deedsOf k h ↔ (k, d) ∈ h := by
  unfold deedsOf
  rw [List.mem_filterMap]
  constructor
  · rintro ⟨⟨k', d'⟩, hm, he⟩
    dsimp only at he
    split at he
    · rename_i hk
      cases he
      rwa [hk] at hm
    · cases he
  · exact fun hm => ⟨(k, d), hm, if_pos rfl⟩

/-- The history after a step of a worker. -/
def grow (k : WorkerKey) (d : Option Deed) (h : List (WorkerKey × Deed)) : List (WorkerKey × Deed) :=
  d.toList.map (k, ·) ++ h

theorem mem_grow {x : WorkerKey × Deed} {d : Option Deed} :
    x ∈ grow k d h ↔ (x.1 = k ∧ d = some x.2) ∨ x ∈ h := by
  obtain ⟨k', d'⟩ := x
  unfold grow
  rcases d with _ | d
  · simp
  · simp only [Option.toList_some, List.map_cons, List.map_nil, List.singleton_append,
      List.mem_cons, Prod.mk.injEq, Option.some.injEq]
    exact or_congr_left (and_congr_right fun _ => eq_comm)

theorem mem_grow_of_mem {x : WorkerKey × Deed} {d : Option Deed} (hx : x ∈ h) : x ∈ grow k d h :=
  mem_grow.mpr (Or.inr hx)

theorem deedsOf_grow (k : WorkerKey) (d : Option Deed) (h : List (WorkerKey × Deed)) :
    deedsOf k (grow k d h) = d.toList ++ deedsOf k h := by
  rcases d with _ | d
  · rfl
  · exact deedsOf_cons_self k d h

theorem deedsOf_grow_of_ne (hk : k' ≠ k) (d : Option Deed) (h : List (WorkerKey × Deed)) :
    deedsOf k (grow k' d h) = deedsOf k h := by
  rcases d with _ | d
  · rfl
  · exact deedsOf_cons_of_ne hk d h

/-! ### Taking -/

theorem taken_grow (i : Nat) (k : WorkerKey) (d : Option Deed) (h : List (WorkerKey × Deed)) :
    taken i (grow k d h) = taken i h ++ (d.map (·.takenFrom i)).getD [] := by
  rcases d with _ | d
  · simp [grow]
  · cases d
    case took j e => by_cases hj : j = i <;> simp [grow, taken, Deed.takenFrom, hj]
    all_goals simp [grow, taken, Deed.takenFrom]

/-! ### Honest stops -/

theorem HonestStops.of_grow {d : Option Deed} (hh : HonestStops (grow k d h)) : HonestStops h := by
  rcases d with _ | d
  · exact hh
  · rcases d with _ | _ | _ | _ | _ | (e | b) | _ | _ | _
    case answered.error => exact hh.2
    all_goals exact hh

theorem HonestStops.grow {d : Option Deed} (hh : HonestStops h)
    (hd : ∀ e, d = some (.answered (.error e)) → e.isStop = true →
      ∃ k' e', (k', Deed.refused e') ∈ h ∧ e'.isStop = true) :
    HonestStops (Course.grow k d h) := by
  rcases d with _ | d
  · exact hh
  · rcases d with _ | _ | _ | _ | _ | (e | b) | _ | _ | _
    case answered.error => exact ⟨hd e rfl, hh⟩
    all_goals exact hh

/-- Before a stop error ends a call, an operation has been answered with one. -/
theorem HonestStops.refused {e : TransformError} (hh : HonestStops h)
    (he : (k, Deed.answered (.error e)) ∈ h) (hs : e.isStop = true) :
    ∃ k' e', (k', Deed.refused e') ∈ h ∧ e'.isStop = true := by
  induction h with
  | nil => cases he
  | cons x older ih =>
    obtain ⟨k₀, d⟩ := x
    have hrest : HonestStops older := HonestStops.of_grow (d := some d) (k := k₀) hh
    rcases List.mem_cons.mp he with he | he
    · cases he
      obtain ⟨k', e', hk', hs'⟩ := hh.1 hs
      exact ⟨k', e', List.mem_cons_of_mem _ hk', hs'⟩
    · obtain ⟨k', e', hk', hs'⟩ := ih hrest he
      exact ⟨k', e', List.mem_cons_of_mem _ hk', hs'⟩

end Rowflow.Course
