import Mathlib.Data.List.Basic
import Rowflow.RowSet.Basic

/-!
# A row set as a queue

A row set keeps all it has accepted and counts what it has delivered. Here it is seen as the queue of
the entries that wait: a writer puts an entry behind them (`waiting_accept`), a reader gets the first
of them (`front_of_cons`, `waiting_advance`) and learns whether more can come only if there is none
(`front_of_nil`), and there are never more of them than the capacity allows (`size_accept_le`).
-/

namespace Rowflow

namespace RowSet

variable {r : RowSet} {e : Entry} {stopped : Bool}

theorem length_waiting (r : RowSet) : r.waiting.length = r.size := by
  simp [waiting, size]

theorem waiting_eq_nil_iff : r.waiting = [] ↔ r.delivered = r.accepted.size := by
  have hle := r.delivered_le
  rw [waiting, List.drop_eq_nil_iff, Array.length_toList]
  omega

/-! ### Readers -/

theorem front_of_cons {rest : List Entry} (h : r.waiting = e :: rest) : r.front = .row e := by
  have hget : r.accepted[r.delivered]? = some e := by
    have h0 : r.waiting[0]? = some e := by rw [h]; rfl
    rwa [waiting, List.getElem?_drop, Nat.add_zero, Array.getElem?_toList] at h0
  simp [front, hget]

theorem front_of_nil (h : r.waiting = []) : r.front = if r.isDone then .done else .empty := by
  have hnone : r.accepted[r.delivered]? = none :=
    Array.getElem?_eq_none (Nat.le_of_eq (waiting_eq_nil_iff.mp h).symm)
  simp [front, hnone]

/-- Everything that a reader may find, with what it says about the entries that wait. -/
theorem front_cases (r : RowSet) :
    (∃ e rest, r.front = .row e ∧ r.waiting = e :: rest) ∨
    (r.front = .done ∧ r.waiting = [] ∧ r.isDone = true) ∨
    (r.front = .empty ∧ r.waiting = [] ∧ r.isDone = false) := by
  rcases h : r.waiting with _ | ⟨e, rest⟩
  · have hf := front_of_nil h
    cases hd : r.isDone
    · exact Or.inr (Or.inr ⟨by simpa [hd] using hf, rfl, rfl⟩)
    · exact Or.inr (Or.inl ⟨by simpa [hd] using hf, rfl, rfl⟩)
  · exact Or.inl ⟨e, rest, front_of_cons h, rfl⟩

theorem front_eq_done_iff : r.front = .done ↔ r.waiting = [] ∧ r.isDone = true := by
  rcases r.front_cases with ⟨e, rest, hf, hw⟩ | ⟨hf, hw, hd⟩ | ⟨hf, hw, hd⟩
  · simp [hf, hw]
  · simp [hf, hw, hd]
  · simp [hf, hd]

theorem waiting_advance (r : RowSet) : r.advance.waiting = r.waiting.tail := by
  unfold advance
  split
  · simp [waiting]
  · next h =>
    have hnil : r.waiting = [] := by
      have hle := r.delivered_le
      rw [waiting_eq_nil_iff]
      omega
    rw [hnil]
    rfl

theorem isDone_advance (r : RowSet) : r.advance.isDone = r.isDone := by
  unfold advance
  split <;> rfl

theorem accepted_advance (r : RowSet) : r.advance.accepted = r.accepted := by
  unfold advance
  split <;> rfl

theorem capacity_advance (r : RowSet) : r.advance.capacity = r.capacity := by
  unfold advance
  split <;> rfl

/-! ### Writers -/

theorem waiting_accept (r : RowSet) (e : Entry) : (r.accept e).waiting = r.waiting ++ [e] := by
  have hle : r.delivered ≤ r.accepted.toList.length := by simpa using r.delivered_le
  simp [waiting, accept, List.drop_append_of_le_length hle]

theorem size_accept_le (h : r.admission stopped = .room) : (r.accept e).size ≤ r.capacity := by
  have hlt : r.size < r.capacity := by
    unfold admission at h
    split at h
    · cases h
    · split at h
      · assumption
      · split at h <;> cases h
  rw [← length_waiting, waiting_accept, List.length_append, length_waiting]
  exact hlt

theorem open_of_room (h : r.admission stopped = .room) : r.isDone = false := by
  unfold admission at h
  cases hd : r.isDone
  · rfl
  · simp [hd] at h

end RowSet

end Rowflow
