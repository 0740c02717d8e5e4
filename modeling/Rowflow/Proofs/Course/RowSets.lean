import Mathlib.Data.List.Basic
import Mathlib.Tactic.Common
import Rowflow.Proofs.Course.Basic
import Rowflow.Proofs.RowSet.Queue

/-!
# The row sets of a run

Three numbers of a row set matter to a run: what it has accepted, how much of that it has delivered,
and whether it is done. A position without a row set counts as one that is done and empty. What
readers and writers find is told by the three (`front_eq_done_iff`, `front_eq_empty_iff`,
`front_eq_row_iff`, `admission_eq_room`, `admission_eq_full`), and every deed changes one of them at
one place (`done_act`, `accepted_act`, `delivered_act`).
-/

namespace Rowflow

namespace Shared

/-- Everything that a row set has accepted, in order. -/
def accepted (s : Shared) (i : Nat) : List Entry :=
  ((s.rowSet? i).map (·.accepted.toList)).getD []

/-- How many of these entries have been delivered. -/
def delivered (s : Shared) (i : Nat) : Nat := ((s.rowSet? i).map (·.delivered)).getD 0

/-- Whether nothing more is accepted. -/
def done (s : Shared) (i : Nat) : Bool := ((s.rowSet? i).map (·.isDone)).getD true

variable {s s' : Shared} {i : Nat}

theorem delivered_le (s : Shared) (i : Nat) : s.delivered i ≤ (s.accepted i).length := by
  unfold delivered accepted
  rcases s.rowSet? i with _ | r
  · exact Nat.le_refl 0
  · simpa using r.delivered_le

theorem accepted_congr (h : s'.rowSets = s.rowSets) : s'.accepted i = s.accepted i := by
  unfold accepted rowSet?
  rw [h]

theorem delivered_congr (h : s'.rowSets = s.rowSets) : s'.delivered i = s.delivered i := by
  unfold delivered rowSet?
  rw [h]

theorem done_congr (h : s'.rowSets = s.rowSets) : s'.done i = s.done i := by
  unfold done rowSet?
  rw [h]

/-! ### What readers find -/

theorem front_eq (s : Shared) (i : Nat) : s.front i =
    match (s.accepted i)[s.delivered i]? with
    | some e => .row e
    | none => if s.done i = true then .done else .empty := by
  unfold front accepted delivered done
  rcases s.rowSet? i with _ | r
  · rfl
  · show r.front = match r.accepted.toList[r.delivered]? with
      | some e => .row e
      | none => if r.isDone = true then .done else .empty
    rw [Array.getElem?_toList]
    unfold RowSet.front
    rcases r.accepted[r.delivered]? with _ | e <;> rfl

theorem front_eq_row_iff {e : Entry} :
    s.front i = .row e ↔ (s.accepted i)[s.delivered i]? = some e := by
  rw [front_eq]
  rcases (s.accepted i)[s.delivered i]? with _ | e'
  · dsimp only
    split <;> simp
  · simp

theorem front_eq_done_iff :
    s.front i = .done ↔ s.done i = true ∧ s.delivered i = (s.accepted i).length := by
  have hle := s.delivered_le i
  rw [front_eq]
  rcases h : (s.accepted i)[s.delivered i]? with _ | e
  · have hge := List.getElem?_eq_none_iff.mp h
    have heq : s.delivered i = (s.accepted i).length := by omega
    by_cases hd : s.done i = true <;> simp [hd, heq]
  · obtain ⟨hlt, -⟩ := List.getElem?_eq_some_iff.mp h
    constructor
    · intro h'
      cases h'
    · rintro ⟨-, h'⟩
      omega

theorem front_eq_empty_iff :
    s.front i = .empty ↔ s.done i = false ∧ s.delivered i = (s.accepted i).length := by
  have hle := s.delivered_le i
  rw [front_eq]
  rcases h : (s.accepted i)[s.delivered i]? with _ | e
  · have hge := List.getElem?_eq_none_iff.mp h
    have heq : s.delivered i = (s.accepted i).length := by omega
    by_cases hd : s.done i = true <;> simp [hd, heq]
  · obtain ⟨hlt, -⟩ := List.getElem?_eq_some_iff.mp h
    constructor
    · intro h'
      cases h'
    · rintro ⟨-, h'⟩
      omega

/-! ### What writers find -/

theorem admission_cases (s : Shared) (i : Nat) :
    (s.admission i = .closed ∧ s.done i = true) ∨
    (s.admission i = .room ∧ s.done i = false ∧ i < s.rowSets.size) ∨
    (s.admission i = .stopped ∧ s.stopped = true) ∨
    (s.admission i = .full ∧ s.done i = false ∧ s.delivered i < (s.accepted i).length ∧
      s.stopped = false) := by
  unfold admission done delivered accepted
  rcases h : s.rowSet? i with _ | r
  · exact Or.inl ⟨rfl, rfl⟩
  · simp only [Option.map_some, Option.getD_some, RowSet.admission, Array.length_toList]
    by_cases hd : r.isDone = true
    · simp [hd]
    · have hd' : r.isDone = false := by simpa using hd
      rw [if_neg hd]
      by_cases hr : r.size < r.capacity
      · have hlt : i < s.rowSets.size := (Array.getElem?_eq_some_iff.mp h).choose
        simp [hr, hd', hlt]
      · rw [if_neg hr]
        have hpos := r.capacity_pos
        unfold RowSet.size at hr
        have hlt : r.delivered < r.accepted.size := by omega
        by_cases hs : s.stopped = true
        · simp [hs]
        · simp [hd', hlt, hs]

theorem stopped_of_admission (h : s.admission i = .stopped) : s.stopped = true := by
  rcases s.admission_cases i with h' | h' | h' | h' <;> rw [h] at h'
  · cases h'.1
  · cases h'.1
  · exact h'.2
  · cases h'.1

theorem open_of_admission (h : s.admission i = .room) : s.done i = false ∧ i < s.rowSets.size := by
  rcases s.admission_cases i with h' | h' | h' | h' <;> rw [h] at h'
  · cases h'.1
  · exact h'.2
  · cases h'.1
  · cases h'.1

theorem full_of_admission (h : s.admission i = .full) :
    s.done i = false ∧ s.delivered i < (s.accepted i).length ∧ s.stopped = false := by
  rcases s.admission_cases i with h' | h' | h' | h' <;> rw [h] at h'
  · cases h'.1
  · cases h'.1
  · cases h'.1
  · exact h'.2

end Shared

/-! ### What deeds do -/

namespace Deed

/-- What a deed puts into a row set. -/
def givenTo (i : Nat) : Deed → List Entry
  | gave j e => if j = i then [e] else []
  | _ => []

/-- What a step makes of a row set. -/
def alter (i : Nat) (d : Option Deed) (r : RowSet) : RowSet :=
  match d with
  | some (took j _) => if j = i then r.advance else r
  | some (gave j e) => if j = i then r.accept e else r
  | some (closed j) => if j = i then r.finish else r
  | _ => r

/-- What a deed takes out of a row set. -/
def takenFrom (i : Nat) : Deed → List Entry
  | took j e => if j = i then [e] else []
  | _ => []

end Deed

namespace Shared

variable {s s' : Shared} {d : Option Deed} (h : s'.rowSets = Deed.act? s.rowSets d) (i : Nat)
include h

theorem rowSet?_act : s'.rowSet? i = (s.rowSet? i).map (Deed.alter i d) := by
  have hmodify : ∀ (j : Nat) (f : RowSet → RowSet), (s.rowSets.modify j f)[i]? =
      s.rowSets[i]?.map fun r => if j = i then f r else r := by
    intro j f
    rw [Array.getElem?_modify]
    by_cases hj : j = i
    · simp [hj]
    · simp [hj]
  have hsame : s.rowSets[i]? = s.rowSets[i]?.map id := by simp
  unfold rowSet?
  rw [h]
  rcases d with _ | d
  · exact hsame
  · cases d
    case took => exact hmodify _ _
    case gave => exact hmodify _ _
    case closed => exact hmodify _ _
    all_goals exact hsame

theorem done_act : s'.done i = true ↔ s.done i = true ∨ d = some (.closed i) := by
  unfold done
  rw [rowSet?_act h i]
  rcases s.rowSet? i with _ | r
  · simp
  · rcases d with _ | d
    · simp [Deed.alter]
    · cases d
      case took j e => by_cases hj : j = i <;> simp [Deed.alter, hj, RowSet.isDone_advance]
      case gave j e => by_cases hj : j = i <;> simp [Deed.alter, hj, RowSet.accept]
      case closed j => by_cases hj : j = i <;> simp [Deed.alter, hj, RowSet.finish]
      all_goals simp [Deed.alter]

theorem accepted_act (he : ∀ x ∈ d, x.Enabled s) :
    s'.accepted i = s.accepted i ++ (d.map (·.givenTo i)).getD [] := by
  unfold accepted
  rw [rowSet?_act h i]
  rcases d with _ | d
  · rcases s.rowSet? i with _ | r <;> simp [Deed.alter]
  · cases d
    case took j e =>
      rcases s.rowSet? i with _ | r <;> by_cases hj : j = i <;>
        simp [Deed.alter, hj, RowSet.accepted_advance, Deed.givenTo]
    case gave j e =>
      by_cases hj : j = i
      · subst hj
        have hlt := (open_of_admission (he _ rfl)).2
        have hr : s.rowSet? j = some s.rowSets[j] := Array.getElem?_eq_getElem hlt
        simp [hr, Deed.alter, RowSet.accept, Deed.givenTo]
      · rcases s.rowSet? i with _ | r <;> simp [Deed.alter, hj, Deed.givenTo]
    all_goals
      rcases s.rowSet? i with _ | r <;> simp [Deed.alter, Deed.givenTo]
      try (split <;> rfl)

theorem mem_accepted_act {e : Entry} (he : e ∈ s'.accepted i) :
    e ∈ s.accepted i ∨ d = some (.gave i e) := by
  unfold accepted at he ⊢
  rw [rowSet?_act h i] at he
  rcases hr : s.rowSet? i with _ | r <;> rw [hr] at he
  · exact absurd he List.not_mem_nil
  · change e ∈ (Deed.alter i d r).accepted.toList at he
    rcases d with _ | d
    · exact Or.inl he
    · cases d
      case took j _ =>
        by_cases hj : j = i
        · simpa [Deed.alter, hj, RowSet.accepted_advance] using he
        · simpa [Deed.alter, hj] using he
      case gave j e' =>
        by_cases hj : j = i
        · simpa [Deed.alter, hj, RowSet.accept, eq_comm] using he
        · simpa [Deed.alter, hj] using he
      case closed j =>
        by_cases hj : j = i
        · simpa [Deed.alter, hj, RowSet.finish] using he
        · simpa [Deed.alter, hj] using he
      all_goals exact Or.inl he

theorem delivered_act (he : ∀ x ∈ d, x.Enabled s) :
    s'.delivered i = s.delivered i + ((d.map (·.takenFrom i)).getD []).length := by
  unfold delivered
  rw [rowSet?_act h i]
  rcases d with _ | d
  · rcases s.rowSet? i with _ | r <;> simp [Deed.alter]
  · cases d
    case took j e =>
      by_cases hj : j = i
      · subst hj
        have hf := front_eq_row_iff.mp (he _ rfl)
        unfold accepted delivered at hf
        rcases hr : s.rowSet? j with _ | r <;> rw [hr] at hf
        · simp at hf
        · have hlt : r.delivered < r.accepted.size := by
            obtain ⟨hlt, -⟩ := List.getElem?_eq_some_iff.mp hf
            simpa using hlt
          simp [Deed.alter, RowSet.advance, Deed.takenFrom, hlt]
      · rcases s.rowSet? i with _ | r <;> simp [Deed.alter, hj, Deed.takenFrom]
    all_goals
      rcases s.rowSet? i with _ | r <;> simp [Deed.alter, Deed.takenFrom]
      try (split <;> rfl)

theorem front_done_act (he : ∀ x ∈ d, x.Enabled s) (hf : s.front i = .done) :
    s'.front i = .done := by
  rw [front_eq_done_iff] at hf ⊢
  obtain ⟨hdone, hlen⟩ := hf
  refine ⟨(done_act h i).mpr (Or.inl hdone), ?_⟩
  have hgiven : (d.map (·.givenTo i)).getD [] = [] := by
    rcases d with _ | d
    · rfl
    · cases d
      case gave j e =>
        by_cases hj : j = i
        · subst hj
          rw [(open_of_admission (he _ rfl)).1] at hdone
          cases hdone
        · simp [Deed.givenTo, hj]
      all_goals rfl
  have hle := s'.delivered_le i
  have hd := delivered_act h i he
  have ha := accepted_act h i he
  rw [hgiven, List.append_nil] at ha
  rw [ha] at hle ⊢
  omega

end Shared

namespace Shared

variable {s s' : Shared} {d : Option Deed}

/-- What has been taken out of a row set is what it has delivered, apart from what it had delivered
before the start. -/
theorem log_act (early : List Entry) {i : Nat} {before after : List Entry}
    (h : s'.rowSets = Deed.act? s.rowSets d) (he : ∀ x ∈ d, x.Enabled s)
    (hlog : (s.accepted i).take (s.delivered i) = early ++ before)
    (hafter : after = before ++ (d.map (·.takenFrom i)).getD []) :
    (s'.accepted i).take (s'.delivered i) = early ++ after := by
  rw [accepted_act h i he, delivered_act h i he, hafter, ← List.append_assoc, ← hlog]
  have hle := s.delivered_le i
  rcases d with _ | d
  · simp
  · cases d
    case took j e =>
      by_cases hj : j = i
      · subst hj
        have hf := front_eq_row_iff.mp (he _ rfl)
        simp [Deed.givenTo, Deed.takenFrom, List.take_add_one, hf]
      · simp [Deed.givenTo, Deed.takenFrom, hj]
    all_goals simp [Deed.takenFrom, List.take_append_of_le_length hle]

theorem done_finish (s : Shared) (i j : Nat) :
    (s.finish i).done j = true ↔ s.done j = true ∨ i = j := by
  have h : (s.finish i).rowSets = Deed.act? s.rowSets (some (.closed i)) := rfl
  rw [done_act h j]
  simp

theorem done_finishAll (s : Shared) (is : List Nat) (j : Nat) :
    (is.foldl finish s).done j = true ↔ s.done j = true ∨ j ∈ is := by
  induction is generalizing s with
  | nil => simp
  | cons i rest ih => rw [List.foldl_cons, ih, done_finish, List.mem_cons, or_assoc, @eq_comm _ i]

theorem done_accept (s : Shared) (i j : Nat) (e : Entry) : (s.accept i e).done j = s.done j := by
  have h : (s.accept i e).rowSets = Deed.act? s.rowSets (some (.gave i e)) := rfl
  rw [Bool.eq_iff_iff, done_act h j]
  simp

end Shared

end Rowflow
