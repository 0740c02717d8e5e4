import Mathlib.Data.List.Induction
import Rowflow.Engine.Routing
import Rowflow.Proofs.Diversion.Ceiling

/-!
# Diversions that count together

Outside of a run, too, several diversions can count their errors together. What is done with them is a
list of uses in any order; a row is counted by one use and given to its row set by a later one, and as
long as it is on its way nothing else is diverted at its place. The errors of the rows accepted behind
one count and of those on their way stay within the maximum, and a row is refused if and only if it
would take the count above it (`Routing.shared_ceiling`).
-/

namespace Rowflow

variable {m : UInt64} {slot : Nat}

/-- The errors of the rows that a diversion with the given count has had accepted. -/
def Router.weight (slot : Nat) (q : Router) : Nat :=
  if q.slot = slot then (q.rowSet.accepted.toList.map Entry.weight).sum else 0

/-- The errors of the row that a diversion with the given count has on its way. -/
def Router.load (slot : Nat) (q : Router) : Nat :=
  if q.slot = slot then (q.sending.map Entry.weight).getD 0 else 0

/-- The diversion with a row on its way. -/
def Router.holding (q : Router) (e : Entry) (why : Diagnosis) : Router :=
  let (layout, diversion) := q.diversion.layoutFor e.layout
  { q with diversion, sending := some ⟨layout, e.row.append why.values⟩ }

theorem Router.weight_accept {q : Router} {e : Entry} (h : q.sending = some e) (slot : Nat) :
    Router.weight slot { q with rowSet := q.rowSet.accept e, sending := none } =
      q.weight slot + q.load slot := by
  unfold weight load RowSet.accept
  dsimp only
  rw [h]
  split
  · rw [Array.toList_push, List.map_append, List.sum_append, List.map_singleton, List.sum_singleton]
    rfl
  · rfl

theorem Router.handling_holding (q : Router) (e : Entry) (why : Diagnosis) :
    (q.holding e why).diversion.handling = q.diversion.handling :=
  (Context.layoutFor_fixed q.diversion e.layout).2

namespace Routing

/-- What can be done with the diversions. -/
inductive Use where
  | add (transform : String) (handling : ErrorHandling) (capacity : Nat) (shared : Bool)
  | call (i : Nat) (e : Entry) (why : Diagnosis)
  | send (i : Nat)
  | drain (i : Nat)
  | finish (i : Nat)
  | stop

/-- The diversions after a use. Nothing is diverted at a place where a row is on its way. -/
def use (r : Routing) : Use → Routing
  | .add transform handling capacity shared => r.add transform handling capacity shared
  | .call i e why =>
    if i < r.routers.size ∧ (r.router i).sending = none then (r.call i e why).1 else r
  | .send i => (r.send i).1
  | .drain i => (r.drain i).1
  | .finish i => r.finish i
  | .stop => r.requestStop.1

/-- The diversions after some uses. -/
def after (r : Routing) (uses : List Use) : Routing := uses.foldl use r

/-- The diversions after some uses, with nothing to start from. -/
def run (uses : List Use) : Routing := after {} uses

/-- Diverts a row that the row set may have to make room for: when it has been counted, other things
happen, and then the row set takes it or not. -/
def routeDuring (r : Routing) (i : Nat) (e : Entry) (why : Diagnosis) (meanwhile : Routing → Routing) :
    Routing × Option (Except Obstacle Unit) :=
  match r.call i e why with
  | (r, .error obstacle) => (r, some (.error obstacle))
  | (r, .ok ()) =>
    let (r, answer) := (meanwhile r).send i
    (r, answer.map (·.mapError fun err => .refused (.rowSet err)))

/-- The errors at a position. -/
def errors (r : Routing) (slot : Nat) : UInt64 := (r.counts[slot]?).getD 0

/-- The errors of all rows accepted by diversions with the given count. -/
def weight (r : Routing) (slot : Nat) : Nat := (r.routers.toList.map (Router.weight slot)).sum

/-- The errors of all rows that diversions with the given count have on their way. -/
def inTransit (r : Routing) (slot : Nat) : Nat := (r.routers.toList.map (Router.load slot)).sum

/-- The errors of the row that is lost by a use, because its row set does not take it. -/
def forfeit (slot : Nat) (r : Routing) : Use → Nat
  | .send i =>
    match (r.send i).2 with
    | some (.error _) => (r.router i).load slot
    | _ => 0
  | _ => 0

/-- All diversions with the given count have the maximum `m`. -/
def Limited (slot : Nat) (m : UInt64) (r : Routing) : Prop :=
  ∀ q ∈ r.routers, q.slot = slot → q.diversion.handling.maxErrors = some m

/-- There is a count for every diversion. -/
def Placed (r : Routing) : Prop := ∀ q ∈ r.routers, q.slot < r.counts.size

/-- What has been accepted and what is on its way has been counted, within the maximum. -/
structure Within (slot : Nat) (m : UInt64) (r : Routing) : Prop where
  placed : r.Placed
  counted : r.weight slot + r.inTransit slot ≤ (r.errors slot).toNat
  bounded : (r.errors slot).toNat ≤ m.toNat

variable {r r' : Routing} {i : Nat}

theorem routeDuring_id (r : Routing) (i : Nat) (e : Entry) (why : Diagnosis) :
    r.routeDuring i e why id = r.route i e why := rfl

theorem mem_router (hi : i < r.routers.size) : r.router i ∈ r.routers := by
  unfold router
  rw [Array.getElem?_eq_getElem hi]
  exact Array.getElem_mem hi

theorem router_eq_default (hi : ¬ i < r.routers.size) : r.router i = default := by
  unfold router
  rw [Array.getElem?_eq_none (Nat.not_lt.mp hi)]
  rfl

theorem setIfInBounds_router (r : Routing) (i : Nat) :
    r.routers.setIfInBounds i (r.router i) = r.routers := by
  by_cases hi : i < r.routers.size
  · unfold router
    rw [Array.getElem?_eq_getElem hi, Array.setIfInBounds_def, dif_pos hi]
    exact Array.set_getElem_self hi
  · exact Array.setIfInBounds_eq_of_size_le (Nat.not_lt.mp hi)

/-! ### Changes of one diversion -/

/-- One diversion has changed, but not what it is limited by. -/
structure Changed (r r' : Routing) (i : Nat) (q : Router) : Prop where
  routers : r'.routers = r.routers.setIfInBounds i q
  slot : q.slot = (r.router i).slot
  handling : q.diversion.handling = (r.router i).diversion.handling

namespace Changed

variable {q : Router}

theorem router_self (h : r.Changed r' i q) (hi : i < r.routers.size) : r'.router i = q := by
  unfold router
  rw [h.routers, Array.getElem?_setIfInBounds_self_of_lt hi]
  rfl

theorem router_ne (h : r.Changed r' i q) {j : Nat} (hij : i ≠ j) : r'.router j = r.router j := by
  unfold router
  rw [h.routers, Array.getElem?_setIfInBounds_ne hij]

theorem mem (h : r.Changed r' i q) {x : Router} (hx : x ∈ r'.routers) :
    ∃ y ∈ r.routers, x.slot = y.slot ∧ x.diversion.handling = y.diversion.handling := by
  rw [h.routers] at hx
  by_cases hi : i < r.routers.size
  · rcases Array.mem_or_eq_of_mem_setIfInBounds hx with hx | rfl
    · exact ⟨x, hx, rfl, rfl⟩
    · exact ⟨_, mem_router hi, h.slot, h.handling⟩
  · rw [Array.setIfInBounds_eq_of_size_le (Nat.not_lt.mp hi)] at hx
    exact ⟨x, hx, rfl, rfl⟩

theorem limited (h : r.Changed r' i q) (hr' : r'.Limited slot m) : r.Limited slot m := by
  intro x hx hslot
  obtain ⟨j, hj⟩ := Array.getElem?_of_mem hx
  by_cases hij : i = j
  · subst hij
    have hlt := (Array.getElem?_eq_some_iff.mp hj).1
    have hxi : r.router i = x := by
      unfold router
      rw [hj]
      rfl
    have hq : q ∈ r'.routers := by
      rw [h.routers]
      exact Array.mem_of_getElem? (Array.getElem?_setIfInBounds_self_of_lt hlt)
    rw [← hxi] at hslot ⊢
    rw [← h.handling]
    exact hr' q hq (h.slot.trans hslot)
  · refine hr' x ?_ hslot
    rw [h.routers]
    exact Array.mem_of_getElem? (by rwa [Array.getElem?_setIfInBounds_ne hij])

theorem sum (h : r.Changed r' i q) (hi : i < r.routers.size) (f : Router → Nat) :
    (r'.routers.toList.map f).sum + f (r.router i) = (r.routers.toList.map f).sum + f q := by
  have hget : r.routers[i]? = some (r.router i) := by
    unfold router
    rw [Array.getElem?_eq_getElem hi]
    rfl
  rw [h.routers]
  exact sum_map_setIfInBounds f hget q

theorem sum_eq (h : r.Changed r' i q) {f : Router → Nat} (hf : f q = f (r.router i)) :
    (r'.routers.toList.map f).sum = (r.routers.toList.map f).sum := by
  by_cases hi : i < r.routers.size
  · have := h.sum hi f
    omega
  · rw [h.routers, Array.setIfInBounds_eq_of_size_le (Nat.not_lt.mp hi)]

theorem weight_eq (h : r.Changed r' i q) (haccepted : q.rowSet.accepted = (r.router i).rowSet.accepted)
    (slot : Nat) : r'.weight slot = r.weight slot := by
  refine h.sum_eq ?_
  unfold Router.weight
  rw [h.slot, haccepted]

theorem inTransit_eq (h : r.Changed r' i q) (hsending : q.sending = (r.router i).sending)
    (slot : Nat) : r'.inTransit slot = r.inTransit slot := by
  refine h.sum_eq ?_
  unfold Router.load
  rw [h.slot, hsending]

theorem placed (h : r.Changed r' i q) (hcounts : r'.counts.size = r.counts.size) (hr : r.Placed) :
    r'.Placed := by
  intro x hx
  obtain ⟨y, hy, hslot, -⟩ := h.mem hx
  rw [hslot, hcounts]
  exact hr y hy

end Changed

/-! ### One use -/

theorem call_eq (r : Routing) (i : Nat) (e : Entry) (why : Diagnosis) :
    r.call i e why =
      match (r.router i).diversion.handling.reserve (r.count i) why.weight with
      | .error (.broken p) => (r, .error (.broken p))
      | .error (.refused err) =>
        ({ r with log := (r.router i).diversion.refusal.foldl Array.push r.log }, .error (.refused err))
      | .ok count => ({ r with
          routers := r.routers.setIfInBounds i ((r.router i).holding e why)
          counts := r.counts.setIfInBounds (r.router i).slot count }, .ok ()) := by
  rcases hreserve : (r.router i).diversion.handling.reserve (r.count i) why.weight with
    (err | p) | count
  all_goals simp only [call, Diversion.prepare, hreserve, bind, Except.bind, pure, Except.pure]
  rfl

/-- What can come of a row that is diverted: it is not counted, or it is counted and on its way. -/
inductive Called (r : Routing) (i : Nat) (e : Entry) (why : Diagnosis) :
    Routing → Except Obstacle Unit → Prop where
  | refused {obstacle : Obstacle} (log : Array Log.Message)
      (refusal : (r.router i).diversion.handling.reserve (r.count i) why.weight = .error obstacle) :
      Called r i e why { r with log } (.error obstacle)
  | counted {r' : Routing} {count : UInt64}
      (allowed : (r.router i).diversion.handling.reserve (r.count i) why.weight = .ok count)
      (changed : r.Changed r' i ((r.router i).holding e why))
      (counts : r'.counts = r.counts.setIfInBounds (r.router i).slot count)
      (stopped : r'.stopped = r.stopped) : Called r i e why r' (.ok ())

theorem call_called (r : Routing) (i : Nat) (e : Entry) (why : Diagnosis) :
    r.Called i e why (r.call i e why).1 (r.call i e why).2 := by
  rw [call_eq]
  rcases hreserve : (r.router i).diversion.handling.reserve (r.count i) why.weight with
    (err | p) | count
  · exact .refused _ hreserve
  · exact .refused r.log hreserve
  · exact .counted hreserve ⟨rfl, rfl, Router.handling_holding _ e why⟩ rfl rfl

theorem changed_call (r : Routing) (i : Nat) (e : Entry) (why : Diagnosis) :
    ∃ q, r.Changed (r.call i e why).1 i q ∧ q.rowSet = (r.router i).rowSet := by
  have hcalled := r.call_called i e why
  generalize (r.call i e why).1 = r', (r.call i e why).2 = answer at hcalled ⊢
  cases hcalled with
  | refused log refusal => exact ⟨r.router i, ⟨(r.setIfInBounds_router i).symm, rfl, rfl⟩, rfl⟩
  | counted allowed changed counts stopped => exact ⟨_, changed, rfl⟩

/-- What can come of a look at a row set: nothing, if no row is on its way or there is no room, or the
row is not on its way any more. -/
inductive Sent (r : Routing) (i : Nat) : Routing → Option (Except RowSetError Unit) → Prop where
  | waits : Sent r i r none
  | taken {r' : Routing} {e : Entry} (inside : i < r.routers.size)
      (sending : (r.router i).sending = some e)
      (changed : r.Changed r' i
        { r.router i with rowSet := (r.router i).rowSet.accept e, sending := none })
      (counts : r'.counts = r.counts) : Sent r i r' (some (.ok ()))
  | lost {r' : Routing} {err : RowSetError} (inside : i < r.routers.size)
      (room : (r.router i).rowSet.admission r.stopped ≠ .room)
      (changed : r.Changed r' i { r.router i with sending := none })
      (counts : r'.counts = r.counts) (stopped : r'.stopped = r.stopped) :
      Sent r i r' (some (.error err))

theorem send_sent (r : Routing) (i : Nat) : r.Sent i (r.send i).1 (r.send i).2 := by
  rcases hsending : (r.router i).sending with _ | e
  · simp only [send, hsending]
    exact .waits
  have hi : i < r.routers.size := by
    by_contra hi
    rw [router_eq_default hi] at hsending
    cases hsending
  rcases hadmission : (r.router i).rowSet.admission r.stopped
  all_goals simp only [send, hsending, hadmission]
  case room => exact .taken hi hsending ⟨rfl, rfl, rfl⟩ rfl
  case full => exact .waits
  all_goals
    exact .lost hi (fun h => by cases hadmission.symm.trans h) ⟨rfl, rfl, rfl⟩ rfl rfl

theorem changed_send (r : Routing) (i : Nat) : ∃ q, r.Changed (r.send i).1 i q := by
  have hsent := r.send_sent i
  generalize (r.send i).1 = r', (r.send i).2 = answer at hsent ⊢
  cases hsent with
  | waits => exact ⟨r.router i, (r.setIfInBounds_router i).symm, rfl, rfl⟩
  | taken inside sending changed => exact ⟨_, changed⟩
  | lost inside room changed => exact ⟨_, changed⟩

theorem accepted_drain (q : RowSet) (rows : List Entry) :
    (rows.foldl (fun s _ => s.advance) q).accepted = q.accepted := by
  induction rows generalizing q with
  | nil => rfl
  | cons e rest ih => rw [List.foldl_cons, ih, RowSet.accepted_advance]

theorem changed_drain (r : Routing) (i : Nat) :
    ∃ q, r.Changed (r.drain i).1 i q ∧ q.rowSet.accepted = (r.router i).rowSet.accepted ∧
      q.sending = (r.router i).sending :=
  ⟨_, ⟨rfl, rfl, rfl⟩, accepted_drain _ _, rfl⟩

theorem changed_finish (r : Routing) (i : Nat) :
    ∃ q, r.Changed (r.finish i) i q ∧ q.rowSet.accepted = (r.router i).rowSet.accepted ∧
      q.sending = (r.router i).sending :=
  ⟨_, ⟨rfl, rfl, rfl⟩, rfl, rfl⟩

theorem first_count (counts : Array UInt64) :
    0 < (if counts.isEmpty then #[0] else counts).size ∧
      counts.size ≤ (if counts.isEmpty then #[0] else counts).size ∧
      ∀ slot : Nat, ((if counts.isEmpty then #[0] else counts)[slot]?).getD 0 =
        (counts[slot]?).getD 0 := by
  by_cases hempty : counts = #[]
  · subst hempty
    refine ⟨Nat.one_pos, Nat.zero_le _, fun slot => ?_⟩
    cases slot <;> rfl
  · rw [if_neg fun h => hempty (Array.isEmpty_iff.mp h)]
    exact ⟨Array.size_pos_iff.mpr hempty, Nat.le_refl _, fun _ => rfl⟩

/-- A new diversion has a count and has accepted nothing, and nothing has been counted. -/
theorem add_books (r : Routing) (transform : String) (handling : ErrorHandling) (capacity : Nat)
    (shared : Bool) (slot : Nat) :
    (r.Placed → (r.add transform handling capacity shared).Placed) ∧
      (r.add transform handling capacity shared).errors slot = r.errors slot ∧
      (r.add transform handling capacity shared).weight slot = r.weight slot ∧
      (r.add transform handling capacity shared).inTransit slot = r.inTransit slot := by
  obtain ⟨hpos, hsize, hfirst⟩ := first_count r.counts
  unfold Routing.add
  generalize (if r.counts.isEmpty then #[0] else r.counts) = counts at hpos hsize hfirst
  refine ⟨fun h q hq => ?_, ?_, ?_, ?_⟩
  · rcases Array.mem_push.mp hq with hq | rfl
    · have := h q hq
      cases shared <;> simp <;> omega
    · cases shared <;> simp [hpos]
  · unfold errors
    dsimp only
    rw [← hfirst slot]
    cases shared
    · rw [if_neg Bool.false_ne_true, Array.getElem?_push]
      split
      · rename_i hnew
        rw [Array.getElem?_eq_none (Nat.le_of_eq hnew.symm)]
        rfl
      · rfl
    · rfl
  · refine (sum_map_push (Router.weight slot) r.routers _).trans ?_
    simp [Router.weight, RowSet.new, weight]
  · refine (sum_map_push (Router.load slot) r.routers _).trans ?_
    simp [Router.load, inTransit]

/-- What a use, of which the last errors are lost, adds to a count. -/
structure Adds (slot : Nat) (r r' : Routing) (lost : Nat) (added : Nat) : Prop where
  placed : r'.Placed
  errors : (r'.errors slot).toNat = (r.errors slot).toNat + added
  account : r'.weight slot + r'.inTransit slot + lost = r.weight slot + r.inTransit slot + added
  allowed : added = 0 ∨ ∃ q ∈ r.routers, q.slot = slot ∧
    ∀ m ∈ q.diversion.handling.maxErrors, (r'.errors slot).toNat ≤ m.toNat

theorem Changed.adds {q : Router} (h : r.Changed r' i q) (hr : r.Placed) (hcounts : r'.counts = r.counts)
    (haccepted : q.rowSet.accepted = (r.router i).rowSet.accepted)
    (hsending : q.sending = (r.router i).sending) (slot : Nat) : Adds slot r r' 0 0 where
  placed := h.placed (by rw [hcounts]) hr
  errors := by
    unfold Routing.errors
    rw [hcounts, Nat.add_zero]
  account := by rw [h.weight_eq haccepted, h.inTransit_eq hsending]
  allowed := Or.inl rfl

theorem adds_call (hr : r.Placed) (hi : i < r.routers.size) (hidle : (r.router i).sending = none)
    (e : Entry) (why : Diagnosis) (slot : Nat) :
    ∃ added, Adds slot r (r.call i e why).1 0 added := by
  have hcalled := r.call_called i e why
  generalize (r.call i e why).1 = r', (r.call i e why).2 = answer at hcalled ⊢
  cases hcalled with
  | refused log refusal => exact ⟨0, hr, rfl, rfl, Or.inl rfl⟩
  | @counted r' count allowed changed counts stopped =>
    obtain ⟨hsum, hmax⟩ := ErrorHandling.reserve_ok allowed
    have hplaced := changed.placed (by rw [counts, Array.size_setIfInBounds]) hr
    have hweight := changed.weight_eq rfl slot
    have hload : r'.inTransit slot + (r.router i).load slot =
        r.inTransit slot + ((r.router i).holding e why).load slot := changed.sum hi _
    have hnone : (r.router i).load slot = 0 := by
      unfold Router.load
      rw [hidle]
      exact ite_self 0
    by_cases hslot : (r.router i).slot = slot
    · have hlt : slot < r.counts.size := hslot ▸ hr _ (mem_router hi)
      have herrors : r'.errors slot = count := by
        unfold errors
        rw [counts, hslot, Array.getElem?_setIfInBounds_self_of_lt hlt]
        rfl
      have hheld : ((r.router i).holding e why).load slot = why.weight.toNat :=
        (if_pos hslot).trans (Entry.weight_diverted _ e.row why)
      refine ⟨why.weight.toNat, hplaced, ?_, by omega, Or.inr ⟨_, mem_router hi, hslot, ?_⟩⟩
      · rw [herrors, hsum, Routing.count, hslot]
        rfl
      · rwa [herrors]
    · -- a row that is counted elsewhere
      have herrors : r'.errors slot = r.errors slot := by
        unfold errors
        rw [counts, Array.getElem?_setIfInBounds_ne hslot]
      have hheld : ((r.router i).holding e why).load slot = 0 := if_neg hslot
      exact ⟨0, hplaced, by rw [herrors, Nat.add_zero], by omega, Or.inl rfl⟩

theorem Changed.inTransit_idle {q : Router} (h : r.Changed r' i q) (hi : i < r.routers.size)
    (hidle : q.sending = none) (slot : Nat) :
    r'.inTransit slot + (r.router i).load slot = r.inTransit slot := by
  have hnone : q.load slot = 0 := by
    unfold Router.load
    rw [hidle]
    exact ite_self 0
  exact (h.sum hi (Router.load slot)).trans (by rw [hnone]; rfl)

theorem adds_send (hr : r.Placed) (i slot : Nat) :
    Adds slot r (r.send i).1 (r.forfeit slot (.send i)) 0 := by
  unfold forfeit
  dsimp only
  have hsent := r.send_sent i
  generalize (r.send i).1 = r', (r.send i).2 = answer at hsent ⊢
  cases hsent with
  | waits => exact ⟨hr, rfl, rfl, Or.inl rfl⟩
  | taken inside sending changed counts =>
    have hload := changed.inTransit_idle inside rfl slot
    have hweight : r'.weight slot + (r.router i).weight slot =
        r.weight slot + ((r.router i).weight slot + (r.router i).load slot) := by
      rw [← Router.weight_accept sending slot]
      exact changed.sum inside _
    refine ⟨changed.placed (by rw [counts]) hr, ?_, by dsimp only; omega, Or.inl rfl⟩
    rw [errors, counts]
    rfl
  | lost inside room changed counts stopped =>
    have hload := changed.inTransit_idle inside rfl slot
    have hweight := changed.weight_eq rfl slot
    refine ⟨changed.placed (by rw [counts]) hr, ?_, by dsimp only; omega, Or.inl rfl⟩
    rw [errors, counts]
    rfl

/-- **The account of a use.** By as much as the count grows, the errors grow of the rows accepted behind
it, of the rows on their way and of the rows that are lost. -/
theorem use_adds (hr : r.Placed) (u : Use) (slot : Nat) :
    ∃ added, Adds slot r (r.use u) (r.forfeit slot u) added := by
  cases u with
  | add transform handling capacity shared =>
    obtain ⟨hplaced, herrors, hweight, htransit⟩ := r.add_books transform handling capacity shared slot
    refine ⟨0, hplaced hr, congrArg UInt64.toNat herrors, ?_, Or.inl rfl⟩
    simp only [use, forfeit, hweight, htransit]
  | call i e why =>
    simp only [use, forfeit]
    split
    · exact adds_call hr (‹_ ∧ _›).1 (‹_ ∧ _›).2 e why slot
    · exact ⟨0, hr, rfl, rfl, Or.inl rfl⟩
  | send i => exact ⟨0, adds_send hr i slot⟩
  | drain i =>
    obtain ⟨q, hchanged, haccepted, hsending⟩ := r.changed_drain i
    exact ⟨0, hchanged.adds hr rfl haccepted hsending slot⟩
  | finish i =>
    obtain ⟨q, hchanged, haccepted, hsending⟩ := r.changed_finish i
    exact ⟨0, hchanged.adds hr rfl haccepted hsending slot⟩
  | stop => exact ⟨0, hr, rfl, rfl, Or.inl rfl⟩

theorem limited_of_use {u : Use} (h : (r.use u).Limited slot m) : r.Limited slot m := by
  cases u with
  | add transform handling capacity shared =>
    exact fun q hq => h q (Array.mem_push.mpr (Or.inl hq))
  | call i e why =>
    simp only [use] at h
    split at h
    · obtain ⟨q, hchanged, -⟩ := r.changed_call i e why
      exact hchanged.limited h
    · exact h
  | send i =>
    obtain ⟨q, hchanged⟩ := r.changed_send i
    exact hchanged.limited h
  | drain i =>
    obtain ⟨q, hchanged, -⟩ := r.changed_drain i
    exact hchanged.limited h
  | finish i =>
    obtain ⟨q, hchanged, -⟩ := r.changed_finish i
    exact hchanged.limited h
  | stop => exact h

theorem Within.use (h : r.Within slot m) (hr : r.Limited slot m) (u : Use) :
    (r.use u).Within slot m := by
  obtain ⟨added, hadds⟩ := use_adds h.placed u slot
  have hcounted := h.counted
  have hbounded := h.bounded
  have herrors := hadds.errors
  have haccount := hadds.account
  refine ⟨hadds.placed, by omega, ?_⟩
  rcases hadds.allowed with rfl | ⟨q, hq, hslot, hmax⟩
  · omega
  · exact hmax m (hr q hq hslot)

/-- A row that is not counted stays where it is; a row that is counted is given to its row set when the
other things have happened. -/
theorem routeDuring_cases (r : Routing) (i : Nat) (e : Entry) (why : Diagnosis)
    (meanwhile : Routing → Routing) :
    (∃ obstacle, (r.call i e why).2 = .error obstacle ∧
      r.routeDuring i e why meanwhile = ((r.call i e why).1, some (.error obstacle))) ∨
    (r.call i e why).2 = .ok () ∧ r.routeDuring i e why meanwhile =
      (((meanwhile (r.call i e why).1).send i).1,
        ((meanwhile (r.call i e why).1).send i).2.map (·.mapError fun err => .refused (.rowSet err))) := by
  unfold routeDuring
  rcases r.call i e why with ⟨r', obstacle | ⟨⟩⟩
  · exact Or.inl ⟨obstacle, rfl, rfl⟩
  · exact Or.inr ⟨rfl, rfl⟩

/-! ### Any number of uses -/

theorem run_concat (uses : List Use) (u : Use) : run (uses ++ [u]) = (run uses).use u :=
  List.foldl_concat use {} u uses

theorem within_run {uses : List Use} (hr : (run uses).Limited slot m) :
    (run uses).Within slot m := by
  induction uses using List.reverseRecOn with
  | nil =>
    refine ⟨fun q hq => absurd hq (Array.not_mem_empty q), Nat.le_refl 0, ?_⟩
    exact Nat.zero_le _
  | append_singleton uses u ih =>
    rw [run_concat] at hr ⊢
    have hbefore := limited_of_use hr
    exact (ih hbefore).use hbefore u

/-- **The maximum number of errors** of diversions that count together: the errors of all accepted
rows, with those on their way, are within it. A row is refused if and only if it would take the count
above it, with the sum as the reason, and then nothing is counted. Whoever diverts a row for more errors
than fit into a word with the count breaks down, and nothing is counted either. -/
theorem shared_ceiling {uses : List Use} (hr : (run uses).Limited slot m) :
    (run uses).weight slot + (run uses).inTransit slot ≤ m.toNat ∧
      ∀ i, i < (run uses).routers.size → ((run uses).router i).slot = slot →
        ∀ (e : Entry) (why : Diagnosis),
          let sum := ((run uses).errors slot).toNat + why.weight.toNat
          let (r, answer) := (run uses).call i e why
          if 2 ^ 64 ≤ sum then answer = .error (.broken .overflow) ∧ r.counts = (run uses).counts
          else if m.toNat < sum then
            (∃ n : UInt64, n.toNat = sum ∧ answer = .error (.refused (.ceilingExceeded m n))) ∧
              r.counts = (run uses).counts
          else answer = .ok () ∧ (r.errors slot).toNat = sum := by
  have h := within_run hr
  refine ⟨Nat.le_trans h.counted h.bounded, fun i hi hslot e why => ?_⟩
  have hmax := hr _ (mem_router hi) hslot
  have hcount : (run uses).count i = (run uses).errors slot := by
    unfold Routing.count errors
    rw [hslot]
  have hcalled := (run uses).call_called i e why
  generalize (run uses).call i e why = out at hcalled ⊢
  rcases out with ⟨r, answer⟩
  dsimp only at hcalled ⊢
  cases hcalled with
  | @refused obstacle log refusal =>
    rw [hcount] at refusal
    rcases obstacle with err | p
    · obtain ⟨maximum, n, rfl, hm, hn, habove⟩ := ErrorHandling.reserve_refused refusal
      cases hmax.symm.trans hm
      have hfits := n.toNat_lt
      rw [if_neg (by omega), if_pos (by omega)]
      exact ⟨⟨n, hn, rfl⟩, rfl⟩
    · obtain ⟨rfl, hover⟩ := ErrorHandling.reserve_broken refusal
      rw [if_pos hover]
      exact ⟨rfl, rfl⟩
  | @counted r count allowed changed counts stopped =>
    rw [hcount] at allowed
    obtain ⟨hsum, hbelow⟩ := ErrorHandling.reserve_ok allowed
    have hfits := count.toNat_lt
    have hwithin := hbelow m hmax
    have hlt : slot < (run uses).counts.size := hslot ▸ h.placed _ (mem_router hi)
    rw [if_neg (by omega), if_neg (by omega), ← hsum]
    refine ⟨rfl, ?_⟩
    rw [errors, counts, hslot, Array.getElem?_setIfInBounds_self_of_lt hlt]
    rfl

end Routing

end Rowflow
