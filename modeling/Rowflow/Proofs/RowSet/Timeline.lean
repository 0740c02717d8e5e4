import Rowflow.Proofs.RowSet.Clients
import Rowflow.RowSet.Timeline

/-!
# A timeline as traffic

On a timeline one client uses a row set now, and what others are going to do stands in an agenda. This
is traffic in which the one client, number zero, takes the looks that the timeline lets it take, and
everybody in the agenda is a client that comes, takes one look, and does not come back. So each answer
of `put`, `get` and `getWithin` is an answer in some traffic (`Timeline.put_traffic`,
`Timeline.get_traffic`, `Timeline.getWithin_traffic`), and what is true of all traffic is true of it.
-/

namespace Rowflow

open RowSet (Call Reply)

namespace Traffic

/-- The traffic is that of the timeline, and there are clients left that are in no call. -/
structure Shows (s : Traffic) (t : Timeline) : Prop where
  rowSet_eq : s.rowSet = t.rowSet
  stopped_eq : s.stopped = t.stopped
  free : ∃ n, ∀ k ≥ n, s.calls k = none

/-- Some events lead to traffic that is that of the timeline and has the property. -/
def LeadsTo (s : Traffic) (t : Timeline) (P : Traffic → Prop) : Prop :=
  ∃ events, (s.run events).Shows t ∧ P (s.run events)

/-- The traffic becomes that of the timeline while the client number zero stays in its call. -/
def Follows (s : Traffic) (t : Timeline) : Prop := s.LeadsTo t fun s' => s'.calls 0 = s.calls 0

/-- The client number zero has just got an answer. -/
def Answered (s : Traffic) (call : Call) (reply : Reply) : Prop :=
  s.calls 0 = none ∧ s.log.getLast? = some ⟨0, call, reply, s.stopped⟩

variable {s : Traffic} {t t' : Timeline} {P Q : Traffic → Prop}

theorem LeadsTo.trans (h : s.LeadsTo t Q) (hnext : ∀ s' : Traffic, s'.Shows t → Q s' → s'.LeadsTo t' P) :
    s.LeadsTo t' P := by
  obtain ⟨events, hshows, hq⟩ := h
  obtain ⟨later, hfinal⟩ := hnext _ hshows hq
  have happend : s.run (events ++ later) = (s.run events).run later := List.foldl_append
  exact ⟨events ++ later, by rwa [happend]⟩

theorem LeadsTo.mono (h : s.LeadsTo t Q) (himp : ∀ s' : Traffic, Q s' → P s') : s.LeadsTo t P := by
  obtain ⟨events, hshows, hq⟩ := h
  exact ⟨events, hshows, himp _ hq⟩

/-- What only concerns the clock and the agenda is not seen. -/
theorem Shows.congr (h : s.Shows t) (hr : t'.rowSet = t.rowSet) (hs : t'.stopped = t.stopped) :
    s.Shows t' :=
  ⟨h.rowSet_eq.trans hr.symm, h.stopped_eq.trans hs.symm, h.free⟩

theorem Shows.follows (h : s.Shows t) (hr : t'.rowSet = t.rowSet) (hs : t'.stopped = t.stopped) :
    s.Follows t' :=
  ⟨[], h.congr hr hs, rfl⟩

theorem Follows.congr (h : s.Follows t) (hr : t'.rowSet = t.rowSet) (hs : t'.stopped = t.stopped) :
    s.Follows t' :=
  h.trans fun _ hshows hcall => ⟨[], hshows.congr hr hs, hcall⟩

/-! ### What others do -/

theorem look_frame {i : Nat} {call : Call} (late : Bool) (h : s.calls i = some call) :
    (s.perform (.look i late)).rowSet = (s.rowSet.look s.stopped late call).1 ∧
    (s.perform (.look i late)).stopped = s.stopped ∧
    ∀ j ≠ i, (s.perform (.look i late)).calls j = s.calls j := by
  rcases hl : s.rowSet.look s.stopped late call with ⟨r, call' | reply⟩
  · rw [perform_look_waits h hl]
    exact ⟨rfl, rfl, fun j hj => Function.update_of_ne hj ..⟩
  · rw [perform_look_answers h hl]
    exact ⟨rfl, rfl, fun j hj => Function.update_of_ne hj ..⟩

theorem Shows.visit (h : s.Shows t) (call : Call) :
    s.Follows { t with rowSet := (t.rowSet.look t.stopped false call).1 } := by
  obtain ⟨n, hn⟩ := h.free
  have hcame : s.perform (.call (n + 1) call) =
      { s with calls := Function.update s.calls (n + 1) (some call) } :=
    perform_call (hn (n + 1) (by omega))
  have hothers : ∀ k ≠ n + 1, (s.perform (.call (n + 1) call)).calls k = s.calls k := by
    intro k hk
    rw [hcame]
    exact Function.update_of_ne hk _ _
  have hcall : (s.perform (.call (n + 1) call)).calls (n + 1) = some call := by
    rw [hcame]
    exact Function.update_self _ _ _
  obtain ⟨hrow, hstop, hcalls⟩ := look_frame false hcall
  refine ⟨[.call (n + 1) call, .look (n + 1) false], ⟨?_, ?_, n + 2, fun k hk => ?_⟩, ?_⟩
  · exact hrow.trans (by rw [hcame, h.rowSet_eq, h.stopped_eq])
  · exact hstop.trans (by rw [hcame]; exact h.stopped_eq)
  · have hne : k ≠ n + 1 := by omega
    exact (hcalls k hne).trans ((hothers k hne).trans (hn k (by omega)))
  · exact (hcalls 0 (by omega)).trans (hothers 0 (by omega))

theorem Shows.stop (h : s.Shows t) : s.Follows { t with stopRequested := true } := by
  by_cases hl : t.linked = true
  · refine ⟨[.stop], ⟨h.rowSet_eq, ?_, h.free⟩, rfl⟩
    simp [run, perform, Timeline.stopped, hl]
  · refine ⟨[], h.congr rfl ?_, rfl⟩
    simp [Timeline.stopped, hl]

theorem Shows.perform (h : s.Shows t) (a : Appointment) : s.Follows (t.perform a).1 := by
  rcases a with ⟨time, action⟩
  cases action with
  | stop => exact h.stop
  | finish => exact h.visit .finish
  | take =>
    refine (h.visit .get).congr ?_ ?_ <;>
      simp only [Timeline.perform, Timeline.poll?, RowSet.look] <;>
      rcases t.rowSet.front with e | _ | _ <;> dsimp only <;> split <;> rfl
  | put e =>
    refine (h.visit (.put e false)).congr ?_ ?_ <;>
      simp only [Timeline.perform, Timeline.offer, RowSet.look] <;>
      cases t.rowSet.admission t.stopped <;> rfl

theorem Shows.sleep (who : Waiter) (limit fuel : Nat) (h : s.Shows t) :
    s.Follows (t.sleep who limit fuel) := by
  induction fuel generalizing s t with
  | zero => exact h.follows rfl rfl
  | succ fuel ih =>
    rw [Timeline.sleep]
    split
    · exact h.follows rfl rfl
    · next a rest _ =>
      split
      · exact h.follows rfl rfl
      · have hdue : s.Shows { t with clock := max t.clock a.time, agenda := rest } := h.congr rfl rfl
        dsimp only
        split
        · exact hdue.perform a
        · refine (hdue.perform a).trans fun s' hshows hcall => ?_
          exact (ih hshows).mono fun s'' hcall' => hcall'.trans hcall

/-! ### What the client is answered -/

theorem Shows.answered {r : RowSet} {call : Call} {reply : Reply} {late : Bool} (h : s.Shows t)
    (hcall : s.calls 0 = some call)
    (hlook : t.rowSet.look t.stopped late call = (r, .answers reply)) :
    s.LeadsTo { t with rowSet := r } fun s' => s'.Answered call reply := by
  obtain ⟨n, hn⟩ := h.free
  rw [← h.rowSet_eq, ← h.stopped_eq] at hlook
  have hrun : s.run [.look 0 late] = _ := perform_look_answers hcall hlook
  refine ⟨[.look 0 late], ?_⟩
  rw [hrun]
  refine ⟨⟨rfl, h.stopped_eq, n + 1, fun k hk => ?_⟩, by simp [Answered]⟩
  exact (Function.update_of_ne (by omega : k ≠ 0) _ _).trans (hn k (by omega))

end Traffic

namespace Timeline

variable {s : Traffic} {t : Timeline}

/-- The answer to a writer whose entry was received in some way. -/
def replyTo (e : Entry) : RowSet.Admission → Reply
  | .room => .accepted
  | .closed => .closed
  | .stopped => .stopped
  | .full => .returned e

/-- What `put` answers is an answer in some traffic, unless the client still waits. -/
theorem put_traffic (e : Entry) (deadline : Option Nat) (fuel : Nat) (h : s.Shows t)
    (hcall : s.calls 0 = some (.put e deadline.isSome)) :
    s.LeadsTo (put e deadline fuel t).1 fun s' =>
      s'.calls 0 = s.calls 0 ∧ (put e deadline fuel t).2 = .full ∨
      s'.Answered (.put e deadline.isSome) (replyTo e (put e deadline fuel t).2) := by
  induction fuel generalizing s t with
  | zero => exact ⟨[], h, Or.inl ⟨rfl, rfl⟩⟩
  | succ fuel ih =>
    -- A look that sends the client back to waiting changes nothing and is left out.
    have hwait : ∀ limit, let t' := sleep .writer limit patience t
        s.LeadsTo (put e deadline fuel t').1 fun s' =>
          s'.calls 0 = s.calls 0 ∧ (put e deadline fuel t').2 = .full ∨
          s'.Answered (.put e deadline.isSome) (replyTo e (put e deadline fuel t').2) := by
      intro limit
      refine (h.sleep .writer limit patience).trans fun s' hshows hstay => ?_
      rw [← hstay]
      exact ih hshows (hstay.trans hcall)
    cases hadm : t.rowSet.admission t.stopped
    case full =>
      cases deadline with
      | none => simpa only [put, offer, hadm] using hwait (t.clock + t.poll)
      | some d =>
        simp only [put, offer, hadm]
        split
        · have hlook : t.rowSet.look t.stopped true (.put e true) =
              (t.rowSet, .answers (.returned e)) := by simp [RowSet.look, hadm]
          exact (h.answered hcall hlook).mono fun _ => Or.inr
        · exact hwait (min d (t.clock + t.poll))
    case room =>
      have hlook : t.rowSet.look t.stopped false (.put e deadline.isSome) =
          (t.rowSet.accept e, .answers .accepted) := by simp [RowSet.look, hadm]
      simp only [put, offer, hadm]
      exact (h.answered hcall hlook).mono fun _ => Or.inr
    case closed =>
      have hlook : t.rowSet.look t.stopped false (.put e deadline.isSome) =
          (t.rowSet, .answers .closed) := by simp [RowSet.look, hadm]
      simp only [put, offer, hadm]
      exact (h.answered hcall hlook).mono fun _ => Or.inr
    case stopped =>
      have hlook : t.rowSet.look t.stopped false (.put e deadline.isSome) =
          (t.rowSet, .answers .stopped) := by simp [RowSet.look, hadm]
      simp only [put, offer, hadm]
      exact (h.answered hcall hlook).mono fun _ => Or.inr

theorem get_traffic (fuel : Nat) (h : s.Shows t) (hcall : s.calls 0 = some .get) :
    s.LeadsTo (get fuel t).1 fun s' =>
      s'.calls 0 = s.calls 0 ∧ (get fuel t).2 = none ∨
      s'.Answered .get (((get fuel t).2.map Reply.row).getD .nothing) := by
  induction fuel generalizing s t with
  | zero => exact ⟨[], h, Or.inl ⟨rfl, rfl⟩⟩
  | succ fuel ih =>
    cases hf : t.rowSet.front <;> simp only [get, poll?, hf]
    case row e =>
      have hlook : t.rowSet.look t.stopped false .get = (t.rowSet.advance, .answers (.row e)) := by
        simp [RowSet.look, hf]
      exact (h.answered hcall hlook).mono fun _ => Or.inr
    case done =>
      have hlook : t.rowSet.look t.stopped false .get = (t.rowSet, .answers .nothing) := by
        simp [RowSet.look, hf]
      exact (h.answered hcall hlook).mono fun _ => Or.inr
    case empty =>
      split
      · next hs =>
        have hlook : t.rowSet.look t.stopped false .get = (t.rowSet, .answers .nothing) := by
          simp [RowSet.look, hf, hs]
        exact (h.answered hcall hlook).mono fun _ => Or.inr
      · refine (h.sleep .reader (t.clock + t.poll) patience).trans fun s' hshows hstay => ?_
        rw [← hstay]
        exact ih hshows (hstay.trans hcall)

/-- The answer to a reader that found something at its last look. -/
def replyFor : RowSet.Front → Reply
  | .row e => .row e
  | .empty => .empty
  | .done => .done

theorem poll_traffic {waited : Bool} (h : s.Shows t) (hcall : s.calls 0 = some (.getWithin waited))
    (hlast : waited = true ∨ t.rowSet.front ≠ .empty) :
    s.LeadsTo t.poll?.1 fun s' => s'.Answered (.getWithin waited) (replyFor t.poll?.2) := by
  have hlook : t.rowSet.look t.stopped false (.getWithin waited) =
      (t.poll?.1.rowSet, .answers (replyFor t.poll?.2)) := by
    unfold poll?
    cases hf : t.rowSet.front
    case empty => simpa [RowSet.look, hf, replyFor] using hlast
    all_goals simp [RowSet.look, hf, replyFor]
  have ht : t.poll?.1 = { t with rowSet := t.poll?.1.rowSet } := by
    unfold poll?
    cases t.rowSet.front <;> rfl
  rw [ht]
  exact h.answered hcall hlook

theorem getWithin_traffic (millis : Nat) (h : s.Shows t)
    (hcall : s.calls 0 = some (.getWithin false)) :
    s.LeadsTo (t.getWithin millis).1 fun s' =>
      ∃ waited, s'.Answered (.getWithin waited) (replyFor (t.getWithin millis).2) := by
  cases hf : t.rowSet.front
  case empty =>
    have hlook : s.rowSet.look s.stopped false (.getWithin false) =
        (s.rowSet, .waits (.getWithin true)) := by
      rw [h.rowSet_eq]
      simp [RowSet.look, hf]
    have hrun : s.run [.look 0 false] = _ := Traffic.perform_look_waits hcall hlook
    have hwaits : s.LeadsTo t fun s' => s'.calls 0 = some (.getWithin true) := by
      obtain ⟨n, hn⟩ := h.free
      refine ⟨[.look 0 false], ?_⟩
      rw [hrun]
      refine ⟨⟨h.rowSet_eq, h.stopped_eq, n + 1, fun k hk => ?_⟩, by simp⟩
      exact (Function.update_of_ne (by omega : k ≠ 0) _ _).trans (hn k (by omega))
    simp only [getWithin, hf]
    refine hwaits.trans fun s' hshows hcall' => ?_
    refine (hshows.sleep .reader (t.clock + millis * 1000) patience).trans fun _ hshows' hstay => ?_
    exact (poll_traffic hshows' (hstay.trans hcall') (Or.inl rfl)).mono fun _ ha => ⟨true, ha⟩
  all_goals
    have hlast : t.rowSet.front ≠ .empty := by simp [hf]
    simp only [getWithin, hf]
    exact (poll_traffic h hcall (Or.inr hlast)).mono fun _ ha => ⟨false, ha⟩

end Timeline

end Rowflow
