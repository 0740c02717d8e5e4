import Mathlib.Data.List.Infix
import Mathlib.Tactic.Common
import Rowflow.Proofs.RowSet.Queue

/-!
# Clients of a row set

Any number of clients use one row set at the same time. A client that has called waits for the lock;
with the lock it takes one look (`RowSet.look`), which answers the call or sends the client back to
waiting. What the clients are doing is a list of calls, looks and stops in the order in which they
happen, so every interleaving of every number of clients is such a list.

The answers are written down in their order. `lossless_fifo` compares them with the row set: it never
holds more than it may, what was read and what still waits are what was accepted, nothing is accepted
behind the end mark, the end is told to readers only when nothing is left and to all of them from
then on, and a writer that is turned away leaves the row set as it was.
-/

namespace Rowflow

namespace RowSet

/-- What a client calls for. -/
inductive Call where
  /-- An entry is to be written; whether the client waits for room up to a time only. -/
  | put (e : Entry) (timed : Bool)
  /-- An entry is to be read, however long it takes until there is one. -/
  | get
  /-- An entry is to be read, with one wait for it at most; whether the client has waited already. -/
  | getWithin (waited : Bool)
  /-- The end mark is to be set. -/
  | finish
  deriving DecidableEq

/-- The answer to a call. -/
inductive Reply where
  | accepted
  | closed
  | stopped
  /-- There was no room in time; the entry is handed back. -/
  | returned (e : Entry)
  | row (e : Entry)
  /-- There is no entry, since none can come or since the run was stopped. -/
  | nothing
  /-- There is no entry yet. -/
  | empty
  /-- There is no entry and none can come. -/
  | done
  | finished
  deriving DecidableEq

/-- What a look leads to. -/
inductive Outcome where
  | waits (call : Call)
  | answers (reply : Reply)
  deriving DecidableEq

namespace Call

/-- The entry that is to be written. -/
def entry? : Call → Option Entry
  | put e _ => some e
  | _ => none

/-- The answer to a reader that no entry can come. -/
def ending? : Call → Option Reply
  | get => some .nothing
  | getWithin _ => some .done
  | _ => none

end Call

/-- One look of a client that has the lock; `late` says that its time is up. -/
def look (r : RowSet) (stopped late : Bool) : Call → RowSet × Outcome
  | .put e timed =>
    match r.admission stopped with
    | .room => (r.accept e, .answers .accepted)
    | .closed => (r, .answers .closed)
    | .stopped => (r, .answers .stopped)
    | .full => (r, if timed && late then .answers (.returned e) else .waits (.put e timed))
  | .get =>
    match r.front with
    | .row e => (r.advance, .answers (.row e))
    | .done => (r, .answers .nothing)
    | .empty => (r, if stopped then .answers .nothing else .waits .get)
  | .getWithin waited =>
    match r.front with
    | .row e => (r.advance, .answers (.row e))
    | .done => (r, .answers .done)
    | .empty => (r, if waited then .answers .empty else .waits (.getWithin true))
  | .finish => (r.finish, .answers .finished)

end RowSet

open RowSet (Call Reply)

/-- An answer that a client has got, and whether the stop flag was raised. -/
structure Answer where
  client : Nat
  call : Call
  reply : Reply
  stopped : Bool
  deriving DecidableEq

namespace Answer

/-- The entry that the row set has taken. -/
def taken? (a : Answer) : Option Entry := if a.reply = .accepted then a.call.entry? else none

/-- The entry that the client has got. -/
def read? (a : Answer) : Option Entry :=
  match a.reply with
  | .row e => some e
  | _ => none

/-- Whether the client was told that no entry can come. -/
def IsEnd (a : Answer) : Prop := a.reply = .done ∨ a.reply = .nothing ∧ a.stopped = false

instance (a : Answer) : Decidable a.IsEnd := inferInstanceAs (Decidable (_ ∨ _))

end Answer

/-- A row set with all its clients. -/
structure Traffic where
  rowSet : RowSet
  /-- Whether the stop flag is raised. -/
  stopped : Bool := false
  /-- The calls that have not been answered yet. -/
  calls : Nat → Option Call := fun _ => none
  /-- The answers so far. -/
  log : List Answer := []

namespace Traffic

/-- Something that happens. -/
inductive Event where
  /-- A client that is in no call makes one. -/
  | call (client : Nat) (call : Call)
  /-- A client that is in a call gets the lock. -/
  | look (client : Nat) (late : Bool)
  /-- The stop flag is raised. -/
  | stop
  deriving DecidableEq

/-- What an event makes of a row set and its clients. -/
def perform (t : Traffic) : Event → Traffic
  | .call i call =>
    if t.calls i = none then { t with calls := Function.update t.calls i (some call) } else t
  | .look i late =>
    match t.calls i with
    | none => t
    | some call =>
      match t.rowSet.look t.stopped late call with
      | (r, .waits call) => { t with rowSet := r, calls := Function.update t.calls i (some call) }
      | (r, .answers reply) =>
        { t with
          rowSet := r
          calls := Function.update t.calls i none
          log := t.log ++ [⟨i, call, reply, t.stopped⟩] }
  | .stop => { t with stopped := true }

/-- What a list of events makes of a row set and its clients. -/
def run (t : Traffic) (events : List Event) : Traffic := events.foldl perform t

/-- A new row set of a capacity that nobody uses yet. -/
def opened (capacity : Nat) : Traffic := { rowSet := .new capacity }

/-- The entries that were taken, in the order of the answers. -/
def accepted (log : List Answer) : List Entry := log.filterMap Answer.taken?

/-- The entries that were read, in the order of the answers. -/
def delivered (log : List Answer) : List Entry := log.filterMap Answer.read?

end Traffic

/-! ### One look -/

/-- Everything that a look may lead to. -/
inductive RowSet.Looked (r : RowSet) (stopped : Bool) : Call → RowSet → RowSet.Outcome → Prop where
  | taken {e timed} (room : r.admission stopped = .room) :
    Looked r stopped (.put e timed) (r.accept e) (.answers .accepted)
  | refused {e timed reply} (h : reply = .closed ∨ reply = .stopped ∨ reply = .returned e) :
    Looked r stopped (.put e timed) r (.answers reply)
  | read {call ending e} (front : r.front = .row e) (reader : call.ending? = some ending) :
    Looked r stopped call r.advance (.answers (.row e))
  | ended {call ending} (front : r.front = .done) (reader : call.ending? = some ending) :
    Looked r stopped call r (.answers ending)
  /-- A reader leaves since the run was stopped. -/
  | abandoned (front : r.front = .empty) (h : stopped = true) :
    Looked r stopped .get r (.answers .nothing)
  | empty {waited} (front : r.front = .empty) :
    Looked r stopped (.getWithin waited) r (.answers .empty)
  | finished : Looked r stopped .finish r.finish (.answers .finished)
  | waits {call call'} (open_ : call.ending? = none ∨ r.front = .empty) :
    Looked r stopped call r (.waits call')

theorem RowSet.look_looked (r : RowSet) (stopped late : Bool) (call : Call) :
    r.Looked stopped call (r.look stopped late call).1 (r.look stopped late call).2 := by
  cases call with
  | put e timed =>
    simp only [look]
    cases h : r.admission stopped
    case room => exact .taken h
    case closed => exact .refused (Or.inl rfl)
    case stopped => exact .refused (Or.inr (Or.inl rfl))
    case full =>
      dsimp only
      split
      · exact .refused (Or.inr (Or.inr rfl))
      · exact .waits (Or.inl rfl)
  | get =>
    simp only [look]
    cases h : r.front
    case row e => exact .read h rfl
    case done => exact .ended h rfl
    case empty =>
      dsimp only
      split
      · exact .abandoned h ‹_›
      · exact .waits (Or.inr h)
  | getWithin waited =>
    simp only [look]
    cases h : r.front
    case row e => exact .read h rfl
    case done => exact .ended h rfl
    case empty =>
      dsimp only
      split
      · exact .empty h
      · exact .waits (Or.inr h)
  | finish => exact .finished

namespace RowSet.Looked

variable {r r' : RowSet} {stopped : Bool} {call : Call} {reply : Reply} {i : Nat}

theorem capacity_eq (h : r.Looked stopped call r' (.answers reply)) : r'.capacity = r.capacity := by
  cases h
  case read => exact r.capacity_advance
  all_goals rfl

theorem size_le (h : r.Looked stopped call r' (.answers reply)) (hs : r.size ≤ r.capacity) :
    r'.size ≤ r'.capacity := by
  rw [h.capacity_eq]
  cases h
  case taken room => exact size_accept_le room
  case read =>
    rw [← length_waiting, waiting_advance, List.length_tail, length_waiting]
    omega
  all_goals exact hs

theorem waiting_eq (h : r.Looked stopped call r' (.answers reply)) :
    (Answer.mk i call reply stopped).read?.toList ++ r'.waiting =
      r.waiting ++ (Answer.mk i call reply stopped).taken?.toList := by
  cases h
  case taken e timed room => exact r.waiting_accept e
  case refused e timed h => rcases h with rfl | rfl | rfl <;> simp [Answer.read?, Answer.taken?]
  case read ending e front reader =>
    rcases r.front_cases with ⟨e', rest, hf, hw⟩ | ⟨hf, -⟩ | ⟨hf, -⟩
    · obtain rfl : e = e' := by simpa [hf, eq_comm] using front
      simp [Answer.read?, Answer.taken?, waiting_advance, hw]
    · rw [front] at hf
      cases hf
    · rw [front] at hf
      cases hf
  case ended front reader =>
    cases call <;> cases reader <;> simp [Answer.read?, Answer.taken?]
  case abandoned => simp [Answer.read?, Answer.taken?]
  case empty => simp [Answer.read?, Answer.taken?]
  case finished => simp [Answer.read?, Answer.taken?, RowSet.finish, waiting]

theorem isDone_iff (h : r.Looked stopped call r' (.answers reply)) :
    r'.isDone = true ↔ r.isDone = true ∨ reply = .finished := by
  cases h
  case taken => simp [accept]
  case refused h => rcases h with rfl | rfl | rfl <;> simp
  case read => simp [isDone_advance]
  case ended front reader => cases call <;> cases reader <;> simp
  case finished => simp [RowSet.finish]
  all_goals simp

theorem ne_accepted (h : r.Looked stopped call r' (.answers reply)) (hd : r.isDone = true) :
    reply ≠ .accepted := by
  rintro rfl
  cases h
  case taken room =>
    rw [open_of_room room] at hd
    cases hd
  case refused h => rcases h with h | h | h <;> cases h
  case ended front reader => cases call <;> cases reader

/-- The end is told only if nothing waits and nothing can come. -/
theorem front_of_isEnd (h : r.Looked stopped call r' (.answers reply))
    (he : (Answer.mk i call reply stopped).IsEnd) : r.front = .done := by
  unfold Answer.IsEnd at he
  cases h
  case refused h => rcases h with rfl | rfl | rfl <;> simp at he
  case ended front reader => exact front
  case abandoned h => simp [h] at he
  all_goals simp at he

theorem reply_of_done {ending : Reply} (h : r.Looked stopped call r' (.answers reply))
    (hf : r.front = .done) (hr : call.ending? = some ending) : reply = ending := by
  cases h
  case taken => cases hr
  case refused => cases hr
  case read front _ =>
    rw [hf] at front
    cases front
  case ended front reader =>
    rw [hr] at reader
    exact (Option.some.inj reader).symm
  case abandoned front h =>
    rw [hf] at front
    cases front
  case empty front =>
    rw [hf] at front
    cases front
  case finished => cases hr

theorem front_eq_done (h : r.Looked stopped call r' (.answers reply)) (hf : r.front = .done) :
    r'.front = .done := by
  obtain ⟨hw, hd⟩ := front_eq_done_iff.mp hf
  refine front_eq_done_iff.mpr ⟨?_, h.isDone_iff.mpr (Or.inl hd)⟩
  have heq := h.waiting_eq (i := 0)
  have hnone : (Answer.mk 0 call reply stopped).taken? = none := if_neg (h.ne_accepted hd)
  rw [hnone, hw] at heq
  exact (List.append_eq_nil_iff.mp heq).2

end RowSet.Looked

/-! ### The whole traffic -/

namespace Traffic

/-- What a row set of a capacity and the answers so far have to do with each other. -/
structure Lawful (capacity : Nat) (r : RowSet) (log : List Answer) : Prop where
  capacity_eq : r.capacity = max capacity 1
  size_le : r.size ≤ r.capacity
  /-- Nothing is lost, nothing is doubled, and the order is kept. -/
  kept : delivered log ++ r.waiting = accepted log
  isDone_iff : r.isDone = true ↔ ∃ a ∈ log, a.reply = .finished
  /-- Nothing is taken behind the end mark. -/
  closed : log.Pairwise fun a b => a.reply = .finished → b.reply ≠ .accepted
  /-- Who is told the end is told it behind the end mark and with everything read. -/
  drained : ∀ before a, before ++ [a] <+: log → a.IsEnd →
    (∃ b ∈ before, b.reply = .finished) ∧ delivered before = accepted before
  /-- After the end every reader is told it. -/
  ended : log.Pairwise fun a b => a.IsEnd → ∀ ending ∈ b.call.ending?, b.reply = ending
  front_done : (∃ a ∈ log, a.IsEnd) → r.front = .done

theorem lawful_new (capacity : Nat) : Lawful capacity (.new capacity) [] where
  capacity_eq := rfl
  size_le := Nat.zero_le _
  kept := rfl
  isDone_iff := by simp [RowSet.new]
  closed := .nil
  drained := by simp
  ended := .nil
  front_done := by simp

theorem accepted_concat (log : List Answer) (a : Answer) :
    accepted (log ++ [a]) = accepted log ++ a.taken?.toList := by
  cases h : a.taken? <;> simp [accepted, h]

theorem delivered_concat (log : List Answer) (a : Answer) :
    delivered (log ++ [a]) = delivered log ++ a.read?.toList := by
  cases h : a.read? <;> simp [delivered, h]

theorem pairwise_concat {R : Answer → Answer → Prop} {log : List Answer} {a : Answer}
    (h : log.Pairwise R) (ha : ∀ b ∈ log, R b a) : (log ++ [a]).Pairwise R :=
  List.pairwise_append.mpr ⟨h, List.pairwise_singleton R a, by simpa using ha⟩

variable {capacity i : Nat} {r r' : RowSet} {log : List Answer} {stopped : Bool} {call : Call}
  {reply : Reply}

theorem Lawful.answer (hl : Lawful capacity r log)
    (h : r.Looked stopped call r' (.answers reply)) :
    Lawful capacity r' (log ++ [⟨i, call, reply, stopped⟩]) where
  capacity_eq := h.capacity_eq.trans hl.capacity_eq
  size_le := h.size_le hl.size_le
  kept := by
    rw [delivered_concat, accepted_concat, List.append_assoc, h.waiting_eq, ← List.append_assoc,
      hl.kept]
  isDone_iff := by
    rw [h.isDone_iff, hl.isDone_iff]
    simp [or_and_right, exists_or]
  closed := by
    refine pairwise_concat hl.closed fun b hb hfin => h.ne_accepted ?_
    exact hl.isDone_iff.mpr ⟨b, hb, hfin⟩
  drained := by
    intro before a hp he
    rcases List.prefix_concat_iff.mp hp with heq | hp
    · obtain ⟨rfl, heq⟩ := List.append_inj' heq rfl
      obtain rfl : a = ⟨i, call, reply, stopped⟩ := by simpa using heq
      obtain ⟨hw, hd⟩ := RowSet.front_eq_done_iff.mp (h.front_of_isEnd he)
      refine ⟨hl.isDone_iff.mp hd, ?_⟩
      simpa [hw] using hl.kept
    · exact hl.drained before a hp he
  ended := by
    refine pairwise_concat hl.ended fun b hb he ending hr => ?_
    exact h.reply_of_done (hl.front_done ⟨b, hb, he⟩) hr
  front_done := by
    rintro ⟨a, ha, he⟩
    refine h.front_eq_done ?_
    rcases List.mem_append.mp ha with ha | ha
    · exact hl.front_done ⟨a, ha, he⟩
    · obtain rfl : a = ⟨i, call, reply, stopped⟩ := by simpa using ha
      exact h.front_of_isEnd he

variable {t : Traffic} {late : Bool}

theorem perform_call (h : t.calls i = none) :
    t.perform (.call i call) = { t with calls := Function.update t.calls i (some call) } :=
  if_pos h

theorem perform_look_waits {call' : Call} (h : t.calls i = some call)
    (hlook : t.rowSet.look t.stopped late call = (r, .waits call')) :
    t.perform (.look i late) =
      { t with rowSet := r, calls := Function.update t.calls i (some call') } := by
  simp only [perform, h, hlook]

theorem perform_look_answers (h : t.calls i = some call)
    (hlook : t.rowSet.look t.stopped late call = (r, .answers reply)) :
    t.perform (.look i late) =
      { t with
        rowSet := r
        calls := Function.update t.calls i none
        log := t.log ++ [⟨i, call, reply, t.stopped⟩] } := by
  simp only [perform, h, hlook]

theorem Lawful.perform (hl : Lawful capacity t.rowSet t.log) (event : Event) :
    Lawful capacity (t.perform event).rowSet (t.perform event).log := by
  cases event with
  | call i call =>
    simp only [Traffic.perform]
    split <;> exact hl
  | stop => exact hl
  | look i late =>
    rcases hcall : t.calls i with _ | call
    · simpa only [Traffic.perform, hcall] using hl
    · have h := t.rowSet.look_looked t.stopped late call
      rcases hlook : t.rowSet.look t.stopped late call with ⟨r, call' | reply⟩ <;> rw [hlook] at h
      · rw [perform_look_waits hcall hlook]
        cases h
        exact hl
      · rw [perform_look_answers hcall hlook]
        exact hl.answer h

theorem lawful (capacity : Nat) (events : List Event) :
    Lawful capacity ((opened capacity).run events).rowSet ((opened capacity).run events).log := by
  unfold run
  induction events using List.reverseRecOn with
  | nil => exact lawful_new capacity
  | append_singleton events event ih =>
    rw [List.foldl_append]
    exact ih.perform event

/-- A reader that has the lock when nothing waits and nothing can come is told so at once. -/
theorem log_look_of_done {ending : Reply} (hf : t.rowSet.front = .done) (hcall : t.calls i = some call)
    (hr : call.ending? = some ending) :
    (t.perform (.look i late)).log = t.log ++ [⟨i, call, ending, t.stopped⟩] := by
  have hlook : t.rowSet.look t.stopped late call = (t.rowSet, .answers ending) := by
    cases call <;> cases hr <;> simp [RowSet.look, hf]
  rw [perform_look_answers hcall hlook]

/-- A writer whose entry is not taken leaves the row set as it was, and what it is handed back is
what it came with. -/
theorem refused_unchanged {a : Answer} (hcall : t.calls i = some call) (hput : call.entry? ≠ none)
    (hlog : (t.perform (.look i late)).log = t.log ++ [a]) (hreply : a.reply ≠ .accepted) :
    (t.perform (.look i late)).rowSet = t.rowSet ∧
      ∀ e, a.reply = .returned e → call.entry? = some e := by
  have h := t.rowSet.look_looked t.stopped late call
  rcases hlook : t.rowSet.look t.stopped late call with ⟨r, call' | reply⟩ <;> rw [hlook] at h
  · simp [perform_look_waits hcall hlook] at hlog
  · rw [perform_look_answers hcall hlook] at hlog ⊢
    obtain rfl : a = ⟨i, call, reply, t.stopped⟩ := by simpa using hlog.symm
    cases h
    case taken => exact absurd rfl hreply
    case refused e timed h =>
      refine ⟨rfl, fun e' he => ?_⟩
      rcases h with rfl | rfl | rfl <;> cases he
      rfl
    case read => cases call <;> simp_all [Call.entry?, Call.ending?]
    case ended => cases call <;> simp_all [Call.entry?, Call.ending?]
    all_goals exact absurd rfl hput

/-- **A row set is a bounded queue that loses nothing.** Whatever any number of clients do, in any
order of their looks: the row set never holds more than it may; what was read, followed by what
waits, is what was taken; nothing is taken behind the end mark; a reader is told the end only behind
the end mark and with everything read, and from then on every reader is; and a writer that is turned
away changes nothing. -/
theorem lossless_fifo (capacity : Nat) (events : List Event) :
    let t := (opened capacity).run events
    t.rowSet.size ≤ max capacity 1 ∧
    delivered t.log ++ t.rowSet.waiting = accepted t.log ∧
    (t.rowSet.isDone = true ↔ ∃ a ∈ t.log, a.reply = .finished) ∧
    (t.log.Pairwise fun a b => a.reply = .finished → b.reply ≠ .accepted) ∧
    (∀ before a, before ++ [a] <+: t.log → a.IsEnd →
      (∃ b ∈ before, b.reply = .finished) ∧ delivered before = accepted before) ∧
    (t.log.Pairwise fun a b => a.IsEnd → ∀ ending ∈ b.call.ending?, b.reply = ending) ∧
    (∀ i late call ending, t.calls i = some call → call.ending? = some ending →
      (∃ a ∈ t.log, a.IsEnd) →
      (t.perform (.look i late)).log = t.log ++ [⟨i, call, ending, t.stopped⟩]) ∧
    (∀ i late call a, t.calls i = some call → call.entry? ≠ none →
      (t.perform (.look i late)).log = t.log ++ [a] → a.reply ≠ .accepted →
      (t.perform (.look i late)).rowSet = t.rowSet ∧
        ∀ e, a.reply = .returned e → call.entry? = some e) := by
  intro t
  have hl := lawful capacity events
  refine ⟨hl.capacity_eq ▸ hl.size_le, hl.kept, hl.isDone_iff, hl.closed, hl.drained, hl.ended, ?_,
    ?_⟩
  · intro i late call ending hcall hr hend
    exact log_look_of_done (hl.front_done hend) hcall hr
  · intro i late call a hcall hput hlog hreply
    exact refused_unchanged hcall hput hlog hreply

-- the second writer waits for room, and the reader gets both entries and then the end
example :
    let e (n : Int64) : Entry := ⟨⟨[⟨"n", .integer, -1, -1⟩]⟩, ⟨[.integer n]⟩⟩
    let get : List Event := [.call 2 .get, .look 2 false]
    ((opened 1).run ([.call 0 (.put (e 1) false), .call 1 (.put (e 2) false), .look 0 false,
        .look 1 false] ++ get ++ [.look 1 false, .call 0 .finish, .look 0 false] ++ get ++ get)).log.map
        (fun a => (a.client, a.reply)) =
      [(0, .accepted), (2, .row (e 1)), (1, .accepted), (0, .finished), (2, .row (e 2)),
        (2, .nothing)] := by
  decide +kernel

end Traffic

end Rowflow
