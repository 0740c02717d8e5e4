import Mathlib.Algebra.Ring.Nat
import Rowflow.Proofs.Course.RowSets

/-!
# What the operations can do

One statement for each operation of a context: all that can come of it, with the deed that it is.
`Context.Delivered` lists what a step of a delivery can do, `Activity.ReadStep` what a step of a
read can do; `startWrite_cases`, `startWriteTo_cases` and `startDivert_cases` say how a write
begins. Nothing after this file unfolds an operation.
-/

namespace Rowflow

/-! ### The shared state -/

/-- Two states with the same row sets, the same stop flag, the same error counts, the same reports and
the same clock. What differs is for people: log, journal, collectors. -/
structure Shared.Same (s s' : Shared) : Prop where
  rowSets : s'.rowSets = s.rowSets
  stopped : s'.stopped = s.stopped
  errorCounts : s'.errorCounts = s.errorCounts
  reports : s'.reports = s.reports
  clock : s'.clock = s.clock
  episodes : s'.episodes = s.episodes

namespace Shared

variable (s : Shared)

theorem Same.refl : s.Same s := ⟨rfl, rfl, rfl, rfl, rfl, rfl⟩

theorem Same.trans {s s' s'' : Shared} (h : s.Same s') (h' : s'.Same s'') : s.Same s'' :=
  ⟨h'.rowSets.trans h.rowSets, h'.stopped.trans h.stopped, h'.errorCounts.trans h.errorCounts,
    h'.reports.trans h.reports, h'.clock.trans h.clock, h'.episodes.trans h.episodes⟩

theorem same_say (m : Log.Message) : s.Same (s.say m) := ⟨rfl, rfl, rfl, rfl, rfl, rfl⟩

theorem same_sayAll (ms : List Log.Message) : s.Same (s.sayAll ms) := by
  unfold sayAll
  induction ms generalizing s with
  | nil => exact .refl s
  | cons m ms ih => exact (s.same_say m).trans (ih (s.say m))

theorem same_note (worker : String) (o : Observation) : s.Same (s.note worker o) :=
  ⟨rfl, rfl, rfl, rfl, rfl, rfl⟩

theorem same_reach (m : Milestone) : s.Same (s.reach m) := ⟨rfl, rfl, rfl, rfl, rfl, rfl⟩

theorem same_tell (ls : List Listener) (event : RowEvent) (e : Entry) :
    s.Same (s.tell ls event e).1 := ⟨rfl, rfl, rfl, rfl, rfl, rfl⟩

theorem reports_requestStop (by_ : String) : (s.requestStop by_).reports = s.reports := by
  unfold requestStop
  split <;> rfl

theorem clock_requestStop (by_ : String) : (s.requestStop by_).clock = s.clock := by
  unfold requestStop
  split <;> rfl

theorem episodes_requestStop (by_ : String) : (s.requestStop by_).episodes = s.episodes := by
  unfold requestStop
  split <;> rfl

theorem requestStop_fixed (by_ : String) : (s.requestStop by_).rowSets = s.rowSets ∧
    (s.requestStop by_).stopped = true ∧ (s.requestStop by_).errorCounts = s.errorCounts := by
  unfold requestStop
  split
  · exact ⟨rfl, by assumption, rfl⟩
  · exact ⟨rfl, rfl, rfl⟩

theorem errorCount_congr {s s' : Shared} (h : s'.errorCounts = s.errorCounts) (slot : Nat) :
    s'.errorCount slot = s.errorCount slot := by
  unfold errorCount
  rw [h]

end Shared

/-! ### The error count -/

theorem addWords_ok {a b sum : UInt64} (h : addWords a b = .ok sum) :
    sum.toNat = a.toNat + b.toNat := by
  unfold addWords at h
  split at h <;> cases h
  rw [UInt64.toNat_add]
  exact Nat.mod_eq_of_lt ‹_›

theorem addWords_error {a b : UInt64} {p : Panic} (h : addWords a b = .error p) :
    p = .overflow ∧ 2 ^ 64 ≤ a.toNat + b.toNat := by
  unfold addWords at h
  split at h <;> cases h
  exact ⟨rfl, Nat.not_lt.mp ‹_›⟩

namespace ErrorHandling

variable {h : ErrorHandling} {count weight sum : UInt64} {err : RouteError} {p : Panic}

theorem reserve_ok (hok : h.reserve count weight = .ok sum) :
    sum.toNat = count.toNat + weight.toNat ∧ ∀ m ∈ h.maxErrors, sum.toNat ≤ m.toNat := by
  unfold reserve at hok
  rcases hadd : addWords count weight with q | next <;> rw [hadd] at hok <;> dsimp only at hok
  · cases hok
  rcases hmax : h.maxErrors with _ | m <;> rw [hmax] at hok <;> dsimp only at hok
  · cases hok
    exact ⟨addWords_ok hadd, fun _ hm => by cases hm⟩
  · split at hok <;> cases hok
    refine ⟨addWords_ok hadd, fun _ hm => ?_⟩
    cases hm
    exact Nat.not_lt.mp ‹_›

/-- Nothing is refused but what takes the count above the maximum. -/
theorem reserve_refused (herr : h.reserve count weight = .error (.refused err)) :
    ∃ maximum sum, err = .ceilingExceeded maximum sum ∧ h.maxErrors = some maximum ∧
      sum.toNat = count.toNat + weight.toNat ∧ maximum.toNat < sum.toNat := by
  unfold reserve at herr
  rcases hadd : addWords count weight with q | next <;> rw [hadd] at herr <;> dsimp only at herr
  · cases herr
  rcases hmax : h.maxErrors with _ | m <;> rw [hmax] at herr <;> dsimp only at herr
  · cases herr
  · split at herr <;> cases herr
    exact ⟨m, next, rfl, rfl, addWords_ok hadd, ‹m < next›⟩

theorem reserve_broken (herr : h.reserve count weight = .error (.broken p)) :
    p = .overflow ∧ 2 ^ 64 ≤ count.toNat + weight.toNat := by
  unfold reserve at herr
  rcases hadd : addWords count weight with q | next <;> rw [hadd] at herr <;> dsimp only at herr
  · cases herr
    exact addWords_error hadd
  rcases hmax : h.maxErrors with _ | m <;> rw [hmax] at herr <;> dsimp only at herr
  · cases herr
  · split at herr <;> cases herr

end ErrorHandling

/-- When a listener breaks down, one of those that are told does. -/
theorem exists_of_tell {ls : List Listener} {kind : RowEvent} {e : Entry} {cs : Array Collector}
    {p : Panic} (h : (tell ls kind e cs).2 = some p) : ∃ l ∈ ls, l.fails kind e = some p := by
  induction ls generalizing cs with
  | nil => cases h
  | cons l rest ih =>
    unfold tell at h
    rcases hl : l.fails kind e with _ | q <;> simp only [hl] at h
    · obtain ⟨l', hl', hp⟩ := ih h
      exact ⟨l', List.mem_cons_of_mem l hl', hp⟩
    · cases h
      exact ⟨l, List.mem_cons_self, hl⟩

/-- What has been counted of failing rows: the errors and the rows. -/
def Counters.failures (c : Counters) : UInt64 × UInt64 := (c.errors, c.rejected)

namespace Context

/-! ### Reading -/

theorem poll_cases (c : Context) (s : Shared) :
    (c.inputs[c.turn]? = none ∧ c.poll s = (s, c, .ended)) ∨
    ∃ i, c.inputs[c.turn]? = some i ∧
      ((s.front i = .done ∧ c.poll s =
          (s, { c with inputs := c.inputs.eraseIdx c.turn, nextInput := c.turn }, .ended)) ∨
       (s.front i = .empty ∧ c.poll s = (s, { c with nextInput := c.turn + 1 }, .empty)) ∨
       ∃ e, s.front i = .row e ∧ c.poll s = ({ c with nextInput := c.turn + 1 } : Context).takeOver
         (s.advance i) e) := by
  unfold poll
  rcases hi : c.inputs[c.turn]? with _ | i
  · exact Or.inl ⟨rfl, rfl⟩
  · refine Or.inr ⟨i, rfl, ?_⟩
    rcases hf : s.front i with e | _ | _
    · exact Or.inr (Or.inr ⟨e, rfl, by simp only [hf]⟩)
    · exact Or.inr (Or.inl ⟨rfl, by simp only [hf]⟩)
    · exact Or.inl ⟨rfl, by simp only [hf]⟩

theorem takeOver_cases (c : Context) (s : Shared) (e : Entry) :
    (∃ p, c.takeOver s e = ((s.tell c.listeners .read e).1,
      { c with counters := { c.counters with read := c.counters.read + 1 } }, .broken p)) ∨
    c.takeOver s e = ((s.tell c.listeners .read e).1,
      { c with
        counters := { c.counters with read := c.counters.read + 1 }
        currentRow := if c.diverts then some e.row else c.currentRow
        inputLayout := some e.layout }, .row e) := by
  unfold takeOver
  rcases ht : s.tell c.listeners .read e with ⟨s', _ | p⟩
  · right
    simp only [ht]
    rfl
  · left
    exact ⟨p, by simp only [ht]⟩

/-! ### Beginning to write -/

theorem checkLayout_cases (e : Entry) :
    (e.row.size = e.layout.size ∧ checkLayout e = .ok ()) ∨
    (e.row.size ≠ e.layout.size ∧
      checkLayout e = .error (.layoutMismatch e.row.size e.layout.size)) := by
  unfold checkLayout
  by_cases h : e.row.size = e.layout.size
  · exact Or.inl ⟨h, if_pos h⟩
  · exact Or.inr ⟨h, if_neg h⟩

theorem startWrite_cases (c : Context) (e : Entry) :
    (e.row.size ≠ e.layout.size ∧
      c.startWrite e = (c, .error (.layoutMismatch e.row.size e.layout.size))) ∨
    (e.row.size = e.layout.size ∧
      ((c.spec.movement = .copy ∧
          c.startWrite e = (c, .ok ⟨e, c.outputs.map (·.2), .output⟩)) ∨
       (c.spec.movement = .distribute ∧ c.outputs[c.nextOutput % c.outputs.length]? = none ∧
          c.startWrite e = (c, .ok ⟨e, [], .output⟩)) ∨
       ∃ t i, c.spec.movement = .distribute ∧
          c.outputs[c.nextOutput % c.outputs.length]? = some (t, i) ∧
          c.startWrite e = ({ c with nextOutput := c.nextOutput % c.outputs.length + 1 },
            .ok ⟨e, [i], .output⟩))) := by
  unfold startWrite
  rcases checkLayout_cases e with ⟨hsize, h⟩ | ⟨hsize, h⟩
  · refine Or.inr ⟨hsize, ?_⟩
    rw [h]
    rcases hm : c.spec.movement with _ | _
    · exact Or.inl ⟨rfl, rfl⟩
    · dsimp only
      rcases ho : c.outputs[c.nextOutput % c.outputs.length]? with _ | ⟨t, i⟩
      · exact Or.inr (Or.inl ⟨rfl, rfl, rfl⟩)
      · exact Or.inr (Or.inr ⟨t, i, rfl, rfl, rfl⟩)
  · rw [h]
    exact Or.inl ⟨hsize, rfl⟩

theorem startWriteTo_cases (c : Context) (target : String) (e : Entry) :
    (e.row.size ≠ e.layout.size ∧
      c.startWriteTo target e = .error (.layoutMismatch e.row.size e.layout.size)) ∨
    (e.row.size = e.layout.size ∧
      ((c.outputs.find? (·.1 = target) = none ∧
          c.startWriteTo target e = .error (.unknownTarget target)) ∨
       ∃ t i, c.outputs.find? (·.1 = target) = some (t, i) ∧
          c.startWriteTo target e = .ok ⟨e, [i], .output⟩)) := by
  unfold startWriteTo
  rcases checkLayout_cases e with ⟨hsize, h⟩ | ⟨hsize, h⟩
  · refine Or.inr ⟨hsize, ?_⟩
    rw [h]
    rcases ho : c.outputs.find? (·.1 = target) with _ | ⟨t, i⟩
    · exact Or.inl ⟨ho, by simp [ho, bind, Except.bind]⟩
    · exact Or.inr ⟨t, i, ho, by simp [ho, bind, Except.bind]⟩
  · rw [h]
    exact Or.inl ⟨hsize, rfl⟩

/-- Diverting a row is refused for want of a route or because of too many errors, or it breaks down over
the count; else the errors are counted and the row set of the route gets the row. -/
theorem startDivert_cases (c : Context) (s : Shared) (e : Entry) (why : Diagnosis) :
    (c.errors = none ∧
      c.startDivert s e why = (s, c, .ok (.error (.row why.description why.fields why.codes)))) ∨
    (∃ route maximum next, c.errors = some route ∧
      route.diversion.handling.reserve (s.errorCount route.slot) why.weight =
        .error (.refused (.ceilingExceeded maximum next)) ∧
      c.startDivert s e why =
        (s.sayAll route.diversion.refusal, c, .ok (.error (.route (.ceilingExceeded maximum next))))) ∨
    (∃ route, c.errors = some route ∧
      route.diversion.handling.reserve (s.errorCount route.slot) why.weight =
        .error (.broken .overflow) ∧
      c.startDivert s e why = (s, c, .error .overflow)) ∨
    ∃ route count, c.errors = some route ∧
      route.diversion.handling.reserve (s.errorCount route.slot) why.weight = .ok count ∧
      c.startDivert s e why =
        ({ s with errorCounts := s.errorCounts.setIfInBounds route.slot count },
          { c with errors := some { route with diversion := (route.diversion.layoutFor e.layout).2 } },
          .ok (.ok ⟨⟨(route.diversion.layoutFor e.layout).1, e.row.append why.values⟩, [route.rowSet],
            .error why⟩)) := by
  unfold startDivert
  rcases c.errors with _ | route
  · exact Or.inl ⟨rfl, rfl⟩
  · right
    rcases hr : route.diversion.handling.reserve (s.errorCount route.slot) why.weight with
      (err | p) | count
    · left
      obtain ⟨maximum, sum, rfl, -⟩ := ErrorHandling.reserve_refused hr
      refine ⟨route, maximum, sum, rfl, hr, ?_⟩
      simp [Diversion.prepare, hr, bind, Except.bind]
    · right; left
      obtain ⟨rfl, -⟩ := ErrorHandling.reserve_broken hr
      refine ⟨route, rfl, hr, ?_⟩
      simp [Diversion.prepare, hr, bind, Except.bind]
    · right; right
      refine ⟨route, count, rfl, hr, ?_⟩
      simp [Diversion.prepare, hr, bind, Except.bind, pure, Except.pure]

/-! ### Writing -/

/-- Whether a delivery is over, in that nothing is left to write to. -/
def Progress.IsOver (r : Progress) : Prop := r = .answered (.ok ()) ∨ ∃ p, r = .broken p

/-- What has been counted of failing rows when an entry has been written. -/
def Purpose.failures (c : Counters) : Purpose → UInt64 × UInt64
  | .output => c.failures
  | .error why => (c.errors + why.weight, c.rejected + 1)

/-- What a listener is told when an entry has been written. -/
def Purpose.event : Purpose → RowEvent
  | .output => .written
  | .error _ => .diverted

/-- No listener breaks down when it is told of such a row. -/
def Calm (c : Context) (event : RowEvent) : Prop := ∀ l ∈ c.listeners, ∀ e, l.fails event e = none

/-- What is counted when a delivery is over: a failing row and its errors, unless a listener has broken
down. -/
def Progress.Counts (r : Progress) (c : Context) (d : Delivery) (counters : Counters) : Prop :=
  (r = .answered (.ok ()) ∧ counters.failures = d.purpose.failures c.counters) ∨
    (∃ p, r = .broken p) ∧ ¬ c.Calm d.purpose.event ∧ counters.failures = c.counters.failures

theorem not_calm_of_tell {c : Context} {s s' : Shared} {event : RowEvent} {e : Entry} {p : Panic}
    (h : s.tell c.listeners event e = (s', some p)) : ¬ c.Calm event := by
  intro hcalm
  have hp : (tell c.listeners event e s.collectors).2 = some p := congrArg Prod.snd h
  obtain ⟨l, hl, hf⟩ := exists_of_tell hp
  rw [hcalm l hl e] at hf
  cases hf

theorem settle_cases (c : Context) (s : Shared) (d : Delivery) :
    ∃ s' counters, s.Same s' ∧
      ((c.settle s d = (s', { c with counters }, none) ∧
          (Progress.answered (.ok ())).Counts c d counters) ∨
        ∃ p, c.settle s d = (s', { c with counters }, some p) ∧
          (Progress.broken p).Counts c d counters) := by
  unfold settle
  rcases hp : d.purpose with _ | why
  · dsimp only
    have hs := s.same_tell c.listeners .written d.entry
    rcases ht : s.tell c.listeners .written d.entry with ⟨s', _ | p⟩ <;> rw [ht] at hs
    · exact ⟨s', _, hs, Or.inl ⟨rfl, Or.inl ⟨rfl, by rw [hp]; rfl⟩⟩⟩
    · have hcalm : ¬ c.Calm d.purpose.event := by rw [hp]; exact not_calm_of_tell ht
      exact ⟨s', c.counters, hs, Or.inr ⟨p, rfl, Or.inr ⟨⟨p, rfl⟩, hcalm, rfl⟩⟩⟩
  · dsimp only
    have hs := s.same_tell c.listeners .diverted d.entry
    have hcounts : (Progress.answered (.ok ())).Counts c d { c.counters with
        errors := c.counters.errors + why.weight
        rejected := c.counters.rejected + 1 } := Or.inl ⟨rfl, by rw [hp]; rfl⟩
    rcases ht : s.tell c.listeners .diverted d.entry with ⟨s', _ | p⟩ <;> rw [ht] at hs
    · rcases c.errors with _ | route
      · exact ⟨s', _, hs, Or.inl ⟨rfl, hcounts⟩⟩
      · exact ⟨_, _, hs.trans (s'.same_say _), Or.inl ⟨rfl, hcounts⟩⟩
    · have hcalm : ¬ c.Calm d.purpose.event := by rw [hp]; exact not_calm_of_tell ht
      exact ⟨s', c.counters, hs, Or.inr ⟨p, rfl, Or.inr ⟨⟨p, rfl⟩, hcalm, rfl⟩⟩⟩

/-- What a step of a delivery can do, with its deed. -/
inductive Delivered (s : Shared) (c : Context) (d : Delivery) :
    Option Deed → Shared → Context → Progress → Prop where
  | full (i : Nat) (rest : List Nat) (pending : d.pending = i :: rest)
      (found : s.admission i = .full) : Delivered s c d none s c (.pending d)
  | refused (i : Nat) (rest : List Nat) (err : RowSetError) (pending : d.pending = i :: rest)
      (found : err.isStop = true → s.stopped = true) :
      Delivered s c d (some (.refused (d.purpose.failure err))) s c
        (.answered (.error (d.purpose.failure err)))
  | partly (i j : Nat) (rest : List Nat) (pending : d.pending = i :: j :: rest)
      (found : s.admission i = .room) :
      Delivered s c d (some (.gave i d.entry)) (s.accept i d.entry) c
        (.pending { d with pending := j :: rest })
  | last (i : Nat) (s' : Shared) (counters : Counters) (r : Progress) (pending : d.pending = [i])
      (found : s.admission i = .room) (same : (s.accept i d.entry).Same s') (ended : r.IsOver)
      (counts : r.Counts c d counters) :
      Delivered s c d (some (.gave i d.entry)) s' { c with counters } r
  | nowhere (s' : Shared) (counters : Counters) (r : Progress) (pending : d.pending = [])
      (same : s.Same s') (ended : r.IsOver) (counts : r.Counts c d counters) :
      Delivered s c d none s' { c with counters } r

/-- **A step of a delivery.** -/
theorem deliver_spec (c : Context) (s : Shared) (d : Delivery) :
    Delivered s c d (deliveryDeed? s d) (c.deliver s d).1 (c.deliver s d).2.1
      (c.deliver s d).2.2 := by
  unfold deliver deliveryDeed?
  rcases hp : d.pending with _ | ⟨i, rest⟩
  · obtain ⟨s', counters, hs, ⟨h, hcounts⟩ | ⟨p, h, hcounts⟩⟩ := settle_cases c s d
    · simp only [h]
      exact .nowhere s' counters _ hp hs (Or.inl rfl) hcounts
    · simp only [h]
      exact .nowhere s' counters _ hp hs (Or.inr ⟨p, rfl⟩) hcounts
  · rcases ha : s.admission i with _ | _ | _ | _
    · rcases rest with _ | ⟨j, rest⟩
      · obtain ⟨s', counters, hs, ⟨h, hcounts⟩ | ⟨p, h, hcounts⟩⟩ :=
          settle_cases c (s.accept i d.entry) d
        · simp only [ha, List.isEmpty_nil, if_true, h]
          exact .last i s' counters _ hp ha hs (Or.inl rfl) hcounts
        · simp only [ha, List.isEmpty_nil, if_true, h]
          exact .last i s' counters _ hp ha hs (Or.inr ⟨p, rfl⟩) hcounts
      · simp only [ha, List.isEmpty_cons, Bool.false_eq_true, if_false]
        exact .partly i j rest hp ha
    · simp only [ha]
      exact .refused i rest _ hp (fun h => by cases h)
    · simp only [ha]
      exact .refused i rest _ hp (fun _ => Shared.stopped_of_admission ha)
    · simp only [ha]
      exact .full i rest hp ha

theorem Delivered.refused_of_error {s s' : Shared} {c c' : Context} {d : Delivery}
    {deed : Option Deed} {e : TransformError}
    (h : Delivered s c d deed s' c' (.answered (.error e))) : deed = some (.refused e) := by
  cases h
  case refused => rfl
  case last ended _ => rcases ended with h | ⟨p, h⟩ <;> cases h
  case nowhere ended _ => rcases ended with h | ⟨p, h⟩ <;> cases h

end Context

/-! ### Reads -/

namespace Activity

variable {σ α : Type}

/-- What a step of a read can do, with its deed. -/
inductive ReadStep (s : Shared) (c : Context) (next : Option Entry → Plan σ α) :
    Option Deed → Shared → Context → Activity σ α → Prop where
  | on (inputs : List Nat) (turn : Nat) (stage : ReadStage) (fewer : inputs.Sublist c.inputs)
      (dropped : ∀ i ∈ c.inputs, i ∉ inputs → s.front i = .done) :
      ReadStep s c next none s { c with inputs, nextInput := turn } (.reading stage next)
  | dry (why : s.stopped = true ∨ c.inputs = []) :
      ReadStep s c next (some .ranDry) s { c with currentRow := none } (.run (next none))
  | row (i : Nat) (e : Entry) (s' : Shared) (turn : Nat) (counters : Counters)
      (input : i ∈ c.inputs) (found : s.front i = .row e) (same : (s.advance i).Same s')
      (failures : counters.failures = c.counters.failures) :
      ReadStep s c next (some (.took i e)) s'
        { c with
          nextInput := turn
          counters
          currentRow := if c.diverts then some e.row else c.currentRow
          inputLayout := some e.layout } (.run (next (some e)))
  | broken (i : Nat) (e : Entry) (s' : Shared) (turn : Nat) (counters : Counters) (p : Panic)
      (input : i ∈ c.inputs) (found : s.front i = .row e) (same : (s.advance i).Same s')
      (failures : counters.failures = c.counters.failures) :
      ReadStep s c next (some (.took i e)) s' { c with nextInput := turn, counters } (.broken p)

theorem poll_spec (s : Shared) (c : Context) (next : Option Entry → Plan σ α) (stage : ReadStage) :
    ((c.poll s).2.2 = .ended ∨ (c.poll s).2.2 = .empty →
      ReadStep s c next (c.pollDeed? s) (c.poll s).1 (c.poll s).2.1 (.reading stage next)) ∧
    (∀ e, (c.poll s).2.2 = .row e →
      ReadStep s c next (c.pollDeed? s) (c.poll s).1 (c.poll s).2.1 (.run (next (some e)))) ∧
    ∀ p, (c.poll s).2.2 = .broken p →
      ReadStep s c next (c.pollDeed? s) (c.poll s).1 (c.poll s).2.1 (.broken p) := by
  unfold Context.pollDeed?
  rcases Context.poll_cases c s with ⟨hi, h⟩ | ⟨i, hi, ⟨hf, h⟩ | ⟨hf, h⟩ | ⟨e, hf, h⟩⟩
  · simp only [hi, h]
    refine ⟨fun _ => ?_, fun e he => (by cases he), fun p hp => (by cases hp)⟩
    exact .on c.inputs c.nextInput stage (List.Sublist.refl _) fun _ h hn => absurd h hn
  · simp only [hi, hf, h]
    refine ⟨fun _ => ?_, fun e he => (by cases he), fun p hp => (by cases hp)⟩
    refine .on _ c.turn stage (List.eraseIdx_sublist _ _) fun j hj hn => ?_
    obtain ⟨n, hn', hjn⟩ := List.getElem_of_mem hj
    by_cases hnt : n = c.turn
    · subst hnt
      rw [List.getElem?_eq_getElem hn', Option.some.injEq] at hi
      rw [← hjn, hi]
      exact hf
    · refine absurd ?_ hn
      rw [List.mem_eraseIdx_iff_getElem]
      exact ⟨n, hn', hnt, hjn⟩
  · simp only [hi, hf, h]
    refine ⟨fun _ => ?_, fun e he => (by cases he), fun p hp => (by cases hp)⟩
    exact .on c.inputs (c.turn + 1) stage (List.Sublist.refl _) fun _ h hn => absurd h hn
  · have hm := List.mem_of_getElem? hi
    have hs := (s.advance i).same_tell c.listeners .read e
    rcases Context.takeOver_cases { c with nextInput := c.turn + 1 } (s.advance i) e with
      ⟨p, h'⟩ | h' <;> simp only [hi, hf, h, h']
    · refine ⟨fun h => (by rcases h with h | h <;> cases h), fun e he => (by cases he), fun p hp => ?_⟩
      cases hp
      exact .broken i e _ (c.turn + 1) _ p hm hf hs rfl
    · refine ⟨fun h => (by rcases h with h | h <;> cases h), fun e he => ?_, fun p hp => (by cases hp)⟩
      cases he
      exact .row i e _ (c.turn + 1) _ hm hf hs rfl

/-- **A step of a read.** -/
theorem stepRead_spec (d : Desk σ) (stage : ReadStage) (next : Option Entry → Plan σ α) :
    (stepRead d stage next).1.state = d.state ∧
    ReadStep d.shared d.context next
      ((Activity.reading stage next : Activity σ α).deed? d.shared d.context)
      (stepRead d stage next).1.shared (stepRead d stage next).1.context
      (stepRead d stage next).2 := by
  obtain ⟨s, c, state⟩ := d
  have hstay : ∀ stage, ReadStep s c next none s c (.reading stage next) := fun stage =>
    .on c.inputs c.nextInput stage (List.Sublist.refl _) fun _ h hn => absurd h hn
  rcases stage with _ | left | deadline
  · by_cases hs : s.stopped = true
    · simp only [stepRead, deed?, hs, if_true]
      exact ⟨rfl, .dry (Or.inl hs)⟩
    · simp only [stepRead, deed?, if_neg hs]
      exact ⟨trivial, hstay _⟩
  · by_cases he : c.inputs.isEmpty = true
    · simp only [stepRead, deed?, he, if_true]
      exact ⟨rfl, .dry (Or.inr (List.isEmpty_iff.mp he))⟩
    · rcases left with _ | left
      · simp only [stepRead, deed?, if_neg he]
        exact ⟨trivial, hstay _⟩
      · simp only [stepRead, deed?, if_neg he]
        obtain ⟨h1, h2, h3⟩ := poll_spec s c next (.sweep left)
        rcases hp : c.poll s with ⟨s', c', e | p | _ | _⟩ <;> rw [hp] at h1 h2 h3
        · exact ⟨rfl, h2 e rfl⟩
        · exact ⟨rfl, h3 p rfl⟩
        · exact ⟨rfl, h1 (Or.inr rfl)⟩
        · exact ⟨rfl, h1 (Or.inl rfl)⟩
  · simp only [stepRead, deed?]
    obtain ⟨h1, h2, h3⟩ := poll_spec s c next .check
    rcases hp : c.poll s with ⟨s', c', e | p | _ | _⟩
    · rw [hp] at h2
      exact ⟨rfl, h2 e rfl⟩
    · rw [hp] at h3
      exact ⟨rfl, h3 p rfl⟩
    · dsimp only
      split
      · rw [hp] at h1
        exact ⟨rfl, h1 (Or.inr rfl)⟩
      · -- the turn does not pass on while one input is awaited
        rcases Context.poll_cases c s with ⟨-, h⟩ | ⟨i, hi, ⟨-, h⟩ | ⟨hf, h⟩ | ⟨e, -, h⟩⟩ <;>
          rw [hp] at h
        · cases h
        · cases h
        · cases h
          simp only [Context.pollDeed?, hi, hf]
          exact ⟨trivial, hstay _⟩
        · rcases Context.takeOver_cases { c with nextInput := c.turn + 1 } (s.advance i) e with
            ⟨p, h'⟩ | h' <;> rw [h'] at h <;> cases h
    · rw [hp] at h1
      exact ⟨rfl, h1 (Or.inl rfl)⟩

end Activity

end Rowflow
