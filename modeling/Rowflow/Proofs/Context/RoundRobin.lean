import Mathlib.Data.List.Basic
import Mathlib.Data.List.Range
import Rowflow.Proofs.Context.Step

/-!
# Reading in turn

The inputs are polled in cyclic order of their places, those left out that have been found done: each
poll is of the place that follows the one polled last (`successor`). The turn of the context is a
position in a list that gets shorter, and `Aligned` says what it means: what stands before it is up to
the place polled last, and what stands behind it is beyond that place.

Main statement: `round_robin`. Between two polls of one input every other input in the list is polled.
-/

namespace Rowflow

namespace Usage

/-- The place that follows another one in a list, in cyclic order; without another one, the first. -/
def successor (live : List Nat) : Option Nat → Option Nat
  | none => live.head?
  | some p => (live.find? (p < ·)).or live.head?

/-- The place that has been polled last. -/
def latest (polls : List (Nat × RowSet.Front)) : Option Nat := polls.getLast?.map (·.1)

theorem latest_concat (polls : List (Nat × RowSet.Front)) (p : Nat) (found : RowSet.Front) :
    latest (polls ++ [(p, found)]) = some p := by
  simp [latest]

/-! ### The turn -/

/-- A position lies behind all places up to the one polled last. -/
def Aligned (live : List Nat) (k : Nat) : Option Nat → Prop
  | none => k = 0
  | some p => k ≤ live.length ∧ (∀ q ∈ live.take k, q ≤ p) ∧ ∀ q ∈ live.drop k, p < q

theorem Aligned.successor {live : List Nat} {k : Nat} {last : Option Nat} (h : Aligned live k last) :
    live[k % live.length]? = successor live last := by
  cases last with
  | none =>
    cases h
    rw [Nat.zero_mod, Usage.successor, List.head?_eq_getElem?]
  | some p =>
    obtain ⟨hk, hle, hlt⟩ := h
    have hfind : live.find? (p < ·) = live[k]? := by
      have htake : (live.take k).find? (p < ·) = none :=
        List.find?_eq_none.mpr fun q hq => by simpa using hle q hq
      rw [← List.head?_drop]
      conv_lhs => rw [← List.take_append_drop k live, List.find?_append, htake, Option.none_or]
      rcases hd : live.drop k with _ | ⟨q, rest⟩
      · rfl
      · have hq : p < q := hlt q (hd ▸ List.mem_cons_self)
        simp [hq]
    rw [Usage.successor, hfind]
    rcases Nat.lt_or_eq_of_le hk with hk | rfl
    · rw [Nat.mod_eq_of_lt hk, List.getElem?_eq_getElem hk, Option.some_or]
    · rw [Nat.mod_self, List.getElem?_eq_none (Nat.le_refl _), Option.none_or,
        List.head?_eq_getElem?]

/-- After a poll the turn is aligned, whether the place that was polled stays in the list or not. -/
theorem aligned_polled {live : List Nat} (hs : live.Pairwise (· < ·)) {k p : Nat}
    (hp : live[k]? = some p) :
    Aligned live (k + 1) (some p) ∧ Aligned (live.eraseIdx k) k (some p) := by
  obtain ⟨hk, rfl⟩ := List.getElem?_eq_some_iff.mp hp
  have hbefore : ∀ q ∈ live.take k, q < live[k] := by
    intro q hq
    obtain ⟨m, hm, rfl⟩ := List.mem_take_iff_getElem.mp hq
    exact List.pairwise_iff_getElem.mp hs m k (by omega) hk (by omega)
  have hbehind : ∀ q ∈ live.drop (k + 1), live[k] < q := by
    intro q hq
    obtain ⟨m, hm, rfl⟩ := List.mem_drop_iff_getElem.mp hq
    exact List.pairwise_iff_getElem.mp hs k (k + 1 + m) hk (by omega) (by omega)
  refine ⟨⟨hk, fun q hq => ?_, hbehind⟩, ?_, fun q hq => ?_, fun q hq => ?_⟩
  · rw [List.take_succ_eq_append_getElem hk] at hq
    rcases List.mem_append.mp hq with hq | hq
    · exact (hbefore q hq).le
    · exact (List.mem_singleton.mp hq).le
  · rw [List.length_eraseIdx_of_lt hk]
    omega
  · rw [List.take_eraseIdx_eq_take_of_le _ _ _ (Nat.le_refl k)] at hq
    exact (hbefore q hq).le
  · rw [List.eraseIdx_eq_take_drop_succ, List.drop_left' (List.length_take_of_le hk.le)] at hq
    exact hbehind q hq

/-- A poll advances the turn, or takes the place out of the list; nothing else touches the turn. -/
theorem Steps.nextInput {s s' : Shared} {c c' : Context} {live : List Nat} {op : Operation}
    {stage : Stage} {act : Option Act} {outcome : Outcome}
    (h : Steps s c live op stage act s' c' outcome) :
    match act with
    | some (.polled _ found) => c'.nextInput = if found = .done then c.turn else c.turn + 1
    | _ => c'.nextInput = c.nextInput := by
  cases h with
  | declines _ _ _ _ keeps => exact keeps.nextInput
  | fails _ keeps => exact keeps.nextInput
  | begins _ _ _ _ keeps => exact keeps.nextInput
  | last _ _ _ _ _ _ _ settles =>
    obtain ⟨-, -, counters, rfl⟩ := settles.frame
    rfl
  | nowhere _ _ _ _ _ settles =>
    obtain ⟨-, -, counters, rfl⟩ := settles.frame
    rfl
  | _ => rfl

theorem pairwise_live (u : Usage) : u.live.Pairwise (· < ·) := List.pairwise_lt_range.filter _

theorem Outset.aligned (x : Outset) (events : List Event) :
    Aligned (x.after events).live (x.after events).context.nextInput
      (latest (x.after events).polls) := by
  refine x.induction (P := fun _ u => Aligned u.live u.context.nextInput (latest u.polls)) rfl
    (fun events u event u' _ hsound hmove ih => ?_) events
  cases hmove with
  | calls op free =>
    have hpolls := polls_call op u.standing free
    unfold live
    rw [hpolls]
    exact ih
  | steps call stage act s' c' outcome busy step =>
    have hnext := step.nextInput
    rw [context_proceed, polls_proceed busy]
    rcases act with _ | ⟨place, found⟩ | ⟨i, e, found⟩
    · rw [live_same busy (fun _ h => by cases h), hnext]
      simpa using ih
    · rw [Option.bind_some, Act.poll?, Option.toList_some, latest_concat, hnext]
      have hplace := (step.here rfl).1
      obtain ⟨hstays, hleaves⟩ := aligned_polled u.pairwise_live hplace
      by_cases hf : found = .done
      · subst hf
        rw [live_done busy rfl, filter_ne_eq_eraseIdx u.nodup_live hplace, if_pos rfl]
        exact hleaves
      · rw [live_same busy fun p h => hf (by cases h; rfl), if_neg hf]
        exact hstays
    · rw [live_same busy (fun _ h => by cases h), hnext]
      simpa [Act.poll?] using ih
  | _ => exact ih

/-- The input whose turn it is is the next one in cyclic order. -/
theorem Outset.turn_successor (x : Outset) (events : List Event) :
    (x.after events).live[(x.after events).context.turn]? =
      successor (x.after events).live (latest (x.after events).polls) := by
  have hsuccessor := (x.aligned events).successor
  rwa [(x.sound events).length_live] at hsuccessor

/-! ### Cyclic order -/

/-- Polls go round in cyclic order, those places left out that have been found done. -/
def Cyclic (n : Nat) (polls : List (Nat × RowSet.Front)) : Prop :=
  ∀ before p after, polls = before ++ p :: after → successor (left n before) (latest before) = some p.1

theorem Outset.cyclic (x : Outset) (events : List Event) :
    Cyclic x.wiring.inputs.length (x.after events).polls := by
  refine x.induction (P := fun _ u => Cyclic x.wiring.inputs.length u.polls)
    (fun before p after h => by simp [polls, acts, calls, Outset.usage] at h)
    (fun events u event u' hafter hsound hmove ih => ?_) events
  rcases hmove.polls with hpolls | ⟨place, i, hplace, -, hpolls⟩ <;> rw [hpolls]
  · exact ih
  · refine forall_split_concat.mpr ⟨ih, ?_⟩
    subst hafter
    rw [x.turn_successor events] at hplace
    rw [← hsound.wired]
    exact hplace

/-- What follows a place in a list in order is the least place beyond it, or the least of all if there
is none beyond it. -/
theorem successor_spec {live : List Nat} (hs : live.Pairwise (· < ·)) {p q : Nat}
    (h : successor live (some p) = some q) :
    (p < q ∧ ∀ r ∈ live, p < r → q ≤ r) ∨ ((∀ r ∈ live, r ≤ p) ∧ ∀ r ∈ live, q ≤ r) := by
  change (live.find? (p < ·)).or live.head? = some q at h
  rcases hf : live.find? (p < ·) with _ | q' <;> rw [hf] at h
  · refine Or.inr ⟨fun r hr => by simpa using List.find?_eq_none.mp hf r hr, fun r hr => ?_⟩
    rw [Option.none_or] at h
    obtain ⟨rest, rfl⟩ := List.head?_eq_some_iff.mp h
    rcases List.mem_cons.mp hr with rfl | hr
    · exact le_rfl
    · exact (List.rel_of_pairwise_cons hs hr).le
  · cases h
    obtain ⟨hlt, before, after, rfl, hbefore⟩ := List.find?_eq_some_iff_append.mp hf
    refine Or.inl ⟨by simpa using hlt, fun r hr hpr => ?_⟩
    rcases List.mem_append.mp hr with hr | hr
    · exact absurd hpr (by simpa using hbefore r hr)
    · rcases List.mem_cons.mp hr with rfl | hr
      · exact le_rfl
      · exact (List.rel_of_pairwise_cons (List.pairwise_append.mp hs).2.1 hr).le

/-- On the way round from one place, another has not been reached yet. -/
def Short (i j p : Nat) : Prop := (i < j ∧ i ≤ p ∧ p < j) ∨ (j < i ∧ (i ≤ p ∨ p < j))

theorem Short.successor {live : List Nat} (hs : live.Pairwise (· < ·)) {i j p q : Nat}
    (h : Short i j p) (hj : j ∈ live) (hq : Usage.successor live (some p) = some q) :
    q = j ∨ (q ≠ i ∧ Short i j q) := by
  unfold Short at h ⊢
  rcases successor_spec hs hq with ⟨hpq, hleast⟩ | ⟨hall, hleast⟩
  · by_cases hpj : p < j
    · have := hleast j hj hpj
      omega
    · omega
  · have := hall j hj
    have := hleast j hj
    omega

theorem Cyclic.reaches {n i j p : Nat} (hij : i ≠ j) {found : RowSet.Front}
    {between after : List (Nat × RowSet.Front)} :
    ∀ {before : List (Nat × RowSet.Front)},
      Cyclic n (before ++ between ++ (i, found) :: after) → latest before = some p → Short i j p →
        j ∈ left n before → ∃ g, (j, g) ∈ between := by
  have hsorted (polls : List (Nat × RowSet.Front)) : (left n polls).Pairwise (· < ·) :=
    List.pairwise_lt_range.filter _
  induction between generalizing p with
  | nil =>
    intro before hcyclic hlatest hshort hj
    have hq := hcyclic before (i, found) after (by rw [List.append_nil])
    rw [hlatest] at hq
    rcases hshort.successor (hsorted before) hj hq with h | ⟨h, -⟩
    · exact absurd h hij
    · exact absurd rfl h
  | cons b between ih =>
    obtain ⟨q, g⟩ := b
    intro before hcyclic hlatest hshort hj
    have hq := hcyclic before (q, g) (between ++ (i, found) :: after) (by simp)
    rw [hlatest] at hq
    rcases hshort.successor (hsorted before) hj hq with rfl | ⟨-, hshort'⟩
    · exact ⟨g, List.mem_cons_self⟩
    · by_cases hqj : q = j
      · exact ⟨g, hqj ▸ List.mem_cons_self⟩
      · have hj' : j ∈ left n (before ++ [(q, g)]) := by
          rw [left_concat]
          split
          · exact List.mem_filter.mpr ⟨hj, by simpa using Ne.symm hqj⟩
          · exact hj
        have hcyclic' : Cyclic n (before ++ [(q, g)] ++ between ++ (i, found) :: after) := by
          simpa using hcyclic
        obtain ⟨g', hg'⟩ := ih hcyclic' (latest_concat before q g) hshort' hj'
        exact ⟨g', List.mem_cons_of_mem _ hg'⟩

/-- Between two polls of one input every other input in the list is polled. -/
theorem Cyclic.between {n i j : Nat} (hij : i ≠ j) {found found' : RowSet.Front}
    {before between after : List (Nat × RowSet.Front)}
    (h : Cyclic n (before ++ (i, found) :: between ++ (i, found') :: after))
    (hj : j ∈ left n before) : ∃ g, (j, g) ∈ between := by
  have h' : Cyclic n (before ++ [(i, found)] ++ between ++ (i, found') :: after) := by simpa using h
  refine Cyclic.reaches hij h' (latest_concat before i found) ?_ ?_
  · unfold Short
    omega
  · rw [left_concat]
    split
    · exact List.mem_filter.mpr ⟨hj, by simpa using Ne.symm hij⟩
    · exact hj

/-- **Reading in turn never starves an input.** -/
theorem round_robin (x : Outset) (events : List Event) :
    let u := x.after events
    let n := x.wiring.inputs.length
    -- a poll tells what the input at its place holds
    (∀ event, (u.perform event).polls = u.polls ∨ ∃ p i, x.wiring.inputs[p]? = some i ∧
      (u.perform event).polls = u.polls ++ [(p, u.shared.front i)]) ∧
    -- each poll is of the place that follows the one before, out of those not found done by then
    (∀ before p after, u.polls = before ++ p :: after →
      successor (left n before) (latest before) = some p.1) ∧
    -- and so will be the next one
    (∀ call stage, u.now = some (call, .reading stage) → Looks u.context stage →
      u.live[u.context.turn]? = successor (left n u.polls) (latest u.polls)) ∧
    -- between two rows of one input a row is taken from any other that has not been found done before
    -- and holds a row whenever it is polled
    (∀ i j e e' before between after,
      u.polls = before ++ (i, .row e) :: between ++ (i, .row e') :: after → i ≠ j → j < n →
      (j, .done) ∉ before → (∀ found, (j, found) ∈ between → ∃ r, found = .row r) →
      ∃ r, (j, .row r) ∈ between) := by
  have hsound := x.sound events
  have hcyclic := x.cyclic events
  refine ⟨fun event => ?_, hcyclic, fun call stage _ _ => ?_,
    fun i j e e' before between after hpolls hij hj hdone hrows => ?_⟩
  · refine (hsound.perform event).polls.imp_right fun ⟨p, i, hp, hi, h⟩ => ⟨p, i, ?_, h⟩
    rw [← hsound.wired]
    exact hsound.input hp hi
  · rw [x.turn_successor events, live, hsound.wired]
  · rw [hpolls] at hcyclic
    obtain ⟨found, hfound⟩ := hcyclic.between hij
      (List.mem_filter.mpr ⟨List.mem_range.mpr hj, by simpa using hdone⟩)
    obtain ⟨r, rfl⟩ := hrows found hfound
    exact ⟨r, hfound⟩

-- of two inputs the second one has ended when it is polled again
example :
    let e (n : Int64) : Entry := ⟨⟨[⟨"n", .integer, -1, -1⟩]⟩, ⟨[.integer n]⟩⟩
    let x : Outset := {
      shared := {
        pipeline := "p"
        rowSets := #[((RowSet.new 2).accept (e 1)).accept (e 2), ((RowSet.new 2).accept (e 3)).finish] }
      spec := { id := "a", type := "dummy" }
      copy := 0
      wiring := { inputs := [0, 1] }
      slot := 0 }
    let read : List Event := [.call .read, .step, .step, .step]
    let u := x.after (read ++ read ++ read ++ [.call .read, .step, .step, .step])
    u.past.map (·.reply) = [.row (e 1), .row (e 3), .row (e 2)] ∧
      u.polls = [(0, .row (e 1)), (1, .row (e 3)), (0, .row (e 2)), (1, .done)] := by
  decide +kernel

end Usage

end Rowflow
