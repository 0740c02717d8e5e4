import Mathlib.Algebra.Order.BigOperators.Group.List
import Mathlib.Algebra.Order.Group.Nat
import Rowflow.Proofs.Course.Anytime
import Rowflow.Proofs.Course.Refusals
import Rowflow.Proofs.Diversion.Handling
import Rowflow.Transform.Scripted

/-!
# The maximum number of errors

The copies of a transform count their errors together, in 64-bit words, and a row that would take the
count above the maximum is refused. So the errors of all rows that the error row sets of the copies have
accepted stay within the maximum, in all states of all runs, and the sum that decides is the sum of
natural numbers (`Course.ceiling`). A row whose errors do not fit into a word together with the count is
not refused: the worker that offers it breaks down.

The count comes first and the row later, so the invariant is about three numbers
(`World.Metered.reserved`): what has been accepted and what is in transit together is at most what has
been counted.
-/

namespace Rowflow

variable {σ : Type} {m : UInt64}

/-! ### A row that is offered -/

theorem Activity.step_offered {α : Type} {d : Activity.Desk σ} {a : Activity σ α} {why : Diagnosis}
    (ho : a.offered? = some why) {r : ErrorRoute} (hr : r ∈ d.context.errors) :
    match r.diversion.handling.reserve (d.shared.errorCount r.slot) why.weight with
    | .error (.refused err) => a.deed? d.shared d.context = some (.refused (.route err)) ∧
        (a.step d).1.shared.errorCounts = d.shared.errorCounts
    | .error (.broken p) => a.deed? d.shared d.context = none ∧ (a.step d).2 = .broken p ∧
        (a.step d).1.shared.errorCounts = d.shared.errorCounts
    | .ok count => a.deed? d.shared d.context = none ∧
        (a.step d).1.shared.errorCounts = d.shared.errorCounts.setIfInBounds r.slot count := by
  rcases a with plan | _ | _ | _ | _ | _
  case run =>
    cases plan
    case divert e why' next =>
      cases ho
      obtain ⟨s, c, state⟩ := d
      simp only [Activity.step, Activity.stepPlan, Activity.deed?]
      rcases Context.startDivert_cases c s e why with ⟨hn, -⟩ | ⟨r', maximum, sum, hr', hres, h⟩ |
        ⟨r', hr', hres, h⟩ | ⟨r', count, hr', hres, h⟩
      · rw [hn] at hr
        cases hr
      all_goals
        obtain rfl : r = r' := Option.some.inj (hr.symm.trans hr')
        rw [h, hres]
      · exact ⟨rfl, (s.same_sayAll _).errorCounts⟩
      · exact ⟨rfl, rfl, rfl⟩
      · exact ⟨rfl, rfl⟩
    all_goals cases ho
  all_goals cases ho

theorem Worker.step_offered [Transform σ] {x : Worker σ} {why : Diagnosis}
    (ho : x.phase.offered? = some why) {r : ErrorRoute} (hr : r ∈ x.context.errors) (s : Shared) :
    match r.diversion.handling.reserve (s.errorCount r.slot) why.weight with
    | .error (.refused err) => x.deed? s = some (.refused (.route err)) ∧
        (x.step s).1.errorCounts = s.errorCounts
    | .error (.broken _) => x.deed? s = none ∧ (x.step s).2.phase.Broken ∧
        (x.step s).1.errorCounts = s.errorCounts
    | .ok count => x.deed? s = none ∧
        (x.step s).1.errorCounts = s.errorCounts.setIfInBounds r.slot count := by
  obtain ⟨α, a, wrap, ha, hdeed, hstep, hwrap⟩ := exists_performed ho (fun _ => rfl) (fun _ => rfl) s
  have hoffered := Activity.step_offered (d := ⟨s, x.context, x.state⟩) ha hr
  rw [hdeed, hstep, perform_shared]
  dsimp only at hoffered ⊢
  rw [Phase.Broken, hwrap.doing]
  rcases hres : r.diversion.handling.reserve (s.errorCount r.slot) why.weight with (err | p) | count <;>
    rw [hres] at hoffered
  · exact hoffered
  · exact ⟨hoffered.1, ⟨p, hoffered.2.1⟩, hoffered.2.2⟩
  · exact hoffered

/-! ### Worlds -/

/-- The errors of the row that a copy of the transform has in transit. -/
def Worker.load (t : String) (x : Worker σ) : Nat :=
  if x.key.id = t then (x.phase.transit?.map (·.weight.toNat)).getD 0 else 0

theorem Worker.load_hear (t id : String) (l : Listener) (x : Worker σ) :
    (x.hear id l).load t = x.load t := by
  unfold hear
  split <;> rfl

/-- The errors of all rows that the copies of a transform have in transit. -/
def World.inTransit (t : String) (w : World σ) : Nat := (w.workers.toList.map (Worker.load t)).sum

/-- The errors of the row that a copy of the transform loses by its next step, because the row set
refuses it. -/
def Worker.forfeit (t : String) (s : Shared) (x : Worker σ) : Nat :=
  match x.deed? s with
  | some (.refused _) => x.load t
  | _ => 0

namespace Worker.Bound

variable {p : Pipeline} {x : Worker σ}

/-- Only the copies of a transform count errors at its place. -/
theorem slot_ne (h : x.Bound p) (hp : p.WellFormed) {t : String} (hx : x.key.id ≠ t) {r : ErrorRoute}
    (hr : r ∈ x.context.errors) : r.slot ≠ p.slot t := by
  obtain ⟨-, h2, -⟩ := h.rooted.route hp hr
  obtain ⟨spec, hspec⟩ := Pipeline.transform?_of_copiesOf h.rooted.worker
  rw [h2]
  intro heq
  exact hx ((List.idxOf_inj (Pipeline.mem_ids.mpr ⟨spec, Pipeline.transform?_mem hspec⟩)).mp heq)

variable [Transform σ]

/-- A copy of another transform has nothing to do with the errors. -/
theorem account_elsewhere (h : x.Bound p) (hp : p.WellFormed) {t : String} (hx : x.key.id ≠ t)
    (s : Shared) :
    (x.step s).1.errorCount (p.slot t) = s.errorCount (p.slot t) ∧
      Deed.totalFor Entry.weight (p.errorPlaces (·.id = t)) (x.deed? s) = 0 := by
  obtain ⟨hstep, -⟩ := x.step_handles h.fits s
  refine ⟨(x.step_effect s).counts (p.slot t) fun r hr => h.slot_ne hp hx hr, ?_⟩
  refine Deed.totalFor_eq_zero fun i e hd => ?_
  rw [hd] at hstep
  generalize x.phase.offered? = offered at hstep
  generalize x.phase.transit? = before at hstep
  generalize (x.step s).2.phase.transit? = after at hstep
  cases hstep with
  | aside _ _ _ _ _ given =>
    obtain ⟨t', ho⟩ := given i e rfl
    exact h.rooted.output_notMem ho
  | arrived why _ _ place _ _ _ =>
    exact fun hm => hx (of_decide_eq_true ((h.rooted.mem_errorPlaces hp place).mp hm))

/-- **The account of a step.** By as much as it adds to the errors counted for a transform, those grow
that the rows in the error row sets stand for, the rows in transit and the rows that are lost; and what
it adds are the errors of a row that is offered. -/
theorem account (h : x.Bound p) (hp : p.WellFormed) (t : String) {s : Shared}
    (hlaid : s.errorCounts.size = p.transforms.length) :
    ∃ added : Nat,
      ((x.step s).1.errorCount (p.slot t)).toNat = (s.errorCount (p.slot t)).toNat + added ∧
      Deed.totalFor Entry.weight (p.errorPlaces (·.id = t)) (x.deed? s) + (x.step s).2.load t +
        x.forfeit t s = x.load t + added ∧
      (added = 0 ∨ x.key.id = t ∧ ∃ r ∈ x.context.errors, ∀ m ∈ r.diversion.handling.maxErrors,
        ((x.step s).1.errorCount (p.slot t)).toNat ≤ m.toNat) := by
  have hkey : (x.step s).2.key = x.key := (x.step_effect s).leads.key
  by_cases hx : x.key.id = t
  · obtain ⟨hstep, -⟩ := x.step_handles h.fits s
    have hsame : (x.step s).1.errorCounts = s.errorCounts →
        ((x.step s).1.errorCount (p.slot t)).toNat = (s.errorCount (p.slot t)).toNat + 0 := by
      intro hc
      rw [Shared.errorCount_congr hc, Nat.add_zero]
    have hgiven : (∀ i e, x.deed? s = some (.gave i e) → ∃ t', (t', i) ∈ x.context.outputs) →
        Deed.totalFor Entry.weight (p.errorPlaces (·.id = t)) (x.deed? s) = 0 := by
      intro hgave
      refine Deed.totalFor_eq_zero fun i e hd => ?_
      obtain ⟨t', ho⟩ := hgave i e hd
      exact h.rooted.output_notMem ho
    have hended : ∀ err, x.deed? s = some (.refused err) →
        (x.step s).2.phase.transit? = none := by
      intro err hd
      rw [Phase.transit?_eq, (step_refused hd).2]
      rfl
    have hslot : p.slot t < s.errorCounts.size := by
      rw [hlaid, ← hx]
      exact h.rooted.slot_lt
    unfold forfeit load
    rw [hkey]
    simp only [if_pos hx]
    generalize x.phase.offered? = offered at hstep ⊢
    generalize x.phase.transit? = before at hstep ⊢
    generalize (x.step s).2.phase.transit? = after at hstep hended ⊢
    generalize x.deed? s = deed at hstep hgiven hended ⊢
    cases hstep
    case aside counts tally given =>
      refine ⟨0, hsame counts, ?_, Or.inl rfl⟩
      rw [hgiven given]
      rcases deed with _ | d
      · exact Nat.zero_add _
      · cases d
        case refused err =>
          rw [hended err rfl]
          rfl
        all_goals exact Nat.zero_add _
    case counted why route count mem allowed counts tally =>
      have hroute : route.slot = p.slot t :=
        (h.rooted.route hp mem).2.1.trans (congrArg p.slot hx)
      rw [hroute] at allowed counts
      have hcount : (x.step s).1.errorCount (p.slot t) = count := by
        unfold Shared.errorCount
        rw [counts, Array.getElem?_setIfInBounds_self_of_lt hslot]
        rfl
      obtain ⟨hsum, hmax⟩ := ErrorHandling.reserve_ok allowed
      rw [hcount]
      refine ⟨why.weight.toNat, hsum, ?_, Or.inr ⟨hx, route, mem, hmax⟩⟩
      simp only [Deed.totalFor, Option.map_some, Option.map_none, Option.getD_some,
        Option.getD_none]
      omega
    case arrived why i e place weight counts tally =>
      have hmem : i ∈ p.errorPlaces (·.id = t) :=
        (h.rooted.mem_errorPlaces hp place).mpr (decide_eq_true hx)
      refine ⟨0, hsame counts, ?_, Or.inl rfl⟩
      simp only [Deed.totalFor, if_pos hmem, Option.map_some, Option.map_none, Option.getD_some,
        Option.getD_none, weight]
    case lost why err counts tally =>
      refine ⟨0, hsame counts, ?_, Or.inl rfl⟩
      simp only [Deed.totalFor, Option.map_some, Option.map_none, Option.getD_some,
        Option.getD_none]
      exact Nat.zero_add _
  · obtain ⟨hcount, hzero⟩ := h.account_elsewhere hp hx s
    refine ⟨0, congrArg UInt64.toNat hcount, ?_, Or.inl rfl⟩
    unfold forfeit load
    rw [hkey, hzero]
    simp only [if_neg hx]
    split <;> rfl

end Worker.Bound

/-- The maximum number of errors of a transform, if there is one. -/
def Pipeline.limit? (p : Pipeline) (t : String) : Option UInt64 :=
  ((p.transform? t).bind (·.errorHandling)).bind (·.maxErrors)

/-- What has been accepted and what is in transit has been counted, within the maximum. -/
structure World.Metered (p : Pipeline) (t : String) (w : World σ) : Prop where
  laid : 0 < w.workers.size → w.Laid p
  workers : ∀ x ∈ w.workers, x.Bound p
  reserved : w.shared.weight (p.errorPlaces (·.id = t)) + w.inTransit t ≤
    (w.shared.errorCount (p.slot t)).toNat
  bounded : ∀ m ∈ p.limit? t, (w.shared.errorCount (p.slot t)).toNat ≤ m.toNat

variable {p : Pipeline} {t : String}

theorem Worker.Bound.limited {x : Worker σ} (h : x.Bound p) (hp : p.WellFormed)
    (hx : x.key.id = t) {r : ErrorRoute} (hr : r ∈ x.context.errors) :
    r.diversion.handling.maxErrors = p.limit? t ∧ r.slot = p.slot t := by
  obtain ⟨h1, h2, -⟩ := h.rooted.route hp hr
  have hspec : p.transform? t = some x.context.spec := hx ▸ h.rooted.transform?_eq
  refine ⟨?_, h2.trans (congrArg p.slot hx)⟩
  rw [Pipeline.limit?, hspec, Option.bind_some, h1, Option.bind_some]

/-- **What a step adds**: the errors that have arrived and those that are in transit grow by no more
than the count does, and the count stays within the maximum. -/
theorem Worker.Bound.reserved_step [Transform σ] (hp : p.WellFormed) {x : Worker σ}
    (h : x.Bound p) {s : Shared} (hlaid : s.errorCounts.size = p.transforms.length)
    (hbounded : ∀ m ∈ p.limit? t, (s.errorCount (p.slot t)).toNat ≤ m.toNat) :
    Deed.totalFor Entry.weight (p.errorPlaces (·.id = t)) (x.deed? s) + (x.step s).2.load t +
        (s.errorCount (p.slot t)).toNat ≤
      x.load t + ((x.step s).1.errorCount (p.slot t)).toNat ∧
    ∀ m ∈ p.limit? t, ((x.step s).1.errorCount (p.slot t)).toNat ≤ m.toNat := by
  obtain ⟨added, hcount, haccount, hadded⟩ := h.account hp t hlaid
  refine ⟨by omega, fun m hm => ?_⟩
  rcases hadded with rfl | ⟨hx, r, hr, hmax⟩
  · rw [hcount]
    exact hbounded m hm
  · exact hmax m ((h.limited hp hx hr).1 ▸ hm)

namespace World

theorem load_of_idle {x : Worker σ} (h : x.phase.transit? = none) : x.load t = 0 := by
  unfold Worker.load
  rw [h]
  exact ite_self 0

theorem load_launch (t : String) (workers : Array (Worker σ)) :
    ((workers.map Worker.launch).toList.map (Worker.load t)).sum = 0 := by
  rw [Array.toList_map, List.map_map, show Worker.load t ∘ Worker.launch = fun _ : Worker σ => 0 from
    funext fun x => load_of_idle rfl]
  simp

theorem inTransit_step [Transform σ] {w : World σ} {i : Nat} {x : Worker σ}
    (hi : w.workers[i]? = some x) (t : String) :
    (w.step i).inTransit t + x.load t = w.inTransit t + (x.step w.shared).2.load t := by
  rw [step_of_getElem? hi]
  exact sum_map_setIfInBounds (Worker.load t) hi _

theorem Laid.stepped [Transform σ] {w : World σ} (h : w.Laid p) {i : Nat} {x : Worker σ}
    (hi : w.workers[i]? = some x) : (w.step i).Laid p := by
  rw [step_of_getElem? hi]
  exact (x.step_effect w.shared).slots.trans h

theorem Metered.stepped [Transform σ] (hp : p.WellFormed) {w : World σ} (h : w.Metered p t)
    {i : Nat} {x : Worker σ} (hi : w.workers[i]? = some x) : (w.step i).Metered p t := by
  have hmem := Array.mem_of_getElem? hi
  have hx := h.workers x hmem
  have hlaid : w.Laid p := h.laid (Array.size_pos_of_mem hmem)
  have heffect := x.step_effect w.shared
  obtain ⟨hreserved, hbounded⟩ := hx.reserved_step hp hlaid h.bounded
  have hnodup : (p.errorPlaces (·.id = t)).Nodup := Pipeline.nodup_errorPlaces
  have hweight := total_step hi hx.aims Entry.weight hnodup
  have htransit := inTransit_step hi t
  rw [step_of_getElem? hi] at hweight htransit ⊢
  refine ⟨fun _ => heffect.slots.trans hlaid, fun y hy => ?_, ?_, hbounded⟩
  · rcases Array.mem_or_eq_of_mem_setIfInBounds hy with hy | rfl
    · exact h.workers y hy
    · exact hx.step w.shared
  · have hbefore := h.reserved
    rw [Shared.weight_eq_total] at hbefore ⊢
    dsimp only at hweight ⊢
    omega

theorem Metered.injected {w : World σ} (h : w.Metered p t) {i : Nat} {t' : String}
    (hi : p.channels[i]? = some (.injector t')) (e : Entry) :
    World.Metered p t { w with shared := w.shared.accept i e } := by
  refine ⟨h.laid, h.workers, ?_, h.bounded⟩
  dsimp only
  rw [Shared.weight_eq_total, Shared.total_accept (Pipeline.injector_notMem hi)]
  exact h.reserved

theorem Metered.of_workers {w : World σ} (h : w.Metered p t) {workers : Array (Worker σ)}
    (hlaid : 0 < workers.size → w.Laid p) (hworkers : ∀ x ∈ workers, x.Bound p)
    (hload : (workers.toList.map (Worker.load t)).sum ≤ w.inTransit t) :
    World.Metered p t { w with workers } :=
  ⟨hlaid, hworkers, Nat.le_trans (Nat.add_le_add_left hload _) h.reserved, h.bounded⟩

theorem Metered.of_bare {w : World σ} (hworkers : w.workers = #[])
    (hrows : w.shared.rowSets = #[] ∨ w.shared.rowSets = p.rowSets.toArray)
    (hcounts : ∀ slot, w.shared.errorCount slot = 0) : w.Metered p t where
  laid h := by simp [hworkers] at h
  workers x hx := by
    rw [hworkers] at hx
    exact absurd hx (Array.not_mem_empty x)
  reserved := by
    unfold inTransit
    rw [hcounts, hworkers, Shared.weight_eq_total,
      Shared.total_eq_zero (Shared.accepted_of_bare hrows)]
    exact Nat.le_refl 0
  bounded _ _ := by
    rw [hcounts]
    exact Nat.zero_le _

/-- **Metering lasts** through all that happens to a run. -/
theorem Metered.lasting [Transform σ] (hp : p.WellFormed) (t : String) (ts : TransformMap σ) :
    World.Lasting p ts (fun _ => True) (World.Metered p t) where
  like w w' hl h := by
    have hcount := Shared.errorCount_congr hl.errorCounts (p.slot t)
    refine ⟨fun hsize => ?_, fun x hx => ?_, ?_, ?_⟩
    · rw [hl.workers] at hsize
      exact (congrArg Array.size hl.errorCounts).trans (h.laid hsize)
    · rw [hl.workers] at hx
      exact h.workers x hx
    · rw [hcount, Shared.weight_eq_total, Shared.total_congr hl.rowSets, inTransit, hl.workers]
      exact h.reserved
    · rw [hcount]
      exact h.bounded
  stepped w i x hi h := h.stepped hp hi
  injected w i t' e ht _ h := h.injected ht e
  finished w i t' _ h := by
    refine ⟨h.laid, h.workers, ?_, h.bounded⟩
    dsimp only
    rw [Shared.weight_eq_total, Shared.total_finish]
    exact h.reserved
  bare w hworkers hrows hcounts _ :=
    .of_bare hworkers (Or.inl hrows) fun slot => by
      unfold Shared.errorCount
      rw [hcounts]
      rfl
  laid _ w' hworkers hrows hcounts _ _ :=
    .of_bare hworkers (Or.inr hrows) fun slot => by
      unfold Shared.errorCount
      rw [hcounts, Array.getElem?_replicate]
      split <;> rfl
  enrolled w k r n state hr hspec hk hi hlaid h := by
    obtain ⟨-, hbound⟩ := Worker.Bound.enrolled hspec hk state
    refine h.of_workers (fun _ => hlaid) (Array.forall_mem_push.mpr ⟨hbound, h.workers⟩) ?_
    rw [sum_map_push, load_of_idle rfl, Nat.add_zero]
    exact Nat.le_refl _
  abandoned w i h := by
    refine h.of_workers (fun hsize => h.laid (by simpa using hsize)) (fun x hx => ?_) ?_
    · obtain ⟨j, hj, rfl⟩ := Array.mem_iff_getElem.mp hx
      have hy := h.workers _ (Array.getElem_mem (by simpa using hj))
      rw [Array.getElem_modify]
      split
      · exact hy.abandon
      · exact hy
    · unfold inTransit
      rw [Array.toList_modify, List.modify_eq_set_getElem?]
      rcases hx : w.workers.toList[i]? with _ | x
      · exact Nat.le_refl _
      · have hset := sum_map_set (Worker.load t) hx
          { x with phase := Worker.leave x.context .abandoned }
        rw [load_of_idle (x := { x with phase := Worker.leave x.context .abandoned }) rfl] at hset
        show ((w.workers.toList.set i _).map (Worker.load t)).sum ≤ _
        omega
  heard w id l h := by
    refine h.of_workers (fun hsize => h.laid (by simpa using hsize))
      (Array.forall_mem_map.mpr fun x hx => (h.workers x hx).hear id l) ?_
    rw [sum_map_map _ (Worker.load_hear t id l)]
    exact Nat.le_refl _

theorem Metered.launch {w : World σ} (h : w.Metered p t) :
    World.Metered p t { w with workers := w.workers.map Worker.launch } := by
  refine h.of_workers (fun hsize => h.laid (by simpa using hsize))
    (Array.forall_mem_map.mpr fun x hx => (h.workers x hx).launch) ?_
  rw [load_launch]
  exact Nat.zero_le _

theorem Metered.early [Transform σ] (hp : p.WellFormed) (t : String) (ts : TransformMap σ) :
    Early p ts fun w : World σ => w.Laid p ∧ w.Metered p t where
  laid w hworkers hrows hcounts := by
    refine ⟨?_, .of_bare hworkers (Or.inr hrows) fun slot => ?_⟩
    · unfold Laid
      rw [hcounts, Array.size_replicate]
    · unfold Shared.errorCount
      rw [hcounts, Array.getElem?_replicate]
      split <;> rfl
  like w w' hl h :=
    ⟨(congrArg Array.size hl.errorCounts).trans h.1, (lasting hp t ts).like w w' hl h.2⟩
  enrolled w k r n state hr hspec hk hi h :=
    ⟨h.1, (lasting hp t ts).enrolled w k r n state hr hspec hk hi h.1 h.2⟩
  stepped w i x hi _ _ h := ⟨h.1.stepped hi, h.2.stepped hp hi⟩
  heard w id l h := ⟨h.1, (lasting hp t ts).heard w id l h.2⟩
  injected w i t' e ht _ h := ⟨h.1, h.2.injected ht e⟩
  finished w i t' ht h := ⟨h.1, (lasting hp t ts).finished w i t' ht h.2⟩
  launched _ h := ⟨h.1, h.2.launch⟩

/-- What has been accepted from the copies of a transform and what one of them has in transit fits into
a word. -/
theorem Metered.room {w : World σ} {x : Worker σ} (h : w.Metered p x.key.id) (hx : x ∈ w.workers) :
    w.shared.weight (p.errorPlaces (·.id = x.key.id)) + x.load x.key.id < 2 ^ 64 := by
  have hload : x.load x.key.id ≤ w.inTransit x.key.id :=
    List.le_sum_of_mem (List.mem_map_of_mem (Array.mem_toList_iff.mpr hx))
  have hreserved := h.reserved
  have hword := (w.shared.errorCount (p.slot x.key.id)).toNat_lt
  omega

end World

/-! ### Weighing -/

/-- The row that the worker offers is refused if it would take the count above the maximum, with the
sum as the reason, and nothing is counted; else the count becomes the sum. Only a sum that does not fit
into a word has no such answer: the worker breaks down, and nothing is counted either. -/
structure Worker.Weighed [Transform σ] (s : Shared) (slot : Nat) (m : UInt64) (why : Diagnosis)
    (x : Worker σ) : Prop where
  refused : m.toNat < (s.errorCount slot).toNat + why.weight.toNat →
    (s.errorCount slot).toNat + why.weight.toNat < 2 ^ 64 →
    ∃ sum : UInt64, sum.toNat = (s.errorCount slot).toNat + why.weight.toNat ∧
      x.deed? s = some (.refused (.route (.ceilingExceeded m sum))) ∧
      (x.step s).1.errorCounts = s.errorCounts
  overflows : 2 ^ 64 ≤ (s.errorCount slot).toNat + why.weight.toNat →
    x.deed? s = none ∧ (x.step s).2.phase.Broken ∧ (x.step s).1.errorCounts = s.errorCounts
  counted : (s.errorCount slot).toNat + why.weight.toNat ≤ m.toNat →
    x.deed? s = none ∧
      ((x.step s).1.errorCount slot).toNat = (s.errorCount slot).toNat + why.weight.toNat

theorem World.Metered.weighed [Transform σ] (hp : p.WellFormed) (hm : m ∈ p.limit? t) {w : World σ}
    (h : w.Metered p t) {x : Worker σ} (hx : x ∈ w.workers) (hid : x.key.id = t)
    {why : Diagnosis} (ho : x.phase.offered? = some why) : x.Weighed w.shared (p.slot t) m why := by
  have hbound := h.workers x hx
  have hspec : p.transform? t = some x.context.spec := hid ▸ hbound.rooted.transform?_eq
  obtain ⟨eh, heh, -⟩ : ∃ eh, x.context.spec.errorHandling = some eh ∧ eh.maxErrors = some m := by
    rw [Pipeline.limit?, hspec] at hm
    exact Option.bind_eq_some_iff.mp hm
  obtain ⟨r, hr, -⟩ := hbound.rooted.exists_route hp heh
  obtain ⟨hlimit, hslot⟩ := hbound.limited hp hid hr
  have hm : r.diversion.handling.maxErrors = some m := hlimit.trans hm
  have hstep := Worker.step_offered ho hr w.shared
  rw [hslot] at hstep
  have hword := m.toNat_lt
  rcases hres : r.diversion.handling.reserve (w.shared.errorCount (p.slot t)) why.weight with
    (err | p') | count <;> rw [hres] at hstep
  · obtain ⟨m', sum, rfl, hm', hsum, hlt⟩ := ErrorHandling.reserve_refused hres
    obtain rfl : m = m' := Option.some.inj (hm.symm.trans hm')
    have hfits := sum.toNat_lt
    exact ⟨fun _ _ => ⟨sum, hsum, hstep⟩, fun hge => by omega, fun hle => by omega⟩
  · obtain ⟨-, hge⟩ := ErrorHandling.reserve_broken hres
    exact ⟨fun _ hlt => by omega, fun _ => hstep, fun hle => by omega⟩
  · obtain ⟨hsum, hmax⟩ := ErrorHandling.reserve_ok hres
    have hle := hmax m hm
    refine ⟨fun hlt => by omega, fun hge => by omega, fun _ => ⟨hstep.1, ?_⟩⟩
    have hlt : p.slot t < w.shared.errorCounts.size := by
      rw [h.laid (Array.size_pos_of_mem hx), ← hid]
      exact hbound.rooted.slot_lt
    rw [← hsum]
    unfold Shared.errorCount
    rw [hstep.2, Array.getElem?_setIfInBounds_self_of_lt hlt]
    rfl

/-! ### Runs -/

namespace Course

variable {c c' : Course σ}

/-- What comes from outside goes elsewhere than the failing rows. -/
theorem Outside.elsewhere {d : Option Deed} (h : c.Outside c' d)
    (hproducers : ∀ i ∈ c.producers, ∃ t, p.channels[i]? = some (.injector t))
    {of : WorkerKey → Bool} : ∀ i e, d = some (.gave i e) → i ∉ p.errorPlaces of := by
  rintro i e rfl
  rcases h.grounds _ rfl with ⟨j, e', hj, hm, -⟩ | ⟨j, hj, -⟩
  · cases hj
    obtain ⟨t', ht⟩ := hproducers i hm
    exact Pipeline.injector_notMem ht
  · cases hj

theorem Outside.metered {d : Option Deed} (h : c.Outside c' d)
    (hproducers : ∀ i ∈ c.producers, ∃ t, p.channels[i]? = some (.injector t))
    (hc : c.world.Metered p t) : c'.world.Metered p t := by
  have hworkers : c'.world.workers = c.world.workers := h.workers
  have hcounts : c'.world.shared.errorCounts = c.world.shared.errorCounts := h.errorCounts
  have hcount := Shared.errorCount_congr hcounts (p.slot t)
  have htotal : c'.world.shared.total Entry.weight (p.errorPlaces (·.id = t)) = _ :=
    Shared.total_act h.rowSets h.enabled Pipeline.nodup_errorPlaces
  rw [Deed.totalFor_eq_zero (h.elsewhere hproducers), Nat.add_zero] at htotal
  refine ⟨fun hsize => ?_, ?_, ?_, ?_⟩
  · rw [hworkers] at hsize
    exact (congrArg Array.size hcounts).trans (hc.laid hsize)
  · rw [hworkers]
    exact hc.workers
  · rw [hcount, Shared.weight_eq_total, htotal, World.inTransit, hworkers]
    exact hc.reserved
  · rw [hcount]
    exact hc.bounded

variable [Transform σ]

theorem Stepped.metered (hp : p.WellFormed) {i : Nat} {x : Worker σ} (h : c.Stepped c' i x)
    (hc : c.world.Metered p t) : c'.world.Metered p t := by
  refine (World.Metered.lasting hp t .empty).like _ _ ?_ (hc.stepped hp h.worker)
  rw [World.step_of_getElem? h.worker]
  have hshared : c'.world.shared = (x.step c.world.shared).1 := h.shared
  rw [← hshared]
  exact ⟨h.workers, rfl, rfl, List.suffix_rfl, id⟩

/-- **The maximum number of errors.** In every state of every run: if a transform handles errors up to
a maximum, then the errors that all rows accepted by the error row sets of its copies stand for are
within the maximum, and every row that a copy offers is weighed against it. -/
theorem ceiling {registry : Registry σ} {o : Orchestrator σ} (hooks : Hooks)
    (bindings : Table String) (hnew : Orchestrator.new p registry = .ok o)
    {spec : TransformSpec} {eh : ErrorHandling} (hspec : p.transform? t = some spec)
    (heh : spec.errorHandling = some eh) (hm : eh.maxErrors = some m) (events : List Event) :
    ((begin o hooks bindings).run events).shared.weight (p.errorPlaces (·.id = t)) ≤ m.toNat ∧
      ∀ x ∈ ((begin o hooks bindings).run events).workers, x.key.id = t →
        ∀ why, x.phase.offered? = some why →
          x.Weighed ((begin o hooks bindings).run events).shared (p.slot t) m why := by
  have hp := Pipeline.wellFormed_of_validationErrors (Orchestrator.new_ok hnew).1
  have hlimit : m ∈ p.limit? t := by
    rw [Pipeline.limit?, hspec, Option.bind_some, heh, Option.bind_some]
    exact hm
  have h : ((begin o hooks bindings).run events).world.Metered p t :=
    always hnew (World.Metered.lasting hp t o.transforms) (fun _ h => h.launch) events
      fun _ _ _ => trivial
  refine ⟨?_, fun x hx hid why ho => h.weighed hp hlimit hx hid ho⟩
  exact Nat.le_trans (Nat.le_trans (Nat.le_add_right _ _) h.reserved) (h.bounded m hlimit)

/-! ### Two copies -/

namespace Diverting

/-- Two copies of a scripted transform that handles five errors, and one that takes the failing
rows. -/
def pipeline : Pipeline where
  transforms := [
    { id := "a"
      type := "script"
      copies := 2
      errorHandling := some { target := "r", maxErrors := some 5 } },
    { id := "r", type := "dummy" }]

/-- Rows are diverted that stand for the given numbers of errors. -/
def script (numbers : List UInt64) : Script where
  calls := [numbers.map fun n =>
    .putError (some ⟨[⟨"n", .integer, -1, -1⟩]⟩) (some ⟨[.integer 7]⟩)
      { count := n, description := "bad" }]

/-- Every copy diverts rows that stand for the given numbers of errors. -/
def scripts (numbers : List UInt64) : Table Script := .ofList [("a", script numbers)]

/-- The run of the copies. -/
def orchestrator (numbers : List UInt64) : Orchestrator (Builtin ⊕ Scripted) where
  pipeline := pipeline
  transforms := ((Registry.withScripts (scripts numbers)).resolve pipeline).toOption.getD .empty
  world := { shared := { pipeline := pipeline.name, poll := 50000 } }
  built := .ofList (pipeline.ids.map (·, 1))

theorem new_ok (numbers : List UInt64) :
    Orchestrator.new pipeline (.withScripts (scripts numbers)) = .ok (orchestrator numbers) := rfl

/-- The copies take steps in the given order. -/
def course (numbers : List UInt64) (order : List Nat) : Course (Builtin ⊕ Scripted) :=
  (begin (orchestrator numbers) Hooks.none .empty).run
    ([.prepare, .start] ++ order.map Event.step)

/-- One copy has diverted a row for three errors, and the other one offers its first row. -/
def order : List Nat := List.replicate 8 0 ++ List.replicate 5 1

/-- The copy that offers its first row. -/
def second : Worker (Builtin ⊕ Scripted) :=
  (course [3, 2] order).workers[1]?.get (by decide +kernel)

theorem second_mem : second ∈ (course [3, 2] order).workers :=
  Array.mem_of_getElem? (Option.some_get _).symm

/-- A copy that has diverted a row for three errors and offers one for `2 ^ 64 - 2`. -/
def heavy : Worker (Builtin ⊕ Scripted) :=
  (course [3, 18446744073709551614] (List.replicate 9 0)).workers[0]?.get (by decide +kernel)

theorem heavy_mem : heavy ∈ (course [3, 18446744073709551614] (List.replicate 9 0)).workers :=
  Array.mem_of_getElem? (Option.some_get _).symm

end Diverting

/-- One copy has diverted three errors and the other one offers three more: too many. -/
theorem ceiling_two_copies :
    (Diverting.course [3, 2] Diverting.order).shared.weight
        (Diverting.pipeline.errorPlaces (·.id = "a")) ≤ 5 ∧
      ((Diverting.course [3, 2] Diverting.order).shared.errorCount
        (Diverting.pipeline.slot "a")).toNat = 3 ∧
      Diverting.second.phase.offered? = some { count := 3, description := "bad" } ∧
      Diverting.second.Weighed (Diverting.course [3, 2] Diverting.order).shared
        (Diverting.pipeline.slot "a") 5 { count := 3, description := "bad" } := by
  have hoffered :
      Diverting.second.phase.offered? = some { count := 3, description := "bad" } := by
    decide +kernel
  obtain ⟨hweight, hweighed⟩ := ceiling (t := "a") (m := 5) Hooks.none .empty
    (Diverting.new_ok [3, 2]) rfl rfl rfl ([.prepare, .start] ++ Diverting.order.map Event.step)
  exact ⟨hweight, by decide +kernel, hoffered,
    hweighed _ Diverting.second_mem (by decide +kernel) _ hoffered⟩

/-- Not every row that would take the count above the maximum is refused: of two rows of one copy, for
three errors and for `2 ^ 64 - 2`, the second one is not. -/
theorem exists_unrefused : ¬ ∀ (p : Pipeline) (scripts : Table Script)
    (o : Orchestrator (Builtin ⊕ Scripted)) (hooks : Hooks) (bindings : Table String) (t : String)
    (spec : TransformSpec) (eh : ErrorHandling) (m : UInt64) (events : List Event),
    Orchestrator.new p (.withScripts scripts) = .ok o → p.transform? t = some spec →
    spec.errorHandling = some eh → eh.maxErrors = some m →
    ∀ x ∈ ((begin o hooks bindings).run events).workers, x.key.id = t →
      ∀ why, x.phase.offered? = some why →
        m.toNat < (((begin o hooks bindings).run events).shared.errorCount (p.slot t)).toNat +
          why.weight.toNat →
        ∃ err, x.deed? ((begin o hooks bindings).run events).shared = some (.refused (.route err)) := by
  intro h
  have hrefused := h _ _ _ Hooks.none .empty "a" _ _ 5
    ([Event.prepare, Event.start] ++ (List.replicate 9 0).map Event.step)
    (Diverting.new_ok [3, 18446744073709551614]) rfl rfl rfl Diverting.heavy Diverting.heavy_mem
    (by decide +kernel) { count := 18446744073709551614, description := "bad" } (by decide +kernel)
    (by decide +kernel)
  have hnone : Diverting.heavy.deed?
      (Diverting.course [3, 18446744073709551614] (List.replicate 9 0)).shared = none := by
    decide +kernel
  obtain ⟨err, herr⟩ := hrefused
  cases hnone.symm.trans herr

end Course

end Rowflow
