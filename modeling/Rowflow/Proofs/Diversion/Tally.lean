import Rowflow.Proofs.Course.Waiting
import Rowflow.Proofs.Diversion.Ceiling

/-!
# What workers count for themselves

When a diverted row has been taken, its worker counts it, and adds the errors that it stands for to
another counter. What it counts is part of what is counted for its transform, so its counters do not
overflow (`Worker.Covered`), and the counters of all workers and the rows in all error row sets agree
(`World.Even`). Only a listener that breaks down comes between the two, and then
the worker collapses and stops the run (`Phase.Collapsing`). What a worker reports at its end is what it
has counted (`Worker.Accounts`), so in a run that is not stopped, and in any run whose listeners do not
break down, the reports agree with the rows as well.
-/

namespace Rowflow

variable {σ : Type} {p : Pipeline} {s s' : Shared}

/-- The row sets for the failing rows of all workers. -/
def Pipeline.errorSets (p : Pipeline) : List Nat := p.errorPlaces fun _ => true

/-! ### Counts -/

/-- What workers count of the rows that they divert. -/
inductive Gauge where
  /-- The errors that the rows stand for. -/
  | errors
  | rows

namespace Gauge

/-- What has been counted. -/
def count : Gauge → Counters → UInt64
  | .errors, c => c.errors
  | .rows, c => c.rejected

/-- What a row adds. -/
def worth : Gauge → Entry → Nat
  | .errors, e => e.weight
  | .rows, _ => 1

variable {c c' : Counters}

theorem count_kept (g : Gauge) (h : c'.failures = c.failures) : g.count c' = g.count c := by
  obtain ⟨herrors, hrows⟩ := Prod.ext_iff.mp h
  cases g
  case errors => exact herrors
  case rows => exact hrows

theorem worth_le (g : Gauge) {why : Diagnosis} {e : Entry} (he : e.weight = why.weight.toNat) :
    g.worth e ≤ e.weight := by
  cases g
  case errors => exact Nat.le_refl _
  case rows => exact he ▸ why.weight_pos

theorem count_added (g : Gauge) {why : Diagnosis} {e : Entry} (he : e.weight = why.weight.toNat)
    (h : c'.failures = (c.errors + why.weight, c.rejected + 1))
    (hfits : (g.count c).toNat + g.worth e < 2 ^ 64) :
    (g.count c').toNat = (g.count c).toNat + g.worth e := by
  obtain ⟨herrors, hrows⟩ := Prod.ext_iff.mp h
  rw [← Nat.mod_eq_of_lt hfits]
  cases g
  case errors =>
    show c'.errors.toNat = (c.errors.toNat + e.weight) % 2 ^ 64
    rw [show c'.errors = c.errors + why.weight from herrors, UInt64.toNat_add, he]
  case rows =>
    show c'.rejected.toNat = (c.rejected.toNat + 1) % 2 ^ 64
    rw [show c'.rejected = c.rejected + 1 from hrows, UInt64.toNat_add]
    rfl

end Gauge

/-- What the worker has counted. -/
def Worker.tally (g : Gauge) (x : Worker σ) : Nat := (g.count x.context.counters).toNat

/-- What all workers have counted. -/
def World.tally (g : Gauge) (w : World σ) : Nat := (w.workers.toList.map (Worker.tally g)).sum

/-- What the workers have counted and what the rows in the error row sets come to is the same. -/
def World.Even (p : Pipeline) (w : World σ) : Prop :=
  ∀ g : Gauge, w.shared.total g.worth p.errorSets = w.tally g

/-- The worker has counted no more than what has been accepted from the copies of its transform. -/
def Worker.Covered (p : Pipeline) (s : Shared) (x : Worker σ) : Prop :=
  ∀ g : Gauge, x.tally g ≤ s.weight (p.errorPlaces (·.id = x.key.id))

/-- Every row in an error row set stands for some error. -/
def Shared.Weighty (p : Pipeline) (s : Shared) : Prop :=
  ∀ i ∈ p.errorSets, ∀ e ∈ s.accepted i, 0 < e.weight

theorem Shared.Weighty.act {d : Option Deed} (h : s.Weighty p)
    (hact : s'.rowSets = Deed.act? s.rowSets d)
    (hd : ∀ i e, d = some (.gave i e) → i ∈ p.errorSets → 0 < e.weight) : s'.Weighty p := by
  intro i hi e he
  rcases mem_accepted_act hact i he with he | hgave
  · exact h i hi e he
  · exact hd i e hgave hi

theorem Shared.Weighty.weight_eq_zero (h : s.Weighty p) :
    s.weight p.errorSets = 0 ↔ ∀ i ∈ p.errorSets, s.accepted i = [] := by
  unfold weight
  rw [List.sum_eq_zero_iff_forall_eq_nat]
  constructor
  · intro hzero i hi
    refine List.eq_nil_iff_forall_not_mem.mpr fun e he => ?_
    have hpos := h i hi e he
    rw [hzero _ (List.mem_map.mpr ⟨e, List.mem_flatMap.mpr ⟨i, hi, he⟩, rfl⟩)] at hpos
    exact absurd hpos (Nat.lt_irrefl 0)
  · intro hnil n hn
    obtain ⟨e, he, -⟩ := List.mem_map.mp hn
    obtain ⟨i, hi, he⟩ := List.mem_flatMap.mp he
    rw [hnil i hi] at he
    cases he

/-! ### One step -/

section Step

variable [Transform σ] {x : Worker σ}

/-- **What a step adds** to the rows in the error row sets it adds to the worker's counters, unless a
listener breaks down. The counters have room for it, since the count of the transform had. -/
theorem Worker.Bound.step_tally (hp : p.WellFormed) (h : x.Bound p) (hcovered : x.Covered p s)
    (hroom : s.weight (p.errorPlaces (·.id = x.key.id)) + x.load x.key.id < 2 ^ 64) :
    (∀ g : Gauge, (x.step s).2.tally g =
        x.tally g + Deed.totalFor g.worth p.errorSets (x.deed? s)) ∨
      (∀ g : Gauge, (x.step s).2.tally g = x.tally g) ∧ (x.step s).2.phase.Broken ∧
        ¬ x.context.Calm .diverted ∧ ∃ i e, x.deed? s = some (.gave i e) := by
  obtain ⟨hstep, -⟩ := x.step_handles h.fits s
  have hkept : (x.step s).2.context.counters.failures = x.context.counters.failures →
      ∀ g : Gauge, (x.step s).2.tally g = x.tally g := fun hsame g =>
    congrArg UInt64.toNat (g.count_kept hsame)
  unfold load at hroom
  rw [if_pos rfl] at hroom
  generalize x.phase.offered? = offered at hstep
  generalize x.phase.transit? = before at hstep hroom
  generalize (x.step s).2.phase.transit? = after at hstep
  generalize x.deed? s = deed at hstep ⊢
  cases hstep
  case aside tally given =>
    refine Or.inl fun g => ?_
    rw [Deed.totalFor_eq_zero fun i e hd => ?_]
    · exact hkept tally g
    · obtain ⟨t, ho⟩ := given i e hd
      exact h.rooted.output_notMem ho
  case counted tally => exact Or.inl (hkept tally)
  case arrived why i e place weight counts tally =>
    rcases tally with htally | ⟨hbroken, hheard, hsame⟩
    · refine Or.inl fun g => ?_
      have hmem : i ∈ p.errorSets := (h.rooted.mem_errorPlaces hp place).mpr rfl
      rw [Deed.totalFor, if_pos hmem]
      refine g.count_added weight htally ?_
      have hcounted : (g.count x.context.counters).toNat ≤ _ := hcovered g
      have hworth := g.worth_le weight
      rw [Option.map_some, Option.getD_some, ← weight] at hroom
      omega
    · exact Or.inr ⟨hkept hsame, hbroken, hheard, i, e, rfl⟩
  case lost tally => exact Or.inl (hkept tally)

/-- What has been accepted from the copies of a transform covers what a worker counts after its
step. -/
theorem Worker.Bound.step_covered (hp : p.WellFormed) (h : x.Bound p) (hcovered : x.Covered p s)
    (hroom : s.weight (p.errorPlaces (·.id = x.key.id)) + x.load x.key.id < 2 ^ 64) :
    (x.step s).2.Covered p (x.step s).1 := by
  have hkey : (x.step s).2.key = x.key := (x.step_effect s).leads.key
  have hgiven : (x.step s).1.total Entry.weight (p.errorPlaces (·.id = x.key.id)) =
      s.total Entry.weight (p.errorPlaces (·.id = x.key.id)) +
        Deed.totalFor Entry.weight (p.errorPlaces (·.id = x.key.id)) (x.deed? s) :=
    Shared.total_act (x.step_effect s).rowSets (fun d hd => (deed?_grounds h.aims hd).enabled)
      Pipeline.nodup_errorPlaces
  have hsets : ∀ g : Gauge, Deed.totalFor g.worth p.errorSets (x.deed? s) ≤
      Deed.totalFor Entry.weight (p.errorPlaces (·.id = x.key.id)) (x.deed? s) := by
    intro g
    obtain ⟨hstep, -⟩ := x.step_handles h.fits s
    generalize x.phase.offered? = offered at hstep
    generalize x.phase.transit? = before at hstep
    generalize (x.step s).2.phase.transit? = after at hstep
    generalize x.deed? s = deed at hstep ⊢
    cases hstep
    case aside given =>
      rw [Deed.totalFor_eq_zero fun i e hd => ?_]
      · exact Nat.zero_le _
      · obtain ⟨t, ho⟩ := given i e hd
        exact h.rooted.output_notMem ho
    case arrived why i e place weight counts tally =>
      have hmem : i ∈ p.errorSets := (h.rooted.mem_errorPlaces hp place).mpr rfl
      have hown : i ∈ p.errorPlaces (·.id = x.key.id) :=
        (h.rooted.mem_errorPlaces hp place).mpr (decide_eq_true rfl)
      rw [Deed.totalFor, Deed.totalFor, if_pos hmem, if_pos hown]
      exact g.worth_le weight
    all_goals exact Nat.le_refl 0
  intro g
  have hbefore := hcovered g
  have hafter := hsets g
  rw [Shared.weight_eq_total] at hbefore ⊢
  rw [hkey]
  rcases h.step_tally hp hcovered hroom with hsame | ⟨hsame, -⟩
  · rw [hsame g]
    omega
  · rw [hsame g]
    omega

/-- What a worker puts into an error row set stands for some error. -/
theorem Worker.Bound.step_weighty (h : x.Bound p) (hs : s.Weighty p) :
    (x.step s).1.Weighty p := by
  refine hs.act (x.step_effect s).rowSets fun i e hd hi => ?_
  obtain ⟨hstep, -⟩ := x.step_handles h.fits s
  rw [hd] at hstep
  generalize x.phase.offered? = offered at hstep
  generalize x.phase.transit? = before at hstep
  generalize (x.step s).2.phase.transit? = after at hstep
  cases hstep with
  | aside _ _ _ _ _ given =>
    obtain ⟨t, ho⟩ := given i e rfl
    exact absurd hi (h.rooted.output_notMem ho)
  | arrived why _ _ _ weight _ _ =>
    rw [weight]
    exact why.weight_pos

end Step

/-! ### Before the start -/

/-- The counters of the workers agree with the rows in the error row sets. -/
structure World.Tallied (p : Pipeline) (w : World σ) : Prop where
  metered : ∀ t, w.Laid p ∧ w.Metered p t
  covered : ∀ x ∈ w.workers, x.Covered p w.shared
  weighty : w.shared.Weighty p
  even : w.Even p

theorem Worker.tally_hear (g : Gauge) (id : String) (l : Listener) (x : Worker σ) :
    (x.hear id l).tally g = x.tally g := by
  unfold hear
  split <;> rfl

theorem Worker.Covered.mono {x y : Worker σ} (h : x.Covered p s) (hkey : y.key = x.key)
    (htally : ∀ g : Gauge, y.tally g = x.tally g)
    (hle : s.weight (p.errorPlaces (·.id = x.key.id)) ≤ s'.weight (p.errorPlaces (·.id = x.key.id))) :
    y.Covered p s' := by
  intro g
  rw [hkey, htally g]
  exact Nat.le_trans (h g) hle

namespace World

theorem tally_step [Transform σ] {w : World σ} {i : Nat} {x : Worker σ}
    (hi : w.workers[i]? = some x) (g : Gauge) :
    (w.step i).tally g + x.tally g = w.tally g + (x.step w.shared).2.tally g := by
  rw [step_of_getElem? hi]
  exact sum_map_setIfInBounds (Worker.tally g) hi _

theorem Even.step [Transform σ] {w : World σ} (h : w.Even p) {i : Nat} {x : Worker σ}
    (hi : w.workers[i]? = some x) (haims : x.Aims)
    (hx : ∀ g : Gauge, (x.step w.shared).2.tally g =
      x.tally g + Deed.totalFor g.worth p.errorSets (x.deed? w.shared)) :
    (w.step i).Even p := by
  intro g
  have heven := h g
  have htally := tally_step hi g
  rw [hx g] at htally
  have hnodup : p.errorSets.Nodup := Pipeline.nodup_errorPlaces
  rw [total_step hi haims g.worth hnodup]
  omega

theorem Even.congr {w w' : World σ} (h : w.Even p)
    (htotal : ∀ worth, w'.shared.total worth p.errorSets = w.shared.total worth p.errorSets)
    (htally : ∀ g, w'.tally g = w.tally g) : w'.Even p := by
  intro g
  rw [htotal, htally]
  exact h g

theorem weight_le_step [Transform σ] {w : World σ} {i : Nat} {x : Worker σ}
    (hi : w.workers[i]? = some x) (haims : x.Aims) (of : WorkerKey → Bool) :
    w.shared.weight (p.errorPlaces of) ≤ (w.step i).shared.weight (p.errorPlaces of) := by
  rw [Shared.weight_eq_total, Shared.weight_eq_total,
    total_step hi haims Entry.weight Pipeline.nodup_errorPlaces]
  exact Nat.le_add_right _ _

theorem Tallied.stepped [Transform σ] (hp : p.WellFormed) {w : World σ} (h : w.Tallied p) {i : Nat}
    {x : Worker σ} (hi : w.workers[i]? = some x) (hunheard : x.context.listeners = []) :
    (w.step i).Tallied p := by
  have hmem := Array.mem_of_getElem? hi
  obtain ⟨-, hmetered⟩ := h.metered x.key.id
  have hx := hmetered.workers x hmem
  have hroom := hmetered.room hmem
  refine ⟨fun t => ⟨(h.metered t).1.stepped hi, (h.metered t).2.stepped hp hi⟩, fun y hy => ?_, ?_,
    h.even.step hi hx.aims ?_⟩
  · have hshared : (w.step i).shared = (x.step w.shared).1 := by rw [step_of_getElem? hi]
    rw [step_of_getElem? hi] at hy
    rcases Array.mem_or_eq_of_mem_setIfInBounds hy with hy | rfl
    · exact (h.covered y hy).mono rfl (fun _ => rfl) (weight_le_step hi hx.aims _)
    · rw [hshared]
      exact hx.step_covered hp (h.covered x hmem) hroom
  · rw [step_of_getElem? hi]
    exact hx.step_weighty h.weighty
  · refine (hx.step_tally hp (h.covered x hmem) hroom).resolve_right
      fun ⟨_, _, hloud, _⟩ => hloud fun l hl => ?_
    rw [hunheard] at hl
    cases hl

/-- **The counters agree** with the rows as long as nobody listens. -/
theorem Tallied.early [Transform σ] (hp : p.WellFormed) (ts : TransformMap σ) :
    Early p ts (World.Tallied (σ := σ) p) where
  laid w hworkers hrows hcounts := by
    have haccepted := Shared.accepted_of_bare (s := w.shared) (Or.inr hrows)
    refine ⟨fun t => (Metered.early hp t ts).laid w hworkers hrows hcounts, fun x hx => ?_,
      fun i _ e he => ?_, ?_⟩
    · rw [hworkers] at hx
      exact absurd hx (Array.not_mem_empty x)
    · rw [haccepted] at he
      cases he
    · intro g
      unfold tally
      rw [Shared.total_eq_zero haccepted, hworkers]
      rfl
  like w w' hl h := by
    refine ⟨fun t => (Metered.early hp t ts).like w w' hl (h.metered t), ?_, fun i hi e he => ?_, ?_⟩
    · rw [hl.workers]
      exact fun x hx => (h.covered x hx).mono rfl (fun _ => rfl)
        (Nat.le_of_eq (Shared.total_congr hl.rowSets _).symm)
    · rw [Shared.accepted_congr hl.rowSets] at he
      exact h.weighty i hi e he
    · refine h.even.congr (fun _ => Shared.total_congr hl.rowSets _) fun g => ?_
      unfold tally
      rw [hl.workers]
  enrolled w k r n state hr hspec hk hi h := by
    refine ⟨fun t => (Metered.early hp t ts).enrolled w k r n state hr hspec hk hi (h.metered t),
      Array.forall_mem_push.mpr ⟨fun g => ?_, h.covered⟩, h.weighty,
      h.even.congr (fun _ => rfl) fun g => ?_⟩
    · cases g <;> exact Nat.zero_le _
    · unfold tally
      rw [sum_map_push]
      cases g <;> rfl
  stepped w i x hi _ hunheard h := h.stepped hp hi hunheard
  heard w id l h := by
    refine ⟨fun t => (Metered.early hp t ts).heard w id l (h.metered t),
      Array.forall_mem_map.mpr fun x hx => (h.covered x hx).mono ?_ (x.tally_hear · id l)
        (Nat.le_refl _),
      h.weighty, h.even.congr (fun _ => rfl) fun g => sum_map_map _ (Worker.tally_hear g id l) w.workers⟩
    unfold Worker.hear
    split <;> rfl
  injected w i t e hi ha h := by
    have helse : ∀ {of}, i ∉ p.errorPlaces of := Pipeline.injector_notMem hi
    refine ⟨fun t' => (Metered.early hp t' ts).injected w i t e hi ha (h.metered t'),
      fun x hx => (h.covered x hx).mono rfl (fun _ => rfl)
        (Nat.le_of_eq (Shared.total_accept helse e).symm),
      h.weighty.act (d := some (.gave i e)) rfl fun j e' hd hj => ?_,
      h.even.congr (fun _ => Shared.total_accept helse e) fun _ => rfl⟩
    cases hd
    exact absurd hj helse
  finished w i t hi h :=
    ⟨fun t' => (Metered.early hp t' ts).finished w i t hi (h.metered t'),
      fun x hx => (h.covered x hx).mono rfl (fun _ => rfl)
        (Nat.le_of_eq (Shared.total_finish _ _ _).symm),
      h.weighty.act (d := some (.closed i)) rfl fun _ _ hd => (by cases hd),
      h.even.congr (fun _ => Shared.total_finish _ _ _) fun _ => rfl⟩
  launched w h := by
    refine ⟨fun t => (Metered.early hp t ts).launched w (h.metered t),
      Array.forall_mem_map.mpr fun x hx => (h.covered x hx).mono rfl (fun _ => rfl) (Nat.le_refl _),
      h.weighty, h.even.congr (fun _ => rfl) fun g => ?_⟩
    exact sum_map_map (Worker.tally g) (g := Worker.launch) (fun _ => rfl) w.workers

end World

/-! ### Breaking down -/

/-- The worker has broken down and is about to raise the stop flag. -/
inductive Phase.Collapsing : Phase σ → Prop where
  | working (p : Panic) : Collapsing (.working (.broken p))
  | diverting (m : String) (p : Panic) : Collapsing (.diverting m (.broken p))
  | failing (m : String) : Collapsing (.failing m)
  | crashed (p : Panic) : Collapsing (.crashed p)

theorem Phase.Collapsing.step [Transform σ] {x : Worker σ} (h : x.phase.Collapsing) (s : Shared) :
    (x.step s).2.phase.Collapsing ∨ (x.step s).1.stopped = true := by
  obtain ⟨c, state, phase⟩ := x
  cases h
  case working p => exact Or.inl (.failing _)
  case diverting m p => exact Or.inl (.crashed p)
  case failing m => exact Or.inr (Shared.requestStop_fixed _ c.name).2.1
  case crashed p => exact Or.inr (s.requestStop_fixed c.name).2.1

namespace Worker

/-- The worker runs, and when it has left the loop of calls it closes its row sets before it disposes
of the transform. -/
def Shut (s : Shared) (x : Worker σ) : Prop :=
  match x.phase with
  | .initializing _ | .initialized _ => False
  | .closing _ rest => ∀ i ∈ x.context.written, i ∉ rest → s.done i = true
  | .disposing _ _ => ∀ i ∈ x.context.written, s.done i = true
  | _ => True

theorem Shut.frame {x : Worker σ} {d : Option Deed} (h : x.Shut s)
    (hact : s'.rowSets = Deed.act? s.rowSets d) : x.Shut s' := by
  have hmono : ∀ i, s.done i = true → s'.done i = true := fun i hd =>
    (Shared.done_act hact i).mpr (Or.inl hd)
  obtain ⟨c, state, phase⟩ := x
  cases phase
  case initializing => exact h
  case initialized => exact h
  case closing => exact fun i hi hn => hmono i (h i hi hn)
  case disposing => exact fun i hi => hmono i (h i hi)
  all_goals trivial

theorem shut_leave (c : Context) (state : σ) (fate : Fate) : Shut s ⟨c, state, leave c fate⟩ :=
  fun _ hi hn => absurd hi hn

variable [Transform σ]

theorem Shut.step {x : Worker σ} (h : x.Shut s) : (x.step s).2.Shut (x.step s).1 := by
  have heffect := x.step_effect s
  have hmono : ∀ i, s.done i = true → (x.step s).1.done i = true := fun i hd =>
    (Shared.done_act heffect.rowSets i).mpr (Or.inl hd)
  have hwritten := heffect.leads.written
  have hmoves := x.step_moves s
  generalize x.deed? s = d, (x.step s).1 = s', (x.step s).2 = y at hmoves hmono hwritten ⊢
  obtain ⟨c, state, phase⟩ := x
  cases hmoves
  case initializing => exact absurd h id
  case initialized => exact absurd h id
  case uninitialized => exact absurd h id
  case waits => exact absurd h id
  case stops => exact shut_leave _ _ _
  case exhausted => exact shut_leave _ _ _
  case cut => exact shut_leave _ _ _
  case interrupted => exact shut_leave _ _ _
  case fails => exact shut_leave _ _ _
  case closes i rest =>
    intro j hj hn
    by_cases hji : j = i
    · subst hji
      exact (Shared.done_finish s j j).mpr (Or.inr rfl)
    · refine hmono j (h j hj fun hm => ?_)
      exact (List.mem_cons.mp hm).elim hji hn
  case closed => exact fun i hi => h i hi List.not_mem_nil
  case disposing =>
    intro i hi
    refine hmono i (h i ?_)
    rwa [← hwritten]
  case disposed fate => cases fate <;> trivial
  case undisposed fate _ => cases fate <;> trivial
  all_goals trivial

/-- Whoever breaks down while a row arrives collapses: a worker that disposes of its transform has no
row set left to write to. -/
theorem Shut.collapsing {x : Worker σ} (h : x.Shut s) (haims : x.Aims) {i : Nat} {e : Entry}
    (hd : x.deed? s = some (.gave i e)) (hbroken : (x.step s).2.phase.Broken) :
    (x.step s).2.phase.Collapsing := by
  have hgrounds := deed?_grounds haims hd
  have hmoves := x.step_moves s
  generalize hdeed : x.deed? s = d, (x.step s).1 = s', (x.step s).2 = y at hmoves hbroken ⊢
  rw [hd] at hdeed
  subst hdeed
  obtain ⟨c, state, phase⟩ := x
  generalize hdeed : some (Deed.gave i e) = d at hmoves
  cases hmoves
  case initializing => exact absurd h id
  case working =>
    obtain ⟨p, hp⟩ := hbroken
    rw [hp]
    exact .working p
  case diverting m _ _ =>
    obtain ⟨p, hp⟩ := hbroken
    rw [hp]
    exact .diverting m p
  case disposing =>
    have hopen := (Shared.open_of_admission hgrounds.2).1
    rw [h i hgrounds.1] at hopen
    cases hopen
  all_goals cases hdeed

end Worker

/-! ### Excuses -/

theorem Context.Leads.calm {c c' : Context} (h : c.Leads s c') (event : RowEvent) :
    c'.Calm event ↔ c.Calm event := by
  unfold Calm
  rw [h.listeners]

theorem Context.Leads.exists_slot {c c' : Context} (h : c.Leads s c') {r : ErrorRoute}
    (hr : r ∈ c.errors) : ∃ r' ∈ c'.errors, r'.slot = r.slot := by
  have hmap := h.errors
  rw [show c.errors = some r from hr] at hmap
  obtain ⟨r', hr', hfixed⟩ := Option.map_eq_some_iff.mp hmap
  exact ⟨r', hr', congrArg (·.2.1) hfixed⟩

/-- Nothing breaks the worker down while the runtime diverts a row: neither a listener, nor the count of
errors, which has room for one more. -/
structure Context.Serene (s : Shared) (c : Context) : Prop where
  calm : c.Calm .diverted
  room : ∀ r ∈ c.errors, (s.errorCount r.slot).toNat + 1 < 2 ^ 64

theorem Context.Serene.of_later {c : Context} (h : c.Serene s')
    (hgrown : ∀ slot, (s.errorCount slot).toNat ≤ (s'.errorCount slot).toNat) : c.Serene s :=
  ⟨h.calm, fun r hr => Nat.lt_of_le_of_lt (Nat.add_le_add_right (hgrown r.slot) 1) (h.room r hr)⟩

theorem Context.Effect.serene {c c' : Context} {d : Option Deed} (h : c.Effect s s' c' d)
    (hc : c'.Serene s') : c.Serene s := by
  refine Serene.of_later ⟨(h.leads.calm .diverted).mp hc.calm, fun r hr => ?_⟩ h.grown
  obtain ⟨r', hr', hslot⟩ := h.leads.exists_slot hr
  exact hslot ▸ hc.room r' hr'

/-- A diversion by the runtime, which nobody but a listener can break down, or a count that is full. -/
def Activity.Excused (s : Shared) (c : Context) : Activity σ (Except TransformError Unit) → Prop
  | .run (.divert _ why next) => why.weight = 1 ∧ next = .finish
  | .run (.finish _) | .done _ => True
  | .writing del next => next = .finish ∧ del.purpose.event = .diverted
  | .broken _ => ¬ c.Serene s
  | _ => False

theorem Activity.Excused.frame {c : Context} {a : Activity σ (Except TransformError Unit)}
    (h : a.Excused s c) (hgrown : ∀ slot, (s.errorCount slot).toNat ≤ (s'.errorCount slot).toNat) :
    a.Excused s' c := by
  rcases a with plan | _ | _ | _ | _ | _
  case broken => exact fun hc => h (hc.of_later hgrown)
  case run => cases plan <;> exact h
  all_goals exact h

theorem Activity.Excused.step {d : Desk σ} {a : Activity σ (Except TransformError Unit)}
    (h : a.Excused d.shared d.context) : (a.step d).2.Excused (a.step d).1.shared (a.step d).1.context := by
  rcases a with plan | _ | ⟨del, next⟩ | _ | _ | _
  case run =>
    obtain ⟨s, c, state⟩ := d
    cases plan
    case finish => trivial
    case divert e why next =>
      obtain ⟨hweight, rfl⟩ : why.weight = 1 ∧ next = .finish := h
      simp only [Activity.step, stepPlan]
      rcases Context.startDivert_cases c s e why with ⟨-, hd⟩ | ⟨_, _, _, -, -, hd⟩ |
        ⟨r, hr, hreserve, hd⟩ | ⟨_, _, -, -, hd⟩ <;> rw [hd]
      · trivial
      · trivial
      · intro hc
        obtain ⟨-, hfull⟩ := ErrorHandling.reserve_broken hreserve
        rw [hweight] at hfull
        exact absurd (hc.room r hr) (Nat.not_lt.mpr hfull)
      · exact ⟨rfl, rfl⟩
    all_goals exact absurd h id
  case writing =>
    obtain ⟨rfl, hevent⟩ := h
    obtain ⟨s, c, state⟩ := d
    have hstep := Context.deliver_spec c s del
    generalize Context.deliveryDeed? s del = deed at hstep
    simp only [Activity.step]
    rcases hd : c.deliver s del with ⟨s', c', del' | r | p⟩ <;> rw [hd] at hstep
    · refine ⟨rfl, ?_⟩
      cases hstep
      case full => exact hevent
      case partly => exact hevent
      case last ended _ => rcases ended with h | ⟨p, h⟩ <;> cases h
      case nowhere ended _ => rcases ended with h | ⟨p, h⟩ <;> cases h
    · trivial
    · -- whoever breaks down has been told of the row
      have hloud : ∀ counters, (Context.Progress.broken p).Counts c del counters →
          ¬ c.Calm .diverted := by
        rintro counters (⟨h, -⟩ | ⟨-, h, -⟩)
        · cases h
        · rwa [hevent] at h
      cases hstep
      case last counts => exact fun hc => hloud _ counts hc.calm
      case nowhere counts => exact fun hc => hloud _ counts hc.calm
  case done => trivial
  case broken => exact h
  all_goals exact absurd h id

/-- If the worker breaks down while the runtime diverts a row, that is because of a listener, or because
the count of errors is full. -/
def Phase.Excused (s : Shared) (c : Context) : Phase σ → Prop
  | .diverting _ a => a.Excused s c
  | .crashed _ => ¬ c.Serene s
  | _ => True

theorem Phase.Excused.frame {c : Context} {phase : Phase σ} (h : phase.Excused s c)
    (hgrown : ∀ slot, (s.errorCount slot).toNat ≤ (s'.errorCount slot).toNat) :
    phase.Excused s' c := by
  cases phase
  case diverting a => exact Activity.Excused.frame h hgrown
  case crashed => exact fun hc => h (hc.of_later hgrown)
  all_goals trivial

theorem Worker.step_excused [Transform σ] {x : Worker σ} (h : x.phase.Excused s x.context) :
    (x.step s).2.phase.Excused (x.step s).1 (x.step s).2.context := by
  have hmoves := x.step_moves s
  generalize x.deed? s = d, (x.step s).1 = s', (x.step s).2 = y at hmoves ⊢
  obtain ⟨c, state, phase⟩ := x
  cases hmoves
  case bad => exact ⟨rfl, rfl⟩
  case diverting a _ =>
    have hdivert : a.Excused s c := h
    exact hdivert.step (d := ⟨s, c, state⟩)
  case crashes => exact h
  case disposed fate => cases fate <;> trivial
  case undisposed fate _ => cases fate <;> trivial
  all_goals trivial

/-! ### Reports -/

/-- What a worker of a run reports is what it has counted, unless it has broken down while the runtime
diverted a row and the run is stopped. -/
structure Worker.Accounts (p : Pipeline) (s : Shared) (h : List (WorkerKey × Deed))
    (x : Worker σ) : Prop where
  covered : x.Covered p s
  shut : x.Shut s
  mails : x.Mails h
  excused : x.phase.Excused s x.context
  sending : ∀ summary, x.phase = .sending summary →
    (¬ x.context.Serene s ∧ s.stopped = true) ∨ summary.counters = x.context.counters
  sent : ∀ summary, (x.key, Deed.sent summary) ∈ h →
    (¬ x.context.Serene s ∧ s.stopped = true) ∨ summary.counters = x.context.counters

namespace Worker.Accounts

variable {x : Worker σ} {h h' : List (WorkerKey × Deed)}

theorem frame (hx : x.Accounts p s h) {d : Option Deed}
    (hact : s'.rowSets = Deed.act? s.rowSets d) (hstop : s.stopped = true → s'.stopped = true)
    (hgrown : ∀ slot, (s.errorCount slot).toNat ≤ (s'.errorCount slot).toNat)
    (hle : s.weight (p.errorPlaces (·.id = x.key.id)) ≤ s'.weight (p.errorPlaces (·.id = x.key.id)))
    (hown : ∀ summary, (x.key, Deed.sent summary) ∈ h' → (x.key, Deed.sent summary) ∈ h) :
    x.Accounts p s' h' := by
  have hloud : ¬ x.context.Serene s ∧ s.stopped = true → ¬ x.context.Serene s' ∧ s'.stopped = true :=
    fun hl => ⟨fun hc => hl.1 (hc.of_later hgrown), hstop hl.2⟩
  exact {
    covered := hx.covered.mono rfl (fun _ => rfl) hle
    shut := hx.shut.frame hact
    mails := ⟨fun hlive summary hm => hx.mails.unsent hlive summary (hown summary hm),
      hx.mails.sending⟩
    excused := hx.excused.frame hgrown
    sending := fun summary hs => (hx.sending summary hs).imp_left hloud
    sent := fun summary hs => (hx.sent summary (hown summary hs)).imp_left hloud }

theorem step [Transform σ] (hp : p.WellFormed) (hx : x.Accounts p s h) (hbound : x.Bound p)
    (hroom : s.weight (p.errorPlaces (·.id = x.key.id)) + x.load x.key.id < 2 ^ 64) :
    (x.step s).2.Accounts p (x.step s).1 (Course.grow x.key (x.deed? s) h) := by
  have heffect := x.step_effect s
  have hloud : ¬ x.context.Serene s ∧ s.stopped = true →
      ¬ (x.step s).2.context.Serene (x.step s).1 ∧ (x.step s).1.stopped = true :=
    fun hl => ⟨mt heffect.serene hl.1, heffect.stopped hl.2⟩
  refine ⟨hbound.step_covered hp hx.covered hroom, hx.shut.step, hx.mails.step s,
    step_excused hx.excused, fun summary hs => ?_, fun summary hs => ?_⟩
  · have hexcused := hx.excused
    rcases step_sending hs with ⟨status, error, hphase, rfl⟩ | ⟨p, hphase, rfl⟩
    · obtain ⟨c, state, phase⟩ := x
      cases hphase
      exact Or.inr rfl
    · rw [hphase] at hexcused
      refine Or.inl ⟨mt heffect.serene hexcused, ?_⟩
      obtain ⟨c, state, phase⟩ := x
      cases hphase
      exact (s.requestStop_fixed c.name).2.1
  · have hkey : (x.step s).2.key = x.key := heffect.leads.key
    rw [hkey] at hs
    rcases Course.mem_grow.mp hs with ⟨-, hd⟩ | hs
    · have hphase := phase_of_sent hd
      have hcounts := (hx.sending summary hphase).imp_left hloud
      obtain ⟨c, state, phase⟩ := x
      cases hphase
      exact hcounts
    · -- a worker that has reported has ended
      have hended : x.hasEnded = true := by
        by_contra hlive
        exact hx.mails.unsent (by simpa using hlive) summary hs
      have hphase := phase_of_hasEnded hended
      have hcounts := (hx.sent summary hs).imp_left hloud
      obtain ⟨c, state, phase⟩ := x
      cases hphase
      exact hcounts

end Worker.Accounts

/-! ### Runs -/

namespace Course

variable {c c' : Course σ}

/-- Nothing breaks a worker down while the runtime diverts a row. -/
def Calm (c : Course σ) : Prop := ∀ x ∈ c.workers, x.context.Serene c.shared

/-- What holds of a running course: the counters agree with the rows in the error row sets, or a
worker has broken down over a diverted row and the run is stopped or about to be. -/
structure Even (p : Pipeline) (c : Course σ) : Prop where
  crew : c.Crew p
  producers : ∀ i ∈ c.producers, ∃ t, p.channels[i]? = some (.injector t)
  metered : ∀ t, c.world.Metered p t
  workers : ∀ x ∈ c.workers, x.Accounts p c.shared c.history
  weighty : c.shared.Weighty p
  even : (¬ c.Calm ∧ (c.shared.stopped = true ∨ ∃ x ∈ c.workers, x.phase.Collapsing)) ∨
    c.world.Even p

theorem Launched.even (hp : p.WellFormed) (h : c.Launched p) (hw : c.world.Tallied p) :
    c.Even p where
  crew := h.crew hp
  producers := h.producers
  metered t := (hw.metered t).2
  workers x hx := by
    have hphase := h.starting x hx
    refine ⟨hw.covered x hx, ?_, h.mailed.workers x hx, ?_, fun summary hs => ?_,
      fun summary hs => ?_⟩
    · unfold Worker.Shut
      rw [hphase]
      trivial
    · rw [hphase]
      trivial
    · rw [hphase] at hs
      cases hs
    · rw [h.history] at hs
      cases hs
  weighty := hw.weighty
  even := Or.inr hw.even

theorem Outside.even {d : Option Deed} (h : c.Outside c' d) (hc : c.Even p) : c'.Even p := by
  have htotal : ∀ worth (of : WorkerKey → Bool),
      c'.shared.total worth (p.errorPlaces of) = c.shared.total worth (p.errorPlaces of) := by
    intro worth of
    have hadded : c'.shared.total worth (p.errorPlaces of) = _ :=
      Shared.total_act h.rowSets h.enabled Pipeline.nodup_errorPlaces
    rwa [Deed.totalFor_eq_zero (h.elsewhere hc.producers), Nat.add_zero] at hadded
  have hgrown : ∀ slot, (c.shared.errorCount slot).toNat ≤ (c'.shared.errorCount slot).toNat :=
    fun slot => (Shared.errorCount_congr h.errorCounts slot).symm ▸ Nat.le_refl _
  have hworkers : c'.world.workers = c.world.workers := h.workers
  refine ⟨h.crew hc.crew, fun i hi => hc.producers i (h.fewer i hi),
    fun t => h.metered hc.producers (hc.metered t), fun x hx => ?_, hc.weighty.act h.rowSets fun i e hd hi => ?_,
    ?_⟩
  · rw [h.workers] at hx
    exact (hc.workers x hx).frame h.rowSets h.stopped hgrown (Nat.le_of_eq (htotal _ _).symm)
      fun _ hs => by rwa [h.history] at hs
  · exact absurd hi (h.elsewhere hc.producers i e hd)
  · have hloud : ¬ c.Calm → ¬ c'.Calm := fun hl hcalm => hl fun x hx =>
      (hcalm x (h.workers ▸ hx)).of_later hgrown
    refine hc.even.imp (fun ⟨hl, hs⟩ => ⟨hloud hl, ?_⟩) fun heven =>
      heven.congr (fun worth => htotal worth _) fun g => ?_
    · rw [h.workers]
      exact hs.imp_left h.stopped
    · unfold World.tally
      rw [hworkers]

section Stepped

variable [Transform σ] {i : Nat} {x : Worker σ}

theorem Stepped.mem_after (h : c.Stepped c' i x) : (x.step c.shared).2 ∈ c'.workers := by
  rw [h.workers]
  have hlt := (Array.getElem?_eq_some_iff.mp h.worker).1
  exact Array.mem_of_getElem? (Array.getElem?_setIfInBounds_self_of_lt hlt)

theorem Stepped.stays (h : c.Stepped c' i x) {y : Worker σ} (hy : y ∈ c.workers) :
    y = x ∨ y ∈ c'.workers := by
  obtain ⟨j, hj⟩ := Array.getElem?_of_mem hy
  by_cases hij : i = j
  · subst hij
    exact Or.inl (Option.some.inj (hj.symm.trans h.worker))
  · refine Or.inr ?_
    rw [h.workers]
    exact Array.mem_of_getElem? (by rwa [Array.getElem?_setIfInBounds_ne hij])

theorem Stepped.calm (h : c.Stepped c' i x) (hcalm : c'.Calm) : c.Calm := by
  intro y hy
  rcases h.stays hy with rfl | hy
  · exact h.effect.serene (hcalm _ h.mem_after)
  · exact (hcalm y hy).of_later h.effect.grown

theorem Stepped.even (hp : p.WellFormed) (h : c.Stepped c' i x) (hc : c.Even p) : c'.Even p := by
  have hx := hc.workers x h.mem
  have hmetered := hc.metered x.key.id
  have hbound := hmetered.workers x h.mem
  have hroom := hmetered.room h.mem
  have hworld : (c.world.step i).shared = c'.shared ∧
      (c.world.step i).workers = c'.workers := by
    rw [World.step_of_getElem? h.worker, h.shared, h.workers]
    exact ⟨rfl, rfl⟩
  refine ⟨h.crew hc.crew, by rw [h.producers]; exact hc.producers,
    fun t => h.metered hp (hc.metered t), fun y hy => ?_, ?_, ?_⟩
  · rw [h.history]
    rcases h.cases hc.crew hy with rfl | ⟨hy, hne⟩
    · rw [h.shared]
      exact hx.step hp hbound hroom
    · have hle := World.weight_le_step (p := p) h.worker hbound.aims (·.id = y.key.id)
      rw [hworld.1] at hle
      refine (hc.workers y hy).frame h.effect.rowSets h.effect.stopped h.effect.grown hle
        fun summary hs => ?_
      rcases mem_grow.mp hs with ⟨hk, -⟩ | hs
      · exact absurd hk.symm hne
      · exact hs
  · rw [h.shared]
    exact hbound.step_weighty hc.weighty
  · rcases hc.even with ⟨hloud, hs | ⟨y, hy, hcollapsing⟩⟩ | heven
    · exact Or.inl ⟨mt h.calm hloud, Or.inl (h.effect.stopped hs)⟩
    · refine Or.inl ⟨mt h.calm hloud, ?_⟩
      rcases h.stays hy with rfl | hy
      · rw [h.shared]
        exact (hcollapsing.step c.shared).symm.imp_right fun hnow => ⟨_, h.mem_after, hnow⟩
      · exact Or.inr ⟨y, hy, hcollapsing⟩
    · rcases hbound.step_tally hp hx.covered hroom with hsame | ⟨-, hbroken, hloud, j, e, hd⟩
      · refine Or.inr ((heven.step h.worker hbound.aims hsame).congr (fun _ => ?_) fun _ => ?_)
        · rw [hworld.1]
          rfl
        · unfold World.tally
          rw [hworld.2]
          rfl
      · refine Or.inl ⟨mt h.calm fun hcalm => hloud (hcalm x h.mem).calm,
          Or.inr ⟨_, h.mem_after, ?_⟩⟩
        exact hx.shut.collapsing hbound.aims hd hbroken

end Stepped

end Course

end Rowflow
