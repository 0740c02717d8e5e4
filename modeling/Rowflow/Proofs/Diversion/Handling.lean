import Mathlib.Algebra.Ring.Nat
import Rowflow.Proofs.Course.Doing

/-!
# What becomes of a row that is diverted

A row that is diverted is first offered: its errors are counted under the slot of the transform, or it
is refused. Then it is in transit until the error row set takes it or is closed, and when it has been
taken the worker counts the errors for itself. `Context.Handles` lists what one step can mean for all
that, and `Worker.step_handles` shows that a step of a worker means nothing else. The errors that a row
stands for are part of the row (`Entry.weight`), so what is counted can be compared with what has been
accepted (`Shared.weight`).
-/

namespace Rowflow

/-! ### Sums -/

section Sums

variable {α : Type} (f : α → Nat)

theorem sum_map_set {l : List α} {i : Nat} {x : α} (h : l[i]? = some x)
    (y : α) : ((l.set i y).map f).sum + f x = (l.map f).sum + f y := by
  induction l generalizing i with
  | nil => cases h
  | cons z l ih =>
    cases i with
    | zero =>
      cases h
      simp only [List.set_cons_zero, List.map_cons, List.sum_cons]
      omega
    | succ i =>
      have := ih (i := i) h
      simp only [List.set_cons_succ, List.map_cons, List.sum_cons]
      omega

theorem sum_map_setIfInBounds {xs : Array α} {i : Nat} {x : α} (h : xs[i]? = some x) (y : α) :
    ((xs.setIfInBounds i y).toList.map f).sum + f x = (xs.toList.map f).sum + f y := by
  rw [Array.toList_setIfInBounds]
  exact sum_map_set f (by rwa [Array.getElem?_toList]) y

theorem sum_map_push (xs : Array α) (x : α) :
    ((xs.push x).toList.map f).sum = (xs.toList.map f).sum + f x := by
  rw [Array.toList_push, List.map_append, List.sum_append, List.map_singleton, List.sum_singleton]

theorem sum_map_map {g : α → α} (hg : ∀ x, f (g x) = f x) (xs : Array α) :
    ((xs.map g).toList.map f).sum = (xs.toList.map f).sum := by
  rw [Array.toList_map, List.map_map, show f ∘ g = f from funext hg]

end Sums

/-! ### Weights -/

theorem Diagnosis.weight_pos (why : Diagnosis) : 0 < why.weight.toNat := by
  unfold weight
  split
  · decide
  · rename_i h
    exact Nat.pos_of_ne_zero fun hz => h (UInt64.toNat_inj.mp hz)

/-- How many errors a diverted row stands for, by the first of its four diagnostic values. -/
def Entry.weight (e : Entry) : Nat :=
  match e.row.get? (e.row.size - 4) with
  | some (.integer n) => n.toUInt64.toNat
  | _ => 0

theorem Entry.weight_diverted (l : Layout) (row : Row) (why : Diagnosis) :
    (Entry.mk l (row.append why.values)).weight = why.weight.toNat := by
  have hget : (row.append why.values).get? ((row.append why.values).size - 4) =
      some (.integer why.weight.toInt64) := by
    have hlength : why.values.length = 4 := rfl
    unfold Row.get? Row.size Row.append
    rw [List.length_append, hlength, Nat.add_sub_cancel, List.getElem?_append_right (Nat.le_refl _),
      Nat.sub_self]
    rfl
  unfold weight
  dsimp only
  rw [hget]
  dsimp only
  rw [UInt64.toUInt64_toInt64]

namespace Shared

/-- What the entries accepted by row sets come to, with so much for each of them. -/
def total (worth : Entry → Nat) (s : Shared) (is : List Nat) : Nat :=
  ((is.flatMap s.accepted).map worth).sum

/-- The errors that the rows accepted by row sets stand for. -/
def weight (s : Shared) (is : List Nat) : Nat := ((is.flatMap s.accepted).map Entry.weight).sum

theorem weight_eq_total (s : Shared) (is : List Nat) : s.weight is = s.total Entry.weight is := rfl

section Total

variable {worth : Entry → Nat} {s s' : Shared}

theorem total_cons (s : Shared) (i : Nat) (is : List Nat) :
    s.total worth (i :: is) = ((s.accepted i).map worth).sum + s.total worth is := by
  unfold total
  rw [List.flatMap_cons, List.map_append, List.sum_append]

theorem total_congr (h : s'.rowSets = s.rowSets) (is : List Nat) :
    s'.total worth is = s.total worth is := by
  unfold total
  rw [show s'.accepted = s.accepted from funext fun i => accepted_congr h]

theorem total_eq_zero {is : List Nat} (h : ∀ i, s.accepted i = []) : s.total worth is = 0 := by
  unfold total
  rw [List.flatMap_eq_nil_iff.mpr fun i _ => h i]
  rfl

/-- What goes to another row set changes nothing, room or not. -/
theorem total_accept {i : Nat} {is : List Nat} (hi : i ∉ is) (e : Entry) :
    (s.accept i e).total worth is = s.total worth is := by
  have hact : (s.accept i e).rowSets = Deed.act? s.rowSets (some (.gave i e)) := rfl
  unfold total
  rw [List.flatMap_congr fun j hj => ?_]
  have hij : i ≠ j := by
    rintro rfl
    exact hi hj
  unfold accepted
  rw [rowSet?_act hact j]
  rcases s.rowSet? j with _ | r
  · rfl
  · simp [Deed.alter, hij]

theorem total_finish (s : Shared) (i : Nat) (is : List Nat) :
    (s.finish i).total worth is = s.total worth is := by
  have hact : (s.finish i).rowSets = Deed.act? s.rowSets (some (.closed i)) := rfl
  unfold total
  rw [List.flatMap_congr fun j _ => ?_]
  rw [accepted_act hact j fun _ h => by cases h; trivial]
  exact List.append_nil _

end Total

end Shared

/-- What a deed adds to what the entries accepted by row sets come to. -/
def Deed.totalFor (worth : Entry → Nat) (is : List Nat) : Option Deed → Nat
  | some (.gave i e) => if i ∈ is then worth e else 0
  | _ => 0

theorem Deed.totalFor_eq_zero {worth : Entry → Nat} {is : List Nat} {d : Option Deed}
    (h : ∀ i e, d = some (.gave i e) → i ∉ is) : totalFor worth is d = 0 := by
  rcases d with _ | d
  · rfl
  · cases d
    case gave i e => exact if_neg (h i e rfl)
    all_goals rfl

theorem Shared.total_act {worth : Entry → Nat} {s s' : Shared} {d : Option Deed} {is : List Nat}
    (h : s'.rowSets = Deed.act? s.rowSets d) (he : ∀ x ∈ d, x.Enabled s) (hnodup : is.Nodup) :
    s'.total worth is = s.total worth is + Deed.totalFor worth is d := by
  have hother : ∀ js, (∀ j ∈ js, ((d.map (·.givenTo j)).getD []) = []) →
      s'.total worth js = s.total worth js := by
    intro js hjs
    unfold total
    rw [List.flatMap_congr fun j hj => ?_]
    rw [Shared.accepted_act h j he, hjs j hj, List.append_nil]
  by_cases hd : ∃ i e, d = some (.gave i e)
  · obtain ⟨i, e, rfl⟩ := hd
    have hgiven : ∀ j, ((some (Deed.gave i e)).map (·.givenTo j)).getD [] =
        if i = j then [e] else [] := fun j => rfl
    unfold Deed.totalFor
    dsimp only
    induction is with
    | nil => rfl
    | cons j js ih =>
      obtain ⟨hj, hjs⟩ := List.nodup_cons.mp hnodup
      rw [total_cons, total_cons, Shared.accepted_act h j he, hgiven j]
      by_cases hij : i = j
      · subst hij
        have hrest := hother js fun j hj' => by
          rw [hgiven, if_neg]
          rintro rfl
          exact hj hj'
        rw [if_pos rfl, if_pos List.mem_cons_self, hrest, List.map_append, List.sum_append]
        simp only [List.map_cons, List.map_nil, List.sum_cons, List.sum_nil]
        omega
      · rw [if_neg hij, List.append_nil, ih hjs]
        simp only [List.mem_cons, hij, false_or]
        omega
  · have hnone : ∀ j, (d.map (·.givenTo j)).getD [] = [] := by
      intro j
      rcases d with _ | d
      · rfl
      · cases d
        case gave i e => exact absurd ⟨i, e, rfl⟩ hd
        all_goals rfl
    have hzero : Deed.totalFor worth is d = 0 :=
      Deed.totalFor_eq_zero fun i e h => absurd ⟨i, e, h⟩ hd
    rw [hother is fun j _ => hnone j, hzero, Nat.add_zero]

namespace Pipeline

/-- The row sets for the failing rows of some workers. -/
def errorPlaces (p : Pipeline) (of : WorkerKey → Bool) : List Nat :=
  p.places.filterMap fun
    | (.errors k _, i) => if of k then some i else none
    | _ => none

variable {p : Pipeline} {of : WorkerKey → Bool}

theorem mem_errorPlaces {i : Nat} :
    i ∈ p.errorPlaces of ↔ ∃ k t, p.channels[i]? = some (.errors k t) ∧ of k = true := by
  unfold errorPlaces places
  rw [List.mem_filterMap]
  constructor
  · rintro ⟨⟨_ | ⟨k, t⟩ | _, j⟩, hm, h⟩
    · cases h
    · dsimp only at h
      split at h
      case isTrue hk =>
        cases h
        exact ⟨k, t, List.mem_zipIdx_iff_getElem?.mp hm, hk⟩
      case isFalse => cases h
    · cases h
  · rintro ⟨k, t, hc, hk⟩
    exact ⟨(.errors k t, i), List.mem_zipIdx_iff_getElem?.mpr hc, if_pos hk⟩

theorem injector_notMem {i : Nat} {t : String} (hi : p.channels[i]? = some (.injector t)) :
    i ∉ p.errorPlaces of := by
  intro hm
  obtain ⟨k, target, hc, -⟩ := mem_errorPlaces.mp hm
  rw [hi] at hc
  cases hc

theorem nodup_errorPlaces : (p.errorPlaces of).Nodup := by
  have := nodup_filterMap_places (p := p) (g := id)
    (f := fun
      | (.errors k _, i) => if of k then some i else none
      | _ => none) fun x b hb => by
      obtain ⟨_ | _ | _, i⟩ := x
      · cases hb
      · dsimp only at hb
        split at hb <;> cases hb
        rfl
      · cases hb
  rwa [List.map_id] at this

end Pipeline

namespace Context.Rooted

variable {p : Pipeline} {c : Context} {of : WorkerKey → Bool}

theorem output_notMem (h : c.Rooted p) {t : String} {i : Nat} (hi : (t, i) ∈ c.outputs) :
    i ∉ p.errorPlaces of := by
  intro hm
  obtain ⟨k, t', hc, -⟩ := Pipeline.mem_errorPlaces.mp hm
  rw [h.output hi] at hc
  cases hc

theorem mem_errorPlaces (h : c.Rooted p) (hp : p.WellFormed) {i : Nat}
    (hi : c.errors.map (·.rowSet) = some i) : i ∈ p.errorPlaces of ↔ of c.key = true := by
  obtain ⟨r, hr, rfl⟩ := Option.map_eq_some_iff.mp hi
  obtain ⟨-, -, hc⟩ := h.route hp hr
  rw [Pipeline.mem_errorPlaces]
  constructor
  · rintro ⟨k, t, hc', hk⟩
    rw [hc] at hc'
    cases hc'
    exact hk
  · exact fun hk => ⟨c.key, _, hc, hk⟩

end Context.Rooted

/-! ### In transit -/

/-- The diagnosis with which an entry is written. -/
def Context.Purpose.diagnosis? : Purpose → Option Diagnosis
  | .output => none
  | .error why => some why

/-- A delivery goes to outputs, or with its diagnosis to the error row set. -/
def Context.Fits (c : Context) (del : Delivery) : Prop :=
  match del.purpose with
  | .output => ∀ i ∈ del.pending, ∃ t, (t, i) ∈ c.outputs
  | .error why => del.entry.weight = why.weight.toNat ∧
      ∃ i, c.errors.map (·.rowSet) = some i ∧ del.pending = [i]

namespace Activity

variable {σ α : Type}

/-- The diagnosis of the row that is offered next. -/
def offered? : Activity σ α → Option Diagnosis
  | .run (.divert _ why _) => some why
  | _ => none

/-- The diagnosis of the row in transit. -/
def transit? : Activity σ α → Option Diagnosis
  | .writing del _ => del.purpose.diagnosis?
  | _ => none

/-- What is written goes where it should. -/
def Fits (c : Context) : Activity σ α → Prop
  | .writing del _ => c.Fits del
  | _ => True

theorem fits_delivery {c : Context} {a : Activity σ α} (h : a.Fits c) : ∀ del ∈ a.delivery?, c.Fits del := by
  intro del hdel
  cases a
  case writing =>
    cases hdel
    exact h
  all_goals cases hdel

end Activity

namespace Phase

variable {σ : Type}

/-- The diagnosis of the row that is offered next. -/
def offered? (phase : Phase σ) : Option Diagnosis := phase.doing none Activity.offered?

/-- The diagnosis of the row in transit. -/
def transit? (phase : Phase σ) : Option Diagnosis := phase.doing none Activity.transit?

theorem transit?_eq (phase : Phase σ) :
    phase.transit? = phase.delivery?.bind (·.purpose.diagnosis?) := by
  have hactivity : ∀ {α : Type} (a : Activity σ α),
      a.transit? = a.delivery?.bind (·.purpose.diagnosis?) := by
    intro α a
    cases a <;> rfl
  cases phase
  case initializing a => exact hactivity a
  case working a => exact hactivity a
  case diverting m a => exact hactivity a
  case disposing fate a => exact hactivity a
  all_goals rfl

/-- What is written goes where it should. -/
def Fits (c : Context) (phase : Phase σ) : Prop := phase.doing True (Activity.Fits c)

/-- The activity has broken down. -/
def Broken (phase : Phase σ) : Prop := phase.doing False fun a => ∃ p, a = .broken p

end Phase

/-! ### Steps -/

/-- What one step of a worker can mean for the rows that it diverts: given are the row that is offered
before the step, the rows in transit before and after it, and the deed. `broken` says that what the
worker does has broken down. -/
inductive Context.Handles (s s' : Shared) (c c' : Context) (broken : Prop) :
    Option Diagnosis → Option Diagnosis → Option Diagnosis → Option Deed → Prop where
  /-- Nothing is counted and nothing diverted arrives. -/
  | aside (offered transit : Option Diagnosis) (d : Option Deed)
      (counts : s'.errorCounts = s.errorCounts)
      (tally : c'.counters.failures = c.counters.failures)
      (given : ∀ i e, d = some (.gave i e) → ∃ t, (t, i) ∈ c.outputs) :
      Handles s s' c c' broken offered transit transit d
  /-- The errors of a row are counted, and it sets out. -/
  | counted (why : Diagnosis) (route : ErrorRoute) (count : UInt64) (mem : route ∈ c.errors)
      (allowed : route.diversion.handling.reserve (s.errorCount route.slot) why.weight = .ok count)
      (counts : s'.errorCounts = s.errorCounts.setIfInBounds route.slot count)
      (tally : c'.counters.failures = c.counters.failures) :
      Handles s s' c c' broken (some why) none (some why) none
  /-- The row arrives. -/
  | arrived (why : Diagnosis) (i : Nat) (e : Entry) (place : c.errors.map (·.rowSet) = some i)
      (weight : e.weight = why.weight.toNat) (counts : s'.errorCounts = s.errorCounts)
      (tally : c'.counters.failures = (c.counters.errors + why.weight, c.counters.rejected + 1) ∨
        broken ∧ ¬ c.Calm .diverted ∧ c'.counters.failures = c.counters.failures) :
      Handles s s' c c' broken none (some why) none (some (.gave i e))
  /-- The row is not taken. -/
  | lost (why : Diagnosis) (err : TransformError) (counts : s'.errorCounts = s.errorCounts)
      (tally : c'.counters.failures = c.counters.failures) :
      Handles s s' c c' broken none (some why) none (some (.refused err))

namespace Context

variable {s s' : Shared} {c c' : Context}

theorem Handles.mono {b b' : Prop} {o t t' : Option Diagnosis} {d : Option Deed} (hb : b → b')
    (h : Handles s s' c c' b o t t' d) : Handles s s' c c' b' o t t' d := by
  cases h
  case aside counts tally given => exact .aside _ _ _ counts tally given
  case counted route count mem allowed counts tally =>
    exact .counted _ route count mem allowed counts tally
  case arrived place weight counts tally =>
    exact .arrived _ _ _ place weight counts (tally.imp_right fun h => ⟨hb h.1, h.2⟩)
  case lost counts tally => exact .lost _ _ counts tally

theorem Handles.quiet {b : Prop} (o t : Option Diagnosis) {d : Option Deed}
    (hd : ∀ i e, d ≠ some (.gave i e)) (hs : s'.errorCounts = s.errorCounts)
    (hc : c'.counters.failures = c.counters.failures) : Handles s s' c c' b o t t d :=
  .aside o t d hs hc fun i e h => absurd h (hd i e)

/-- The diagnosis of what is still to be written. -/
def Progress.transit? : Progress → Option Diagnosis
  | .pending del => del.purpose.diagnosis?
  | _ => none

theorem Progress.IsOver.transit? {r : Progress} (h : r.IsOver) : r.transit? = none := by
  rcases h with rfl | ⟨p, rfl⟩ <;> rfl

theorem Progress.Counts.output {r : Progress} {d : Delivery} {counters : Counters}
    (h : r.Counts c d counters) (hp : d.purpose = .output) :
    counters.failures = c.counters.failures := by
  rcases h with ⟨-, h⟩ | ⟨-, -, h⟩
  · rw [h, hp]
    rfl
  · exact h

/-- What a step of a delivery means for the rows that are diverted. -/
theorem Delivered.handles {del : Delivery} {deed : Option Deed} {r : Progress}
    (h : Delivered s c del deed s' c' r) (hfits : c.Fits del) :
    Handles s s' c c' (∃ p, r = .broken p) none del.purpose.diagnosis? r.transit? deed ∧
      ∀ del', r = .pending del' → c'.Fits del' := by
  unfold Fits at hfits
  cases h
  case full =>
    refine ⟨.quiet _ _ (fun _ _ h => by cases h) rfl rfl, fun del' h => ?_⟩
    cases h
    exact hfits
  case refused i rest err pending found =>
    refine ⟨?_, fun del' h => by cases h⟩
    rcases del.purpose with _ | why
    · exact .quiet _ _ (fun _ _ h => by cases h) rfl rfl
    · exact .lost why _ rfl rfl
  case partly i j rest pending found =>
    rcases hp : del.purpose with _ | why <;> rw [hp] at hfits <;> dsimp only at hfits
    · refine ⟨.aside none none _ rfl rfl fun i' e h => ?_, fun del' h => ?_⟩
      · cases h
        exact hfits i (by rw [pending]; exact List.mem_cons_self)
      · cases h
        exact fun i' hi' => hfits i' (by rw [pending]; exact List.mem_cons_of_mem _ hi')
    · -- a diverted row goes to one row set only
      obtain ⟨-, k, -, hk⟩ := hfits
      rw [pending] at hk
      cases hk
  case last i counters pending found same ended counts =>
    rw [ended.transit?]
    refine ⟨?_, fun del' h => by subst h; rcases ended with h | ⟨p, h⟩ <;> cases h⟩
    rcases hp : del.purpose with _ | why <;> rw [hp] at hfits <;> dsimp only at hfits
    · refine .aside _ _ _ same.errorCounts (counts.output hp) fun i' e h => ?_
      cases h
      exact hfits i (by rw [pending]; exact List.mem_cons_self)
    · obtain ⟨hweight, k, hk, hpending⟩ := hfits
      rw [pending] at hpending
      cases hpending
      refine .arrived why i del.entry hk hweight same.errorCounts ?_
      unfold Progress.Counts at counts
      rw [hp] at counts
      exact counts.imp_left fun h => h.2
  case nowhere counters pending same ended counts =>
    rw [ended.transit?]
    refine ⟨?_, fun del' h => by subst h; rcases ended with h | ⟨p, h⟩ <;> cases h⟩
    rcases hp : del.purpose with _ | why <;> rw [hp] at hfits <;> dsimp only at hfits
    · exact .quiet _ _ (fun _ _ h => by cases h) same.errorCounts (counts.output hp)
    · obtain ⟨-, k, -, hk⟩ := hfits
      rw [pending] at hk
      cases hk

/-! #### Beginning to write -/

theorem startWrite_fits (c : Context) (e : Entry) :
    (c.startWrite e).1.counters = c.counters ∧
      ∀ del, (c.startWrite e).2 = .ok del → del.purpose = .output ∧ (c.startWrite e).1.Fits del := by
  rcases startWrite_cases c e with ⟨-, h⟩ | ⟨-, ⟨-, h⟩ | ⟨-, -, h⟩ | ⟨t, i, -, ho, h⟩⟩ <;> rw [h] <;>
    refine ⟨rfl, fun del hdel => ?_⟩ <;> cases hdel
  · refine ⟨rfl, fun i hi => ?_⟩
    obtain ⟨⟨t, _⟩, hm, rfl⟩ := List.mem_map.mp hi
    exact ⟨t, hm⟩
  · exact ⟨rfl, fun i hi => by cases hi⟩
  · refine ⟨rfl, fun j hj => ⟨t, ?_⟩⟩
    rw [List.mem_singleton.mp hj]
    exact List.mem_of_getElem? ho

theorem startWriteTo_fits (c : Context) (target : String) (e : Entry) :
    ∀ del, c.startWriteTo target e = .ok del → del.purpose = .output ∧ c.Fits del := by
  rcases startWriteTo_cases c target e with ⟨-, h⟩ | ⟨-, ⟨-, h⟩ | ⟨t, i, ho, h⟩⟩ <;> rw [h] <;>
    intro del hdel <;> cases hdel
  refine ⟨rfl, fun j hj => ⟨t, ?_⟩⟩
  rw [List.mem_singleton.mp hj]
  exact List.mem_of_find?_eq_some ho

end Context

namespace Activity

variable {σ α : Type}

theorem startDelivery_handles {s : Shared} {c : Context} {d : Desk σ} (o : Option Diagnosis)
    {r : Except TransformError Context.Delivery} {next : Except TransformError Unit → Plan σ α}
    (hs : d.shared.errorCounts = s.errorCounts)
    (hc : d.context.counters.failures = c.counters.failures)
    (hr : ∀ del, r = .ok del → del.purpose = .output ∧ d.context.Fits del) (b : Prop) :
    Context.Handles s (startDelivery d r next).1.shared c (startDelivery d r next).1.context b o none
        (startDelivery d r next).2.transit? (Deed.ofRefusal r) ∧
      (startDelivery d r next).2.Fits (startDelivery d r next).1.context := by
  rcases r with err | del
  · exact ⟨.quiet o none (fun _ _ h => by cases h) hs hc, trivial⟩
  · obtain ⟨hp, hfits⟩ := hr del rfl
    refine ⟨?_, hfits⟩
    have htransit : (Activity.writing del next).transit? = none := congrArg Context.Purpose.diagnosis? hp
    rw [show (startDelivery d (.ok del) next).2.transit? = none from htransit]
    exact .quiet o none (fun _ _ h => by cases h) hs hc

theorem stepPlan_handles (d : Desk σ) (plan : Plan σ α) (b : Prop) :
    Context.Handles d.shared (stepPlan d plan).1.shared d.context (stepPlan d plan).1.context b
        (Activity.run plan).offered? none (stepPlan d plan).2.transit?
        ((Activity.run plan).deed? d.shared d.context) ∧
      (stepPlan d plan).2.Fits (stepPlan d plan).1.context := by
  obtain ⟨s, c, state⟩ := d
  cases plan
  case write e next =>
    obtain ⟨hc, hfits⟩ := c.startWrite_fits e
    exact startDelivery_handles (d := ⟨s, (c.startWrite e).1, state⟩) none rfl
      (congrArg Counters.failures hc) hfits b
  case writeTo target e next =>
    exact startDelivery_handles none rfl rfl (c.startWriteTo_fits target e) b
  case divert e why next =>
    simp only [stepPlan, deed?]
    rcases Context.startDivert_cases c s e why with ⟨-, h⟩ | ⟨route, maximum, count, -, -, h⟩ |
      ⟨route, -, -, h⟩ | ⟨route, count, hr, hallowed, h⟩ <;> rw [h]
    · exact ⟨.quiet _ none (fun _ _ h => by cases h) rfl rfl, trivial⟩
    · exact ⟨.quiet _ none (fun _ _ h => by cases h) (s.same_sayAll _).errorCounts rfl, trivial⟩
    · exact ⟨.quiet _ none (fun _ _ h => by cases h) rfl rfl, trivial⟩
    · exact ⟨.counted why route count hr hallowed rfl rfl, Entry.weight_diverted _ _ _,
        route.rowSet, rfl, rfl⟩
  case stopAll =>
    exact ⟨.quiet _ none (fun _ _ h => by cases h) (s.requestStop_fixed c.name).2.2 rfl, trivial⟩
  case await =>
    simp only [stepPlan]
    split <;> exact ⟨.quiet _ none (fun _ _ h => by cases h) rfl rfl, trivial⟩
  all_goals exact ⟨.quiet _ none (fun _ _ h => by cases h) rfl rfl, trivial⟩

/-- **What a step of an activity means** for the rows that are diverted. -/
theorem step_handles (d : Desk σ) {a : Activity σ α} (hfits : a.Fits d.context) :
    Context.Handles d.shared (a.step d).1.shared d.context (a.step d).1.context
        (∃ p, (a.step d).2 = .broken p) a.offered? a.transit? (a.step d).2.transit?
        (a.deed? d.shared d.context) ∧
      (a.step d).2.Fits (a.step d).1.context := by
  cases a
  case run plan => exact stepPlan_handles d plan _
  case reading stage next =>
    obtain ⟨-, hstep⟩ := stepRead_spec d stage next
    simp only [step]
    generalize (stepRead d stage next).1.shared = s' at hstep ⊢
    generalize (stepRead d stage next).1.context = c' at hstep ⊢
    generalize (stepRead d stage next).2 = a' at hstep ⊢
    generalize (Activity.reading stage next : Activity σ α).deed? d.shared d.context = deed at hstep ⊢
    cases hstep
    case on => exact ⟨.quiet _ none (fun _ _ h => by cases h) rfl rfl, trivial⟩
    case dry => exact ⟨.quiet _ none (fun _ _ h => by cases h) rfl rfl, trivial⟩
    case row failures same =>
      exact ⟨.quiet _ none (fun _ _ h => by cases h) same.errorCounts failures, trivial⟩
    case broken failures same =>
      exact ⟨.quiet _ none (fun _ _ h => by cases h) same.errorCounts failures, trivial⟩
  case writing del next =>
    obtain ⟨s, c, state⟩ := d
    obtain ⟨hstep, hpending⟩ := (Context.deliver_spec c s del).handles hfits
    simp only [step, deed?]
    rcases hd : c.deliver s del with ⟨s', c', del' | r | p⟩ <;> rw [hd] at hstep hpending
    · refine ⟨hstep.mono ?_, hpending del' rfl⟩
      rintro ⟨p, h⟩
      cases h
    · refine ⟨hstep.mono ?_, trivial⟩
      rintro ⟨p, h⟩
      cases h
    · exact ⟨hstep.mono fun _ => ⟨p, rfl⟩, trivial⟩
  case resting =>
    simp only [step]
    split <;> exact ⟨.quiet _ none (fun _ _ h => by cases h) rfl rfl, trivial⟩
  all_goals exact ⟨.quiet _ none (fun _ _ h => by cases h) rfl rfl, trivial⟩

end Activity

namespace Worker

variable {σ : Type} {s : Shared}

variable [Transform σ]

/-- **What a step of a worker means** for the rows that are diverted. -/
theorem step_handles {x : Worker σ} (hfits : x.phase.Fits x.context) (s : Shared) :
    Context.Handles s (x.step s).1 x.context (x.step s).2.context (x.step s).2.phase.Broken
        x.phase.offered? x.phase.transit? (x.step s).2.phase.transit? (x.deed? s) ∧
      (x.step s).2.phase.Fits (x.step s).2.context := by
  have hmoves := x.step_moves s
  generalize x.deed? s = d, (x.step s).1 = s', (x.step s).2 = y at hmoves ⊢
  obtain ⟨c, state, phase⟩ := x
  have hperform := fun {α : Type} {a : Activity σ α} (h : a.Fits c) =>
    Activity.step_handles ⟨s, c, state⟩ h
  have hquiet : ∀ {s' : Shared} {c' : Context} {b : Prop} {o : Option Diagnosis} {d : Option Deed},
      (∀ i e, d ≠ some (.gave i e)) → s'.errorCounts = s.errorCounts →
      c'.counters.failures = c.counters.failures → Context.Handles s s' c c' b o none none d :=
    fun hd hs hc => .quiet _ none hd hs hc
  cases hmoves
  case initializing => exact hperform hfits
  case working => exact hperform hfits
  case diverting => exact hperform hfits
  case disposing => exact hperform hfits
  case fails =>
    exact ⟨hquiet (fun _ _ h => by cases h) (Shared.requestStop_fixed _ c.name).2.2 rfl, trivial⟩
  case collapses =>
    exact ⟨hquiet (fun _ _ h => by cases h) (Shared.requestStop_fixed _ c.name).2.2 rfl, trivial⟩
  case disposed fate => cases fate <;> exact ⟨hquiet (fun _ _ h => by cases h) rfl rfl, trivial⟩
  case undisposed fate _ =>
    cases fate <;> exact ⟨hquiet (fun _ _ h => by cases h) rfl rfl, trivial⟩
  all_goals exact ⟨hquiet (fun _ _ h => by cases h) rfl rfl, trivial⟩

end Worker

/-- What a step adds to what the entries in some row sets come to. -/
theorem World.total_step {σ : Type} [Transform σ] {w : World σ} {i : Nat} {x : Worker σ}
    (hi : w.workers[i]? = some x) (haims : x.Aims) (worth : Entry → Nat) {is : List Nat}
    (hnodup : is.Nodup) :
    (w.step i).shared.total worth is =
      w.shared.total worth is + Deed.totalFor worth is (x.deed? w.shared) := by
  rw [step_of_getElem? hi]
  exact Shared.total_act (x.step_effect w.shared).rowSets
    (fun d hd => (Worker.deed?_grounds haims hd).enabled) hnodup

/-! ### What a worker is bound to -/

/-- What a worker needs for its rows to go where they should. -/
structure Worker.Bound {σ : Type} (p : Pipeline) (x : Worker σ) : Prop where
  rooted : x.context.Rooted p
  fits : x.phase.Fits x.context
  aims : x.Aims

namespace Worker.Bound

variable {σ : Type} {p : Pipeline} {x : Worker σ}

theorem step [Transform σ] (h : x.Bound p) (s : Shared) : (x.step s).2.Bound p :=
  ⟨h.rooted.leads (x.step_effect s).leads, (x.step_handles h.fits s).2, x.step_aims h.aims⟩

theorem enrolled [Transform σ] {k : WorkerKey} {spec : TransformSpec}
    (hspec : p.transform? k.id = some spec) (hk : k ∈ p.copiesOf k.id) (state : σ) :
    (Worker.new (.new spec k.copy (p.wiring k) (p.slot k.id)) state).key = k ∧
      (Worker.new (.new spec k.copy (p.wiring k) (p.slot k.id)) state).Bound p := by
  have hcontext : p.context? k = some (.new spec k.copy (p.wiring k) (p.slot k.id)) := by
    rw [Pipeline.context?, hspec]
    rfl
  obtain ⟨hkey, hrooted⟩ := Context.Rooted.new hcontext hk
  exact ⟨hkey, hrooted, trivial, fun i hi => by cases hi⟩

theorem hear (h : x.Bound p) (id : String) (l : Listener) : (x.hear id l).Bound p := by
  unfold Worker.hear
  split
  · exact ⟨⟨h.rooted.worker, h.rooted.origin⟩, h.fits, h.aims⟩
  · exact h

theorem launch (h : x.Bound p) : x.launch.Bound p :=
  ⟨h.rooted, trivial, fun i hi => by cases hi⟩

theorem abandon (h : x.Bound p) :
    Bound p { x with phase := Worker.leave x.context .abandoned } :=
  ⟨h.rooted, trivial, fun _ hi => hi⟩

end Worker.Bound

end Rowflow
