import Rowflow.Proofs.Dataflow.Account
import Rowflow.Proofs.Transform.Filtering

/-!
# Rows that a filter deals out

What a worker does is seen apart from the others by letting the shared state be any at each of its steps
(`Worker.Solo`). In such a run the worker of a filter writes the rows it reads, unchanged, to where the
condition sends them (`FilterRows.dealt`), and it is never ahead; between two calls it is not behind
either. Calls fail because of a row set or of a bad row only (`FilterRows.Fails`). What a call is about
is `Activity.Filters`, which goes with its account. Main statement: `FilterRows.partitions_rows`.
-/

namespace Rowflow

/-! ### A worker among others -/

/-- What a worker comes to, with its deeds, the last one first, whatever the others do: the shared state
may be any at each of its steps. Once it is initialized it may be started. -/
inductive Worker.Solo {σ : Type} [Transform σ] (x : Worker σ) : List Deed → Worker σ → Prop where
  | fresh : Solo x [] x
  | start (ds : List Deed) (y : Worker σ) (before : Solo x ds y)
      (ready : y.phase = .initialized (.ok ())) : Solo x ds { y with phase := .starting }
  | step (ds : List Deed) (y : Worker σ) (s : Shared) (before : Solo x ds y) :
      Solo x ((y.deed? s).toList ++ ds) (y.step s).2

/-- What a worker comes to, with its deeds, given the shared states at its next steps. -/
def Worker.goOn {σ : Type} [Transform σ] : List Shared → List Deed → Worker σ → List Deed × Worker σ
  | [], ds, y => (ds, y)
  | s :: rest, ds, y => goOn rest ((y.deed? s).toList ++ ds) (y.step s).2

theorem Worker.Solo.goOn {σ : Type} [Transform σ] {x y : Worker σ} {ds : List Deed}
    (h : Worker.Solo x ds y) (states : List Shared) :
    Worker.Solo x (Worker.goOn states ds y).1 (Worker.goOn states ds y).2 := by
  induction states generalizing ds y with
  | nil => exact h
  | cons s rest ih => exact ih (.step ds y s h)

/-! ### Where the rows should go -/

/-- The outputs that get a row which is written to them as the movement says, when so many rows have
been written like that before: all of them, or one in turn. -/
def Movement.receivers (movement : Movement) (outputs : List (String × Nat)) (before : Nat) :
    List Nat :=
  match movement with
  | .copy => outputs.map (·.2)
  | .distribute => (outputs[before % outputs.length]?.map (·.2)).toList

namespace FilterRows

/-- Whether a row satisfies the condition. -/
def matched (t : FilterRows) (e : Entry) : Bool :=
  (e.row.valueOf? e.layout t.options.field).elim false t.accepts

/-- The outputs that the branches name. -/
def named (t : FilterRows) : List String :=
  [t.options.sendTrueTo, t.options.sendFalseTo].filterMap id

section

variable (t : FilterRows) (movement : Movement) (outputs : List (String × Nat))

/-- The row sets that get a row when so many rows before it have satisfied the condition: the outputs as
the movement says or, if a branch names an output, the one that the row's own branch names, if any. -/
def receivers (before : Nat) (e : Entry) : List Nat :=
  if t.isRouting then
    match if t.matched e then t.options.sendTrueTo else t.options.sendFalseTo with
    | some target => ((outputs.find? (·.1 = target)).map (·.2)).toList
    | none => []
  else if t.matched e then movement.receivers outputs before
  else []

/-- The rows, unchanged, with the row sets that get them. -/
def dealt (before : Nat) : List Entry → List (Nat × Entry)
  | [] => []
  | e :: rest =>
    (t.receivers movement outputs before e).map (·, e) ++
      dealt (if t.matched e then before + 1 else before) rest

end

end FilterRows

/-! ### What is given for a row -/

section Dealing

variable {o : Outlet} {before : Nat} {tally u : Tally} {e : Entry} {os : List (Nat × Entry)}

/-- The turn is that of the outputs when so many rows have been written to them. -/
def Outlet.Follows (o : Outlet) (turn before : Nat) : Prop :=
  o.movement = .distribute → o.outputs ≠ [] → turn % o.outputs.length = before % o.outputs.length

theorem Outlet.emit_pass (h : o.Follows tally.turn before)
    (hemit : o.emit tally e (.pass e) = some (u, os)) :
    os = (o.movement.receivers o.outputs before).map (·, e) ∧ o.Follows u.turn (before + 1) := by
  unfold emit at hemit
  unfold Movement.receivers
  dsimp only at hemit
  split at hemit
  case isFalse => cases hemit
  rcases hm : o.movement with _ | _ <;> rw [hm] at hemit <;> dsimp only at hemit ⊢
  · cases hemit
    refine ⟨by rw [List.map_map]; rfl, fun hd => ?_⟩
    rw [hm] at hd
    cases hd
  · by_cases hne : o.outputs = []
    · rw [hne] at hemit ⊢
      cases hemit
      exact ⟨rfl, fun _ hne' => absurd hne hne'⟩
    · rw [h hm hne] at hemit
      have hlt := Nat.mod_lt before (List.length_pos_iff.mpr hne)
      rw [List.getElem?_eq_getElem hlt] at hemit ⊢
      cases hemit
      refine ⟨rfl, fun _ _ => ?_⟩
      dsimp only
      rw [Nat.mod_add_mod]

namespace FilterRows

variable {t : FilterRows}

theorem route_cases (t : FilterRows) (e : Entry) :
    (e.layout.indexOf? t.options.field = none ∧
      t.route e = .error (missingField t.options.field e.layout)) ∨
    t.route e = .ok (t.branch (t.matched e)) := by
  unfold route matched Row.valueOf?
  rcases e.layout.indexOf? t.options.field with _ | i
  · exact Or.inl ⟨rfl, rfl⟩
  · rcases hv : e.row.get? i with _ | v <;> simp [hv]

theorem deal_receivers (h : t.isRouting = false → o.Follows tally.turn before)
    (hdeal : o.deal (.reader t.verdict) tally e = some (u, os)) :
    os = (t.receivers o.movement o.outputs before e).map (·, e) ∧
      (t.isRouting = false → o.Follows u.turn (if t.matched e then before + 1 else before)) := by
  have hemit : o.emit tally e (t.verdict e) = some (u, os) := hdeal
  unfold verdict at hemit
  rcases t.route_cases e with ⟨-, hr⟩ | hr <;> rw [hr] at hemit
  · cases hemit
  · unfold branch at hemit
    unfold receivers
    by_cases hrouting : t.isRouting = true
    · refine ⟨?_, fun hno => absurd hno (by simp [hrouting])⟩
      rw [if_pos hrouting] at hemit ⊢
      rcases hb : (if t.matched e then t.options.sendTrueTo else t.options.sendFalseTo)
        with _ | target <;> rw [hb] at hemit
      · cases hemit
        rfl
      · dsimp only [Outlet.emit] at hemit ⊢
        split at hemit
        case isFalse => cases hemit
        obtain ⟨⟨name, i⟩, hfound, hsame⟩ := Option.map_eq_some_iff.mp hemit
        cases hsame
        rw [hfound]
        rfl
    · rw [if_neg hrouting] at hemit ⊢
      have hfollows := h (by simpa using hrouting)
      by_cases hm : t.matched e = true
      · rw [if_pos hm] at hemit ⊢
        rw [if_pos hm]
        obtain ⟨hos, hnext⟩ := Outlet.emit_pass hfollows hemit
        exact ⟨hos, fun _ => hnext⟩
      · rw [if_neg hm] at hemit ⊢
        rw [if_neg hm]
        cases hemit
        exact ⟨rfl, fun _ => hfollows⟩

/-- What is given for a list of rows is no more than should be and, if all rows are handled, no less. -/
theorem play_dealt (t : FilterRows) (o : Outlet) (tally : Tally) (before : Nat) (feed : List Entry)
    (h : t.isRouting = false → o.Follows tally.turn before) :
    play (o.deal (.reader t.verdict)) tally feed <+: t.dealt o.movement o.outputs before feed ∧
      ∀ u, reach (o.deal (.reader t.verdict)) tally feed = some u →
        play (o.deal (.reader t.verdict)) tally feed = t.dealt o.movement o.outputs before feed := by
  induction feed generalizing tally before with
  | nil => exact ⟨List.prefix_rfl, fun _ _ => rfl⟩
  | cons e rest ih =>
    rcases hdeal : o.deal (.reader t.verdict) tally e with _ | ⟨u, os⟩
    · rw [play_cons_none hdeal, reach_cons_none hdeal]
      exact ⟨List.nil_prefix, fun u hu => by cases hu⟩
    · obtain ⟨rfl, hnext⟩ := deal_receivers h hdeal
      obtain ⟨hle, heq⟩ := ih _ _ hnext
      rw [play_cons hdeal, reach_cons hdeal, dealt]
      exact ⟨(List.prefix_append_right_inj _).mpr hle, fun u hu => by rw [heq u hu]⟩

end FilterRows

end Dealing

/-! ### Calls of a filter -/

namespace FilterRows

/-- The branches name outputs of the worker. -/
def Aims (t : FilterRows) (c : Context) : Prop := ∀ target ∈ t.named, target ∈ c.outputs.map (·.1)

/-- Why a call of a filter fails, given the deeds of its worker: a row set has refused a row, or a row
that has been read lacks the field or does not fit its layout. -/
inductive Fails (t : FilterRows) (ds : List Deed) : TransformError → Prop where
  | refused (failure : RowSetError) (given : Deed.refused (.rowSet failure) ∈ ds) :
      Fails t ds (.rowSet failure)
  | missing (e : Entry) (read : e ∈ Deed.reads ds)
      (absent : e.layout.indexOf? t.options.field = none) :
      Fails t ds (missingField t.options.field e.layout)
  | misfit (e : Entry) (read : e ∈ Deed.reads ds) (sizes : e.row.size ≠ e.layout.size) :
      Fails t ds (.layoutMismatch e.row.size e.layout.size)

/-- What a call does when a write has been answered. -/
def afterWrite (r : Except TransformError Unit) : Plan Builtin (Except TransformError Bool) :=
  .finish (r.map fun _ => true)

/-- What a call does with a row. -/
def serve (t : FilterRows) (e : Entry) : Plan Builtin (Except TransformError Bool) :=
  match t.route e with
  | .error err => .finish (.error err)
  | .ok .outputs => .write e afterWrite
  | .ok (.output target) => .writeTo target e afterWrite
  | .ok .nowhere => .finish (.ok true)

/-- What a call does when its read has been answered. -/
def afterRead (t : FilterRows) : Option Entry → Plan Builtin (Except TransformError Bool)
  | none => .finish (.ok false)
  | some e => t.serve e

theorem process_eq (t : FilterRows) :
    Transform.process (Builtin.filterRows t) = .read t.afterRead := by
  refine congrArg Plan.read (funext fun x => ?_)
  rcases x with _ | e
  · rfl
  · dsimp only [afterRead, bind, ExceptT.bind, ExceptT.mk, ExceptT.bindCont, Plan.bind, Plan.embed]
    unfold serve
    rcases t.route e with err | _ | target | _
    · rfl
    · exact congrArg (Plan.write e) (funext fun r => by cases r <;> rfl)
    · exact congrArg (Plan.writeTo target e) (funext fun r => by cases r <;> rfl)
    · rfl

theorem mem_reads_append {d : Option Deed} {ds : List Deed} {e : Entry} (h : e ∈ Deed.reads ds) :
    e ∈ Deed.reads (d.toList ++ ds) := by
  rcases d with _ | d
  · exact h
  · cases d
    case took => exact List.mem_append_left _ h
    all_goals exact h

theorem Fails.append {t : FilterRows} {ds : List Deed} {err : TransformError} (h : t.Fails ds err)
    (d : Option Deed) : t.Fails (d.toList ++ ds) err := by
  cases h
  case refused failure given => exact .refused failure (List.mem_append_right _ given)
  case missing e read absent => exact .missing e (mem_reads_append read) absent
  case misfit e read sizes => exact .misfit e (mem_reads_append read) sizes

theorem Fails.ne_row {t : FilterRows} {ds : List Deed} {m : String} {f k : Option String} :
    ¬ t.Fails ds (.row m f k) := by
  intro h
  cases h

end FilterRows

/-- What a call of a filter is about. -/
inductive Activity.Filters (t : FilterRows) (ds : List Deed) :
    Activity Builtin (Except TransformError Bool) → Prop where
  | opening : Filters t ds (.run (.read t.afterRead))
  | reading (stage : ReadStage) : Filters t ds (.reading stage t.afterRead)
  | serving (e : Entry) (read : e ∈ Deed.reads ds) : Filters t ds (.run (t.serve e))
  | writing (del : Context.Delivery) (output : del.purpose = .output) :
      Filters t ds (.writing del FilterRows.afterWrite)
  | ending (answer : Except TransformError Bool) (why : ∀ err, answer = .error err → t.Fails ds err) :
      Filters t ds (.run (.finish answer))
  | ended (answer : Except TransformError Bool) (why : ∀ err, answer = .error err → t.Fails ds err) :
      Filters t ds (.done answer)
  | broken (p : Panic) : Filters t ds (.broken p)

section Calls

variable {t : FilterRows} {ds : List Deed} {s s' : Shared} {c c' : Context}

theorem FilterRows.Aims.find?_ne_none (h : t.Aims c) {target : String} (hmem : target ∈ t.named) :
    c.outputs.find? (·.1 = target) ≠ none := by
  intro hnone
  obtain ⟨x, hx, hname⟩ := List.mem_map.mp (h target hmem)
  exact List.find?_eq_none.mp hnone x hx (decide_eq_true hname)

theorem FilterRows.mem_named_of_branch {matched : Bool} {target : String}
    (h : t.branch matched = .output target) : target ∈ t.named := by
  unfold branch at h
  split at h
  · split at h
    · cases h
      rename_i hb
      unfold named
      rcases matched with _ | _ <;> simp_all
    · cases h
  · split at h <;> cases h

theorem Activity.Filters.serve {e : Entry} (read : e ∈ Deed.reads ds) (aims : t.Aims c) (s : Shared)
    (state : Builtin) :
    ((Activity.run (t.serve e)).step ⟨s, c, state⟩).2.Filters t
      (((Activity.run (t.serve e)).deed? s c).toList ++ ds) := by
  have hmisfit : e.row.size ≠ e.layout.size → ∀ d : Option Deed, Activity.Filters t (d.toList ++ ds)
      (.run (FilterRows.afterWrite (.error (.layoutMismatch e.row.size e.layout.size)))) := by
    refine fun hsize d => .ending _ fun err herr => ?_
    cases herr
    exact .misfit e (FilterRows.mem_reads_append read) hsize
  unfold FilterRows.serve
  rcases t.route_cases e with ⟨habsent, hr⟩ | hr <;> rw [hr]
  · refine .ended _ fun err herr => ?_
    cases herr
    exact .missing e read habsent
  · rcases hb : t.branch (t.matched e) with _ | target | _
    · simp only [Activity.step, Activity.stepPlan, Activity.deed?]
      rcases c.startWrite_cases e with ⟨hsize, hw⟩ | ⟨-, ⟨-, hw⟩ | ⟨-, -, hw⟩ | ⟨_, i, -, -, hw⟩⟩ <;>
        rw [hw]
      · exact hmisfit hsize _
      all_goals exact .writing _ rfl
    · simp only [Activity.step, Activity.stepPlan, Activity.deed?]
      rcases c.startWriteTo_cases target e with ⟨hsize, hw⟩ | ⟨-, ⟨hnone, -⟩ | ⟨_, i, -, hw⟩⟩
      · rw [hw]
        exact hmisfit hsize _
      · exact absurd hnone (aims.find?_ne_none (FilterRows.mem_named_of_branch hb))
      · rw [hw]
        exact .writing _ rfl
    · exact .ended _ fun _ herr => by cases herr

theorem Activity.Filters.read {d : Option Deed} {a : Activity Builtin (Except TransformError Bool)}
    (h : Activity.ReadStep s c t.afterRead d s' c' a) : a.Filters t (d.toList ++ ds) := by
  cases h
  case on _ _ stage _ _ => exact .reading stage
  case dry => exact .ending _ fun _ herr => by cases herr
  case row i e _ _ _ _ _ _ => exact .serving e (by simp [Deed.reads])
  case broken p _ _ _ _ => exact .broken p

theorem Activity.Filters.deliver {d : Option Deed} {del : Context.Delivery} {res : Context.Progress}
    (output : del.purpose = .output) (h : Context.Delivered s c del d s' c' res) :
    (∀ del₁, res = .pending del₁ → del₁.purpose = .output) ∧
      ∀ err, res = .answered (.error err) → t.Fails (d.toList ++ ds) err := by
  cases h
  case full =>
    refine ⟨fun del₁ hdel => ?_, fun _ herr => by cases herr⟩
    cases hdel
    exact output
  case refused i rest err pending found =>
    rw [output]
    refine ⟨fun _ hdel => (by cases hdel), fun _ herr => ?_⟩
    cases herr
    exact .refused err List.mem_cons_self
  case partly =>
    refine ⟨fun del₁ hdel => ?_, fun _ herr => by cases herr⟩
    cases hdel
    exact output
  case last ended _ =>
    rcases ended with rfl | ⟨p, rfl⟩ <;>
      exact ⟨fun _ hdel => (by cases hdel), fun _ herr => (by cases herr)⟩
  case nowhere ended _ =>
    rcases ended with rfl | ⟨p, rfl⟩ <;>
      exact ⟨fun _ hdel => (by cases hdel), fun _ herr => (by cases herr)⟩

/-- **A step of a call** of a filter. -/
theorem Activity.Filters.step {a : Activity Builtin (Except TransformError Bool)}
    (ha : a.Filters t ds) (aims : t.Aims c) (s : Shared) (state : Builtin) :
    (a.step ⟨s, c, state⟩).2.Filters t ((a.deed? s c).toList ++ ds) := by
  cases ha
  case opening => exact .reading .check
  case reading stage =>
    exact Activity.Filters.read (Activity.stepRead_spec ⟨s, c, state⟩ stage t.afterRead).2
  case serving e read => exact Activity.Filters.serve read aims s state
  case writing del output =>
    have hstep := Context.deliver_spec c s del
    simp only [Activity.step, Activity.deed?]
    rcases hd : c.deliver s del with ⟨s', c', res⟩
    rw [hd] at hstep
    obtain ⟨hpending, hfails⟩ := Activity.Filters.deliver output hstep
    rcases res with del₁ | answer | p
    · exact .writing del₁ (hpending del₁ rfl)
    · refine .ending _ fun err herr => hfails err ?_
      rcases answer with _ | _ <;> cases herr
      rfl
    · exact .broken p
  case ending answer why => exact .ended answer why
  case ended answer why => exact .ended answer why
  case broken p => exact .broken p

theorem Activity.Filters.known {a : Activity Builtin (Except TransformError Bool)}
    (ha : a.Filters t ds) (aims : t.Aims c) (s : Shared) (target : String) :
    a.deed? s c ≠ some (.refused (.unknownTarget target)) := by
  intro h
  cases ha
  case reading stage =>
    have hstep := (Activity.stepRead_spec ⟨s, c, .filterRows t⟩ stage t.afterRead).2
    rw [h] at hstep
    cases hstep
  case serving e read =>
    unfold FilterRows.serve at h
    rcases t.route_cases e with ⟨-, hr⟩ | hr <;> rw [hr] at h
    · cases h
    · rcases hb : t.branch (t.matched e) with _ | target | _ <;> rw [hb] at h
      · simp only [Activity.deed?] at h
        rcases c.startWrite_cases e with ⟨-, hw⟩ | ⟨-, ⟨-, hw⟩ | ⟨-, -, hw⟩ | ⟨_, i, -, -, hw⟩⟩ <;>
          rw [hw] at h <;> cases h
      · simp only [Activity.deed?] at h
        rcases c.startWriteTo_cases target e with ⟨-, hw⟩ | ⟨-, ⟨hnone, -⟩ | ⟨_, i, -, hw⟩⟩
        · rw [hw] at h
          cases h
        · exact absurd hnone (aims.find?_ne_none (FilterRows.mem_named_of_branch hb))
        · rw [hw] at h
          cases h
      · cases h
  case writing del output =>
    have hstep := Context.deliver_spec c s del
    rw [show Context.deliveryDeed? s del = some _ from h] at hstep
    generalize herr : TransformError.unknownTarget target = err, (c.deliver s del).1 = s',
      (c.deliver s del).2.1 = c', (c.deliver s del).2.2 = res at hstep
    cases hstep
    case refused =>
      rw [output] at herr
      cases herr
  all_goals cases h

end Calls

/-! ### Workers of a filter -/

/-- What the initialization of a filter is about. -/
inductive Activity.Tests (t : FilterRows) (c : Context) :
    Activity Builtin (Except TransformError Unit) → Prop where
  | opening : Tests t c (.run (Transform.init (Builtin.filterRows t)))
  | ending (answer : Except TransformError Unit) (why : answer = .ok () ↔ t.Aims c) :
      Tests t c (.run (.finish answer))
  | ended (answer : Except TransformError Unit) (why : answer = .ok () ↔ t.Aims c) :
      Tests t c (.done answer)

theorem Activity.Tests.step {t : FilterRows} {c : Context}
    {a : Activity Builtin (Except TransformError Unit)} (ha : a.Tests t c) (s : Shared)
    (state : Builtin) :
    ∃ a', a.step ⟨s, c, state⟩ = (⟨s, c, state⟩, a') ∧ a'.Tests t c ∧ a.deed? s c = none := by
  cases ha
  case opening =>
    refine ⟨_, rfl, ?_, rfl⟩
    dsimp only [Plan.embed]
    rcases hfind : t.named.find? (· ∉ c.outputs.map (·.1)) with _ | target <;>
      rw [show [t.options.sendTrueTo, t.options.sendFalseTo].filterMap id = t.named from rfl,
        show (c.view s).targets = c.outputs.map (·.1) from rfl, hfind]
    · refine .ending _ (iff_of_true rfl fun target htarget => ?_)
      simpa using List.find?_eq_none.mp hfind target htarget
    · refine .ending _ (iff_of_false (fun hok => by cases hok) fun haims => ?_)
      have hmem := haims target (List.mem_of_find?_eq_some hfind)
      have hnot := List.find?_some hfind
      simp only [decide_eq_true_eq] at hnot
      exact hnot hmem
  case ending answer why => exact ⟨_, rfl, .ended answer why, rfl⟩
  case ended answer why => exact ⟨_, rfl, .ended answer why, rfl⟩

/-- What the phase of a filter's worker says about its deeds. -/
def Phase.Filters (t : FilterRows) (ds : List Deed) (c : Context) (state : Builtin) :
    Phase Builtin → Prop
  | .initializing a => ds = [] ∧ c.nextOutput = 0 ∧ state = .filterRows t ∧ a.Tests t c
  | .initialized r => ds = [] ∧ c.nextOutput = 0 ∧ state = .filterRows t ∧ (r = .ok () ↔ t.Aims c)
  | .starting | .checking => t.Aims c ∧ state = .filterRows t ∧
      ∃ feed, Owes (Builtin.filterRows t).role (c.outlet false) ⟨c.nextOutput, none⟩ ds feed []
  | .working a => t.Aims c ∧ a.Filters t ds ∧
      a.Accounts (Builtin.filterRows t).role (c.outlet false) ⟨c.nextOutput, none⟩ ds c state
  | .judging answer => t.Aims c ∧ (∀ err, answer = .error err → t.Fails ds err) ∧
      Answers (Builtin.filterRows t).role (c.outlet false) ⟨c.nextOutput, none⟩ ds c state
        (Deed.endedDry ds) answer
  | .diverting .. | .crashed _ => False
  | .disposing _ a => (a = .run (.finish ()) ∨ a = .done ()) ∧
      Loses (Builtin.filterRows t).role (c.outlet false) ds
  | _ => Loses (Builtin.filterRows t).role (c.outlet false) ds

section Workers

variable {t : FilterRows} {ds : List Deed}

theorem FilterRows.Aims.congr {c c' : Context} (h : t.Aims c) (ho : c'.outputs = c.outputs) :
    t.Aims c' := by
  unfold Aims
  rwa [ho]

theorem Phase.Filters.loses {c : Context} {state : Builtin} {phase : Phase Builtin}
    (h : phase.Filters t ds c state) : Loses (Builtin.filterRows t).role (c.outlet false) ds := by
  cases phase
  case initializing =>
    obtain ⟨rfl, -⟩ := h
    exact ⟨[], rfl, List.nil_prefix⟩
  case initialized =>
    obtain ⟨rfl, -⟩ := h
    exact ⟨[], rfl, List.nil_prefix⟩
  case starting =>
    obtain ⟨-, -, feed, owes⟩ := h
    exact owes.loses rfl rfl
  case checking =>
    obtain ⟨-, -, feed, owes⟩ := h
    exact owes.loses rfl rfl
  case working => exact h.2.2.loses
  case judging => exact h.2.2.loses
  case diverting => exact absurd h id
  case crashed => exact absurd h id
  case disposing => exact h.2
  all_goals exact h

/-- **A step of a filter's worker** keeps what its phase says. -/
theorem Worker.filters_step {x : Worker Builtin} (s : Shared)
    (hx : x.phase.Filters t ds x.context x.state) :
    (x.step s).2.phase.Filters t ((x.deed? s).toList ++ ds) (x.step s).2.context
      (x.step s).2.state := by
  have hmoves := x.step_moves s
  generalize x.deed? s = d, (x.step s).1 = s', (x.step s).2 = y at hmoves ⊢
  obtain ⟨c, state, phase⟩ := x
  dsimp only at hx hmoves
  cases hmoves
  case initializing a _ =>
    obtain ⟨rfl, hturn, hstate, htests⟩ := hx
    obtain ⟨a', ha, htests', hdeed⟩ := htests.step s state
    rw [ha, hdeed]
    exact ⟨rfl, hturn, hstate, htests'⟩
  case initialized r =>
    obtain ⟨rfl, hturn, hstate, htests⟩ := hx
    cases htests
    case ended why => exact ⟨rfl, hturn, hstate, why⟩
  case uninitialized p =>
    obtain ⟨-, -, -, htests⟩ := hx
    cases htests
  case waits r => exact hx
  case starts => exact hx
  case stops =>
    obtain ⟨-, -, feed, owes⟩ := hx
    exact owes.loses rfl rfl
  case begins =>
    obtain ⟨haims, rfl, feed, owes⟩ := hx
    refine ⟨haims, ?_, .opening feed _ ⟨owes.feeds.congr rfl, owes.writes, owes.tally⟩
      ((Builtin.filterRows t).conforms.opens feed _ rfl)⟩
    rw [t.process_eq]
    exact .opening
  case working a _ =>
    obtain ⟨haims, hfilters, haccounts⟩ := hx
    have hleads := (Activity.step_does ⟨s, c, state⟩ a).leads
    have haccounts : a.Accounts _ (c.outlet false) (c.marks false s) ds c state := haccounts
    have hstep := haccounts.step
    rw [← hleads.outlet] at hstep
    exact ⟨haims.congr hleads.outputs, hfilters.step haims s state, hstep⟩
  case answers r =>
    obtain ⟨haims, hfilters, haccounts⟩ := hx
    cases hfilters
    case ended why =>
      cases haccounts
      case ended answers =>
        exact ⟨haims, fun err herr => (why err herr).append (some _), answers.answered⟩
  case panics p =>
    obtain ⟨-, -, haccounts⟩ := hx
    exact haccounts.loses
  case more =>
    obtain ⟨haims, -, hanswers⟩ := hx
    cases hanswers
    case more feed owes ready =>
      cases state
      case filterRows t' =>
        obtain rfl : t' = t := ready
        exact ⟨haims, rfl, feed, owes⟩
      all_goals exact absurd ready id
  case exhausted => exact hx.2.2.loses.transfer rfl rfl
  case cut => exact hx.2.2.loses.transfer rfl rfl
  case bad => exact absurd (hx.2.1 _ rfl) FilterRows.Fails.ne_row
  case lost => exact absurd (hx.2.1 _ rfl) FilterRows.Fails.ne_row
  case failed => exact hx.2.2.loses
  case diverting => exact absurd hx id
  case diverted => exact absurd hx id
  case interrupted => exact absurd hx id
  case undiverted => exact absurd hx id
  case crashes => exact absurd hx id
  case collapses => exact absurd hx id
  case fails => exact Loses.transfer hx rfl rfl
  case closes => exact Loses.transfer hx rfl rfl
  case closed => exact ⟨Or.inl rfl, hx⟩
  case disposing a hgoing =>
    obtain ⟨rfl | rfl, hloses⟩ := hx
    · exact ⟨Or.inr rfl, hloses⟩
    · exact absurd hgoing id
  case disposed fate =>
    obtain ⟨-, hloses⟩ := hx
    cases fate <;> exact hloses
  case undisposed =>
    obtain ⟨h | h, -⟩ := hx <;> cases h
  case reports => exact hx
  case sends => exact Loses.transfer hx rfl rfl
  case ended => exact hx

/-- No output is unknown to a filter's worker. -/
theorem Worker.filters_known {x : Worker Builtin} (s : Shared)
    (hx : x.phase.Filters t ds x.context x.state) (target : String) :
    x.deed? s ≠ some (.refused (.unknownTarget target)) := by
  intro h
  have hmoves := x.step_moves s
  rw [h] at hmoves
  generalize hd : some (Deed.refused (.unknownTarget target)) = d, (x.step s).1 = s',
    (x.step s).2 = y at hmoves
  obtain ⟨c, state, phase⟩ := x
  dsimp only at hx hmoves
  cases hmoves
  case initializing a _ =>
    obtain ⟨-, -, -, htests⟩ := hx
    obtain ⟨-, -, -, hnone⟩ := htests.step s state
    cases hd.trans hnone
  case working a _ =>
    obtain ⟨haims, hfilters, -⟩ := hx
    exact hfilters.known haims s target hd.symm
  case diverting => exact absurd hx id
  case disposing a hgoing =>
    obtain ⟨rfl | rfl, -⟩ := hx <;> cases hd
  all_goals cases hd

/-- **A run of a filter's worker**, whatever the others do. -/
theorem Worker.Solo.filters {c : Context} {x : Worker Builtin} (hturn : c.nextOutput = 0)
    (h : Worker.Solo (.new c (.filterRows t)) ds x) :
    x.phase.Filters t ds x.context x.state ∧ x.context.spec = c.spec ∧
      x.context.outputs = c.outputs ∧ ∀ target, Deed.refused (.unknownTarget target) ∉ ds := by
  induction h with
  | fresh => exact ⟨⟨rfl, hturn, rfl, .opening⟩, rfl, rfl, fun _ => List.not_mem_nil⟩
  | start ds y before ready ih =>
    obtain ⟨hphase, hspec, hout, hknown⟩ := ih
    rw [ready] at hphase
    obtain ⟨rfl, hturn, hstate, haims⟩ := hphase
    have hagrees : Tally.Agrees {} ⟨y.context.nextOutput, none⟩ :=
      ⟨hturn.symm, fun _ hn => by cases hn⟩
    exact ⟨⟨haims.mp rfl, hstate, [], rfl, rfl, {}, rfl, hagrees⟩, hspec, hout, hknown⟩
  | step ds y s before ih =>
    obtain ⟨hphase, hspec, hout, hknown⟩ := ih
    have hleads := (y.step_effect s).leads
    refine ⟨Worker.filters_step s hphase, hleads.spec.trans hspec, hleads.outputs.trans hout,
      fun target hmem => ?_⟩
    rcases List.mem_append.mp hmem with hmem | hmem
    · exact Worker.filters_known s hphase target (Option.mem_toList.mp hmem)
    · exact hknown target hmem

/-- What a filter has written is what should be written for the rows it has read. -/
theorem Owes.writes_dealt {c : Context} {m : Marks} {feed : List Entry}
    (owes : Owes (Builtin.filterRows t).role (c.outlet false) m ds feed []) :
    Deed.writes ds = t.dealt c.spec.movement c.outputs 0 (Deed.reads ds) := by
  obtain ⟨tally, hreach, -⟩ := owes.tally
  have hfeed : feed = Deed.reads ds := owes.feeds
  have hplay := (t.play_dealt (c.outlet false) {} 0 feed fun _ _ _ => rfl).2 _ hreach
  rw [← hfeed, ← List.append_nil (Deed.writes ds), owes.writes]
  exact hplay

theorem Loses.writes_dealt {c : Context}
    (loses : Loses (Builtin.filterRows t).role (c.outlet false) ds) :
    Deed.writes ds <+: t.dealt c.spec.movement c.outputs 0 (Deed.reads ds) := by
  obtain ⟨feed, hfeed, hle⟩ := loses
  obtain rfl : feed = Deed.reads ds := hfeed
  exact hle.trans (t.play_dealt (c.outlet false) {} 0 _ fun _ _ _ => rfl).1

end Workers

/-! ### Main statement -/

namespace FilterRows

/-- A row that has a value for every field of its layout is judged by the value of the field. -/
theorem exists_matched {e : Entry} {i : Nat} {field : String}
    (hi : e.layout.indexOf? field = some i) (hsize : e.row.size = e.layout.size) :
    ∃ v, e.row.get? i = some v ∧
      ∀ t : FilterRows, t.options.field = field → t.matched e = t.accepts v := by
  have hlt : i < e.row.values.length := by
    obtain ⟨hlt, -⟩ := List.findIdx?_eq_some_iff_getElem.mp hi
    exact hlt.trans_eq hsize.symm
  have hv : e.row.get? i = some e.row.values[i] := List.getElem?_eq_getElem hlt
  refine ⟨_, hv, fun t ht => ?_⟩
  subst ht
  unfold matched Row.valueOf?
  rw [hi, Option.bind_some, hv]
  rfl

/-- What there is to say of a filter's worker that began with the context `c`, and of its deeds. -/
structure DealsOut (t : FilterRows) (c : Context) (ds : List Deed) (x : Worker Builtin) : Prop where
  /-- It is initialized unless a branch names something that is no output. -/
  initialized : ∀ r, x.phase = .initialized r → (r = .ok () ↔ t.Aims c)
  /-- Nothing is written but the rows that have been read, where they should go and in order. -/
  dealing : Deed.writes ds <+: t.dealt c.spec.movement c.outputs 0 (Deed.reads ds)
  /-- Between two calls, and when one has succeeded, all of them have been written. -/
  dealt : (x.phase = .checking ∨ ∃ more, x.phase = .judging (.ok more)) →
    Deed.writes ds = t.dealt c.spec.movement c.outputs 0 (Deed.reads ds)
  failed : ∀ err, x.phase = .judging (.error err) → t.Fails ds err
  known : ∀ target, Deed.refused (.unknownTarget target) ∉ ds

theorem deals_out {t : FilterRows} {c : Context} {ds : List Deed} {x : Worker Builtin}
    (hturn : c.nextOutput = 0) (h : Worker.Solo (.new c (.filterRows t)) ds x) :
    t.DealsOut c ds x := by
  obtain ⟨hphase, hspec, hout, hknown⟩ := h.filters hturn
  have hdealt : (x.phase = .checking ∨ ∃ more, x.phase = .judging (.ok more)) →
      Deed.writes ds = t.dealt x.context.spec.movement x.context.outputs 0 (Deed.reads ds) := by
    rintro (hchecking | ⟨more, hjudging⟩)
    · rw [hchecking] at hphase
      obtain ⟨-, -, feed, owes⟩ := hphase
      exact owes.writes_dealt
    · rw [hjudging] at hphase
      obtain ⟨-, -, hanswers⟩ := hphase
      cases hanswers
      case more owes _ => exact owes.writes_dealt
      case exhausted owes _ => exact owes.writes_dealt
  have hdealing := hphase.loses.writes_dealt
  rw [hspec, hout] at hdealt hdealing
  refine ⟨fun r hr => ?_, hdealing, hdealt, fun err herr => ?_, hknown⟩
  · rw [hr] at hphase
    exact hphase.2.2.2.trans ⟨fun h => h.congr hout.symm, fun h => h.congr hout⟩
  · rw [herr] at hphase
    exact hphase.2.1 err rfl

/-- **Filters.** A comparison is refused exactly if its options have no constant. The conditions on the
value of a field hang together: of equal, less and greater one holds at most, and none where value and
constant are incomparable. In whatever surroundings a worker runs a filter, it writes each row that it
reads, unchanged and once, to where the condition sends it, and nothing else; unless a call fails, which
it does only because of a row set that refuses a row or because of a bad row, all rows have been written
when it is answered. -/
theorem partitions_rows (o : FilterOptions) :
    ((∃ text, new o = .error text) ↔
      o.op ∈ FilterOperator.comparisons ∧ ¬ ∃ y, o.value = some y ∧ y.IsPlain) ∧
    (∀ (f : FilterOperator → FilterRows) (e : Entry) (i : Nat),
      e.layout.indexOf? o.field = some i → e.row.size = e.layout.size →
        ∃ v, e.row.get? i = some v ∧
          ((∀ op ∈ FilterOperator.comparisons, new { o with op } = .ok (f op)) →
            ∃ y c, o.value = some y ∧ constantOf y = .ok c ∧
              FilterOperator.Coherent v c fun op => (f op).matched e) ∧
          ((∀ op ∉ FilterOperator.comparisons, new { o with op } = .ok (f op)) →
            ((f .isNull).matched e = true ↔ v = .null) ∧
              (f .notNull).matched e = !(f .isNull).matched e)) ∧
    ∀ t, new o = .ok t → ∀ c : Context, c.nextOutput = 0 → ∀ ds (x : Worker Builtin),
      Worker.Solo (.new c (.filterRows t)) ds x → t.DealsOut c ds x := by
  refine ⟨new_eq_error_iff o, fun f e i hi hsize => ?_, fun t _ c hturn ds x => deals_out hturn⟩
  obtain ⟨v, hv, hmatched⟩ := exists_matched hi hsize
  have hfield : ∀ op, new { o with op } = .ok (f op) → (f op).matched e = (f op).accepts v :=
    fun op hop => hmatched (f op) (by rw [options_of_new hop])
  refine ⟨v, hv, fun hf => ?_, fun hf => ?_⟩
  · obtain ⟨y, c, hy, hc, hholds⟩ := exists_constant hf
    obtain ⟨hnone, hholds⟩ := hholds v
    exact ⟨y, c, hy, hc, .of_holds hnone fun op hop => (hfield op (hf op hop)).trans (hholds op hop)⟩
  · rw [hfield .isNull (hf .isNull (by decide)), hfield .notNull (hf .notNull (by decide))]
    exact accepts_null hf v

end FilterRows

/-! A filter with an output for each branch, which reads one row after the other. -/

namespace Splitting

def options : FilterOptions where
  field := "n"
  op := .gt
  value := some (.integer 2)
  sendTrueTo := some "big"
  sendFalseTo := some "rest"

def filter (op : FilterOperator) : FilterRows :=
  ⟨{ options with op }, if op.needsConstant then some (.integer 2) else none⟩

def row (v : Value) : Entry := ⟨⟨[⟨"n", .integer, -1, -1⟩]⟩, ⟨[v]⟩⟩

def context : Context where
  spec := { id := "split", type := "filter_rows" }
  copy := 0
  inputs := [0]
  outputs := [("rest", 1), ("big", 2)]
  errors := none

/-- What the worker finds while a row waits in its input and there is room in its outputs. -/
def offer (v : Value) : Shared where
  pipeline := "p"
  rowSets := #[(RowSet.new 1).accept (row v), .new 1, .new 1]

/-- What the worker finds at each of its steps after its start. -/
def surroundings : List Shared :=
  offer .null :: [.integer 5, .integer 2, .null].flatMap fun v => .replicate 9 (offer v)

end Splitting

theorem FilterRows.partitions_rows_split :
    FilterRows.new Splitting.options = .ok (Splitting.filter .gt) ∧
    (∃ v c, FilterOperator.Coherent v c fun op =>
      (Splitting.filter op).matched (Splitting.row (.integer 5))) ∧
    ∃ ds x, Worker.Solo (.new Splitting.context (Builtin.filterRows (Splitting.filter .gt))) ds x ∧
      Deed.reads ds = [.integer 5, .integer 2, .null].map Splitting.row ∧
      Deed.writes ds = [(2, Splitting.row (.integer 5)), (1, Splitting.row (.integer 2)),
        (1, Splitting.row .null)] := by
  have made : FilterRows.new Splitting.options = .ok (Splitting.filter .gt) := rfl
  obtain ⟨-, hconditions, hruns⟩ := FilterRows.partitions_rows Splitting.options
  obtain ⟨v, -, hcompare, -⟩ := hconditions Splitting.filter (Splitting.row (.integer 5)) 0 rfl rfl
  obtain ⟨-, c, -, -, hcoherent⟩ := hcompare fun op _ => by cases op <;> rfl
  have begun :
      Worker.Solo (.new Splitting.context (Builtin.filterRows (Splitting.filter .gt))) [] _ := .fresh
  have initialized := begun.goOn (.replicate 3 (Splitting.offer .null))
  have run := Worker.Solo.goOn (.start _ _ initialized rfl) Splitting.surroundings
  have deals := hruns _ made Splitting.context rfl _ _ run
  exact ⟨made, ⟨v, c, hcoherent⟩, _, _, run, rfl, (deals.dealt (Or.inl rfl)).trans rfl⟩

end Rowflow
