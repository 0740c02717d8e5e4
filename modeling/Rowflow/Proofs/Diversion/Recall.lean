import Mathlib.Logic.Function.Basic
import Rowflow.Proofs.Dataflow.Typing
import Rowflow.Proofs.Diversion.Routing

/-!
# What a diversion remembers

A diversion remembers the layout of diverted rows for the input layout that came last. In all its
states what it remembers is what it would compute (`Diversion.Coherent`), so a diverted row has the
layout that belongs to its own input layout (`Routing.route_appends`), also if other rows are diverted
while it is on its way, and diversions that forget after every use do the same (`Routing.forget_run`).
-/

namespace Rowflow

/-! ### Rows with a diagnosis -/

/-- The fields that are added to a layout for a diagnosis. -/
def ErrorHandling.diagnostics (h : ErrorHandling) : List Field :=
  [⟨h.countField, .integer, -1, -1⟩, ⟨h.descriptionField, .string, -1, -1⟩,
    ⟨h.fieldsField, .string, -1, -1⟩, ⟨h.codesField, .string, -1, -1⟩]

theorem ErrorHandling.errorLayout_eq (h : ErrorHandling) (l : Layout) :
    h.errorLayout l = ⟨l.fields ++ h.diagnostics⟩ := by
  simp [errorLayout, Layout.push, diagnostics]

theorem Diagnosis.toNat_weight (why : Diagnosis) : why.weight.toNat = max why.count.toNat 1 := by
  unfold weight
  split
  · rename_i hzero
    rw [hzero]
    rfl
  · rename_i hne
    have hpos : why.count.toNat ≠ 0 := fun hz => hne (UInt64.toNat_inj.mp hz)
    omega

theorem Diagnosis.toInt_weight {why : Diagnosis} (h : why.count.toNat < 2 ^ 63) :
    why.weight.toInt64.toInt = (max why.count.toNat 1 : Nat) := by
  have hweight : why.weight.toBitVec.toNat = max why.count.toNat 1 := why.toNat_weight
  have hsmall : 2 * why.weight.toBitVec.toNat < 2 ^ 64 := by omega
  rw [← Int64.toInt_toBitVec, UInt64.toBitVec_toInt64, BitVec.toInt_eq_toNat_of_lt hsmall, hweight]

theorem Diagnosis.values_eq (why : Diagnosis) : why.values =
    [.integer why.weight.toInt64, .string why.description, why.fields.elim .null .string,
      why.codes.elim .null .string] := by
  rcases why with ⟨count, description, _ | fields, _ | codes⟩ <;> rfl

/-- `d` is the entry `e` with a diagnosis: the layout has the four diagnostic fields at its end, and
the row has their values. -/
structure Entry.Diagnosed (e : Entry) (h : ErrorHandling) (why : Diagnosis) (d : Entry) : Prop where
  fields : d.layout.fields = e.layout.fields ++
    [⟨h.countField, .integer, -1, -1⟩, ⟨h.descriptionField, .string, -1, -1⟩,
      ⟨h.fieldsField, .string, -1, -1⟩, ⟨h.codesField, .string, -1, -1⟩]
  values : ∃ n : Int64, n.toInt = (max why.count.toNat 1 : Nat) ∧
    d.row.values = e.row.values ++
      [.integer n, .string why.description, why.fields.elim .null .string,
        why.codes.elim .null .string]
  conforms : e.Conforms → d.Conforms

theorem Entry.diagnosed (e : Entry) (h : ErrorHandling) {why : Diagnosis}
    (hwhy : why.count.toNat < 2 ^ 63) :
    e.Diagnosed h why ⟨h.errorLayout e.layout, e.row.append why.values⟩ where
  fields := congrArg Layout.fields (h.errorLayout_eq e.layout)
  values := by
    refine ⟨why.weight.toInt64, Diagnosis.toInt_weight hwhy, ?_⟩
    rw [← why.values_eq]
    rfl
  conforms := h.conforms_errorLayout why

/-! ### Forgetting -/

/-- The diversion with nothing remembered. -/
def Diversion.forget (d : Diversion) : Diversion := { d with known := none }

theorem Diversion.forget_layoutFor (d : Diversion) (l : Layout) :
    (d.layoutFor l).2.forget = d.forget := by
  obtain ⟨htransform, hhandling⟩ := Context.layoutFor_fixed d l
  unfold forget
  rw [htransform, hhandling]

theorem Diversion.coherent_forget (d : Diversion) : d.forget.Coherent :=
  fun _ _ h => by cases h

/-- The diversion with nothing remembered, at its row set. -/
def Router.forget (q : Router) : Router := { q with diversion := q.diversion.forget }

theorem Router.coherent_holding {q : Router} (hq : q.diversion.Coherent) (e : Entry) (why : Diagnosis) :
    (q.holding e why).diversion.Coherent :=
  (Context.layoutFor_coherent hq e.layout).2

theorem Router.sending_holding {q : Router} (hq : q.diversion.Coherent) (e : Entry) (why : Diagnosis) :
    (q.holding e why).sending =
      some ⟨q.diversion.handling.errorLayout e.layout, e.row.append why.values⟩ := by
  unfold holding
  dsimp only
  rw [(Context.layoutFor_coherent hq e.layout).1]

theorem Router.forget_holding {q : Router} (hq : q.diversion.Coherent) (e : Entry) (why : Diagnosis) :
    (q.forget.holding e why).forget = (q.holding e why).forget := by
  have hdiversion : (q.forget.holding e why).diversion.forget = (q.holding e why).diversion.forget :=
    (q.forget.diversion.forget_layoutFor e.layout).trans
      (q.diversion.forget_layoutFor e.layout).symm
  have hsending := (sending_holding q.diversion.coherent_forget (q := q.forget) e why).trans
    (sending_holding hq e why).symm
  exact congrArg₂ (Router.mk · q.rowSet q.slot ·) hdiversion hsending

namespace Routing

/-- The diversions with nothing remembered. -/
def forget (r : Routing) : Routing := { r with routers := r.routers.map Router.forget }

/-- All diversions remember what they would compute. -/
def Coherent (r : Routing) : Prop := ∀ q ∈ r.routers, q.diversion.Coherent

/-- The diversions after some uses, if they forget after each of them. -/
def afterForgetting (r : Routing) (uses : List Use) : Routing :=
  uses.foldl (fun r u => (r.use u).forget) r

/-- The diversions after some uses with nothing to start from, if they forget after each of them. -/
def runForgetting (uses : List Use) : Routing := afterForgetting {} uses

/-- The entries that have been accepted at a position. -/
def accepted (r : Routing) (i : Nat) : List Entry := (r.router i).rowSet.accepted.toList

variable {r : Routing} {i : Nat}

theorem router_forget (r : Routing) (i : Nat) : r.forget.router i = (r.router i).forget := by
  unfold router forget
  rw [Array.getElem?_map]
  rcases r.routers[i]? with _ | q <;> rfl

theorem count_forget (r : Routing) (i : Nat) : r.forget.count i = r.count i := by
  unfold count
  rw [router_forget]
  rfl

/-! ### One use -/

theorem Coherent.router (hr : r.Coherent) (i : Nat) : (r.router i).diversion.Coherent := by
  by_cases hi : i < r.routers.size
  · exact hr _ (mem_router hi)
  · rw [router_eq_default hi]
    exact fun _ _ h => by cases h

theorem Coherent.setIfInBounds (hr : r.Coherent) {r' : Routing} {q : Router}
    (hr' : r'.routers = r.routers.setIfInBounds i q) (hq : q.diversion.Coherent) :
    r'.Coherent := by
  intro x hx
  rw [hr'] at hx
  rcases Array.mem_or_eq_of_mem_setIfInBounds hx with hx | rfl
  · exact hr x hx
  · exact hq

theorem Coherent.call (hr : r.Coherent) (i : Nat) (e : Entry) (why : Diagnosis) :
    (r.call i e why).1.Coherent := by
  have hcalled := r.call_called i e why
  generalize (r.call i e why).1 = r', (r.call i e why).2 = answer at hcalled ⊢
  cases hcalled with
  | refused log refusal => exact hr
  | counted allowed changed counts stopped =>
    exact hr.setIfInBounds changed.routers (Router.coherent_holding (hr.router i) e why)

theorem Coherent.send (hr : r.Coherent) (i : Nat) : (r.send i).1.Coherent := by
  have hsent := r.send_sent i
  generalize (r.send i).1 = r', (r.send i).2 = answer at hsent ⊢
  cases hsent with
  | waits => exact hr
  | taken inside sending changed counts => exact hr.setIfInBounds changed.routers (hr.router i)
  | lost inside room changed counts stopped => exact hr.setIfInBounds changed.routers (hr.router i)

theorem Coherent.use (hr : r.Coherent) (u : Use) : (r.use u).Coherent := by
  cases u with
  | add transform handling capacity shared =>
    intro q hq
    rcases Array.mem_push.mp hq with hq | rfl
    · exact hr q hq
    · exact fun _ _ h => by cases h
  | call i e why =>
    simp only [Routing.use]
    split
    · exact hr.call i e why
    · exact hr
  | send i => exact hr.send i
  | drain i => exact hr.setIfInBounds rfl (hr.router i)
  | finish i => exact hr.setIfInBounds rfl (hr.router i)
  | stop => exact hr

theorem Coherent.after (hr : r.Coherent) (uses : List Use) : (r.after uses).Coherent :=
  List.foldlRecOn uses Routing.use hr fun _ h u _ => Coherent.use h u

theorem coherent_forget (r : Routing) : r.forget.Coherent :=
  Array.forall_mem_map.mpr fun q _ => q.diversion.coherent_forget

theorem forget_congr {r' : Routing}
    (hrouters : r'.routers.map Router.forget = r.routers.map Router.forget)
    (hcounts : r'.counts = r.counts) (hstopped : r'.stopped = r.stopped) (hlog : r'.log = r.log) :
    r'.forget = r.forget := by
  unfold forget
  rw [hrouters, hcounts, hstopped, hlog]

theorem map_forget (r : Routing) :
    r.forget.routers.map Router.forget = r.routers.map Router.forget := by
  unfold forget
  rw [Array.map_map]
  rfl

theorem forget_forget (r : Routing) : r.forget.forget = r.forget :=
  forget_congr r.map_forget rfl rfl rfl

theorem map_forget_setIfInBounds (r : Routing) (i : Nat) {q q' : Router} (hq : q'.forget = q.forget) :
    (r.forget.routers.setIfInBounds i q').map Router.forget =
      (r.routers.setIfInBounds i q).map Router.forget := by
  rw [Array.map_setIfInBounds, Array.map_setIfInBounds, hq, map_forget]

/-- A diversion that remembers what it would compute does what it does with nothing remembered. -/
theorem call_forget (hr : r.Coherent) (i : Nat) (e : Entry) (why : Diagnosis) :
    (r.forget.call i e why).2 = (r.call i e why).2 ∧
      (r.forget.call i e why).1.forget = (r.call i e why).1.forget := by
  have hhandling : (r.forget.router i).diversion.handling = (r.router i).diversion.handling := by
    rw [router_forget]
    rfl
  have hrefusal : (r.forget.router i).diversion.refusal = (r.router i).diversion.refusal := by
    rw [router_forget]
    rfl
  have hslot : (r.forget.router i).slot = (r.router i).slot := by
    rw [router_forget]
    rfl
  rw [call_eq, call_eq, count_forget, hhandling, hrefusal, hslot, router_forget]
  rcases (r.router i).diversion.handling.reserve (r.count i) why.weight with (err | p) | count
  · exact ⟨rfl, forget_congr r.map_forget rfl rfl rfl⟩
  · exact ⟨rfl, r.forget_forget⟩
  · refine ⟨rfl, forget_congr (r.map_forget_setIfInBounds i ?_) rfl rfl rfl⟩
    exact Router.forget_holding (hr.router i) e why

theorem send_forget (r : Routing) (i : Nat) :
    (r.forget.send i).2 = (r.send i).2 ∧ (r.forget.send i).1.forget = (r.send i).1.forget := by
  simp only [send, router_forget, Router.forget]
  rcases (r.router i).sending with _ | e
  · exact ⟨rfl, r.forget_forget⟩
  dsimp only
  rw [show r.forget.stopped = r.stopped from rfl]
  rcases (r.router i).rowSet.admission r.stopped
  case full => exact ⟨rfl, r.forget_forget⟩
  all_goals exact ⟨rfl, forget_congr (r.map_forget_setIfInBounds i rfl) rfl rfl rfl⟩

theorem use_forget (hr : r.Coherent) (u : Use) : (r.forget.use u).forget = (r.use u).forget := by
  cases u with
  | add transform handling capacity shared =>
    refine forget_congr ?_ rfl rfl rfl
    simp only [use, add, Array.map_push, map_forget]
    rfl
  | call i e why =>
    have hsize : r.forget.routers.size = r.routers.size := Array.size_map
    have hsending : (r.forget.router i).sending = (r.router i).sending := by
      rw [router_forget]
      rfl
    simp only [use, hsize, hsending]
    split
    · exact (call_forget hr i e why).2
    · exact r.forget_forget
  | send i => exact (r.send_forget i).2
  | drain i =>
    simp only [use, drain, router_forget]
    exact forget_congr (r.map_forget_setIfInBounds i rfl) rfl rfl rfl
  | finish i =>
    simp only [use, finish, router_forget]
    exact forget_congr (r.map_forget_setIfInBounds i rfl) rfl rfl rfl
  | stop => exact forget_congr r.map_forget rfl rfl rfl

/-! ### Any number of uses -/

theorem coherent_run (uses : List Use) : (run uses).Coherent :=
  Coherent.after (fun q hq => absurd hq (Array.not_mem_empty q)) uses

/-- Diversions that differ in what they remember do so after any uses, whether they forget or not. -/
theorem forget_after {r' : Routing} (hr : r.Coherent) (hr' : r'.Coherent) (h : r'.forget = r.forget)
    (uses : List Use) : (r'.afterForgetting uses).forget = (r.after uses).forget := by
  induction uses generalizing r r' with
  | nil => exact h
  | cons u rest ih =>
    refine ih (hr.use u) (coherent_forget _) ?_
    rw [forget_forget, ← use_forget hr', h, use_forget hr]

/-- **Forgetting changes nothing** but what is remembered. -/
theorem forget_run (uses : List Use) : (run uses).forget = runForgetting uses := by
  have hforgotten : ∀ {r : Routing}, r.forget = r → (r.afterForgetting uses).forget =
      r.afterForgetting uses := by
    induction uses with
    | nil => exact id
    | cons u rest ih => exact fun _ => ih (forget_forget _)
  have hempty : forget {} = {} := congrArg (Routing.mk · _ _ _) Array.map_empty
  have hnone : Coherent {} := fun q hq => absurd hq (Array.not_mem_empty q)
  unfold run runForgetting
  rw [← forget_after hnone hnone rfl, hforgotten hempty]

/-- What becomes of a row is the same, whether it is remembered what comes in the meantime or not. -/
theorem routeDuring_forget (hr : r.Coherent) (i : Nat) (e : Entry) (why : Diagnosis)
    (between : List Use) :
    (r.forget.routeDuring i e why (·.afterForgetting between)).2 =
        (r.routeDuring i e why (·.after between)).2 ∧
      (r.forget.routeDuring i e why (·.afterForgetting between)).1.forget =
        (r.routeDuring i e why (·.after between)).1.forget := by
  obtain ⟨hanswer, hstate⟩ := call_forget hr i e why
  have hlast := forget_after (hr.call i e why) (r.coherent_forget.call i e why) hstate between
  rcases r.routeDuring_cases i e why (·.after between) with ⟨obstacle, hrefused, hroute⟩ |
    ⟨hok, hroute⟩ <;>
  rcases r.forget.routeDuring_cases i e why (·.afterForgetting between) with
    ⟨obstacle', hrefused', hroute'⟩ | ⟨hok', hroute'⟩ <;> rw [hroute, hroute']
  · rw [hrefused, hrefused'] at hanswer
    cases hanswer
    exact ⟨rfl, hstate⟩
  · rw [hrefused, hok'] at hanswer
    cases hanswer
  · rw [hok, hrefused'] at hanswer
    cases hanswer
  · obtain ⟨hanswer₁, hstate₁⟩ := (((r.call i e why).1.after between).send_forget i)
    obtain ⟨hanswer₂, hstate₂⟩ := (((r.forget.call i e why).1.afterForgetting between).send_forget i)
    rw [← hlast] at hanswer₁ hstate₁
    dsimp only
    exact ⟨congrArg _ (hanswer₂.symm.trans hanswer₁), hstate₂.symm.trans hstate₁⟩

/-! ### How rows are to be diverted -/

/-- How the rows of a new diversion are to be diverted. -/
def Use.handling? : Use → Option ErrorHandling
  | .add _ handling _ _ => some handling
  | _ => none

/-- How rows are to be diverted at each position. -/
def handlings (uses : List Use) : List ErrorHandling := uses.filterMap Use.handling?

/-- How rows are diverted at each position. -/
def handled (r : Routing) : List ErrorHandling := r.routers.toList.map (·.diversion.handling)

theorem Changed.handled {r' : Routing} {q : Router} (h : r.Changed r' i q) :
    r'.handled = r.handled := by
  unfold Routing.handled
  rw [h.routers, Array.toList_setIfInBounds, List.map_set, h.handling]
  by_cases hi : i < r.routers.size
  · have hlength : i < (r.routers.toList.map (·.diversion.handling)).length := by simpa using hi
    have hget : (r.router i).diversion.handling =
        (r.routers.toList.map (·.diversion.handling))[i] := by
      unfold router
      rw [Array.getElem?_eq_getElem hi]
      simp
    rw [hget, List.set_getElem_self]
  · exact List.set_eq_of_length_le (by simpa using hi)

theorem handled_run (uses : List Use) : (run uses).handled = handlings uses := by
  induction uses using List.reverseRecOn with
  | nil => rfl
  | append_singleton uses u ih =>
    have hstay : ∀ {r' : Routing}, r'.handled = (run uses).handled → u.handling? = none →
        r'.handled = handlings (uses ++ [u]) := by
      intro r' hr' hu
      unfold handlings
      rw [hr', ih, List.filterMap_append, List.filterMap_cons, hu]
      exact (List.append_nil _).symm
    rw [run_concat]
    cases u with
    | add transform handling capacity shared =>
      unfold handled handlings at ih ⊢
      simp only [use, add, Array.toList_push, List.map_append, List.map_singleton,
        List.filterMap_append]
      rw [ih]
      rfl
    | call i e why =>
      refine hstay ?_ rfl
      simp only [use]
      split
      · obtain ⟨q, hchanged, -⟩ := (run uses).changed_call i e why
        exact hchanged.handled
      · rfl
    | send i =>
      obtain ⟨q, hchanged⟩ := (run uses).changed_send i
      exact hstay hchanged.handled rfl
    | drain i =>
      obtain ⟨q, hchanged, -⟩ := (run uses).changed_drain i
      exact hstay hchanged.handled rfl
    | finish i =>
      obtain ⟨q, hchanged, -⟩ := (run uses).changed_finish i
      exact hstay hchanged.handled rfl
    | stop => exact hstay rfl rfl

theorem router_of_handlings {uses : List Use} {h : ErrorHandling} (hi : (handlings uses)[i]? = some h) :
    i < (run uses).routers.size ∧ ((run uses).router i).diversion.handling = h := by
  rw [← handled_run] at hi
  unfold handled at hi
  rw [List.getElem?_map, Array.getElem?_toList] at hi
  obtain ⟨q, hq, rfl⟩ := Option.map_eq_some_iff.mp hi
  refine ⟨(Array.getElem?_eq_some_iff.mp hq).1, ?_⟩
  unfold router
  rw [hq]
  rfl

/-! ### What is accepted -/

theorem Changed.accepted {r' : Routing} {q : Router} (h : r.Changed r' i q) (hi : i < r.routers.size) :
    r'.accepted = Function.update r.accepted i q.rowSet.accepted.toList := by
  funext j
  unfold Routing.accepted
  by_cases hj : i = j
  · subst hj
    rw [h.router_self hi, Function.update_self]
  · rw [h.router_ne hj, Function.update_of_ne (Ne.symm hj)]

theorem Changed.accepted_eq {r' : Routing} {q : Router} (h : r.Changed r' i q)
    (hq : q.rowSet.accepted = (r.router i).rowSet.accepted) : r'.accepted = r.accepted := by
  by_cases hi : i < r.routers.size
  · rw [h.accepted hi, hq]
    exact Function.update_eq_self i r.accepted
  · unfold Routing.accepted router
    rw [h.routers, Array.setIfInBounds_eq_of_size_le (Nat.not_lt.mp hi)]

theorem accepted_call (r : Routing) (i : Nat) (e : Entry) (why : Diagnosis) :
    (r.call i e why).1.accepted = r.accepted := by
  obtain ⟨q, hchanged, hrowSet⟩ := r.changed_call i e why
  exact hchanged.accepted_eq (congrArg RowSet.accepted hrowSet)

/-- The entry `d` is on its way to a row set that has accepted `l`. -/
structure Awaits (r : Routing) (i : Nat) (d : Entry) (l : List Entry) : Prop where
  inside : i < r.routers.size
  sending : (r.router i).sending = some d
  accepted : r.accepted i = l

variable {d : Entry} {l : List Entry}

theorem Changed.awaits {r' : Routing} {j : Nat} {q : Router} (h : r.Changed r' j q)
    (hr : r.Awaits i d l)
    (hq : j = i → q.rowSet.accepted = (r.router j).rowSet.accepted ∧ q.sending = (r.router j).sending) :
    r'.Awaits i d l := by
  have hinside : i < r'.routers.size := by
    rw [h.routers, Array.size_setIfInBounds]
    exact hr.inside
  by_cases hj : j = i
  · subst hj
    obtain ⟨haccepted, hsending⟩ := hq rfl
    refine ⟨hinside, ?_, ?_⟩
    · rw [h.router_self hr.inside, hsending, hr.sending]
    · rw [h.accepted_eq haccepted, hr.accepted]
  · refine ⟨hinside, ?_, ?_⟩
    · rw [h.router_ne hj, hr.sending]
    · rw [← hr.accepted]
      unfold Routing.accepted
      rw [h.router_ne hj]

/-- A row stays on its way as long as its row set is not looked at, since nothing else is diverted at
its place. -/
theorem Awaits.use (hr : r.Awaits i d l) {u : Use} (hu : u ≠ .send i) : (r.use u).Awaits i d l := by
  cases u with
  | add transform handling capacity shared =>
    have hsame : (r.use (.add transform handling capacity shared)).router i = r.router i := by
      simp only [Routing.use, add, router]
      rw [Array.getElem?_push_lt hr.inside, Array.getElem?_eq_getElem hr.inside]
    refine ⟨?_, hsame ▸ hr.sending, ?_⟩
    · simp only [Routing.use, add, Array.size_push]
      exact Nat.lt_succ_of_lt hr.inside
    · rw [← hr.accepted, Routing.accepted, hsame, Routing.accepted]
  | call j e why =>
    simp only [Routing.use]
    split
    · rename_i hidle
      obtain ⟨q, hchanged, -⟩ := r.changed_call j e why
      refine hchanged.awaits hr fun hj => ?_
      rw [hj, hr.sending] at hidle
      cases hidle.2
    · exact hr
  | send j =>
    obtain ⟨q, hchanged⟩ := r.changed_send j
    exact hchanged.awaits hr fun hj => absurd (congrArg Use.send hj) hu
  | drain j =>
    obtain ⟨q, hchanged, hkept⟩ := r.changed_drain j
    exact hchanged.awaits hr fun _ => hkept
  | finish j =>
    obtain ⟨q, hchanged, hkept⟩ := r.changed_finish j
    exact hchanged.awaits hr fun _ => hkept
  | stop => exact ⟨hr.inside, hr.sending, hr.accepted⟩

theorem Awaits.after (hr : r.Awaits i d l) {uses : List Use} (huses : .send i ∉ uses) :
    (r.after uses).Awaits i d l := by
  induction uses generalizing r with
  | nil => exact hr
  | cons u rest ih =>
    obtain ⟨hu, hrest⟩ := not_or.mp (List.mem_cons.not.mp huses)
    exact ih (hr.use (Ne.symm hu)) hrest

theorem awaits_call (hr : r.Coherent) (hi : i < r.routers.size) {e : Entry} {why : Diagnosis}
    (hok : (r.call i e why).2 = .ok ()) :
    (r.call i e why).1.Awaits i
      ⟨(r.router i).diversion.handling.errorLayout e.layout, e.row.append why.values⟩ (r.accepted i) := by
  have haccepted := congrFun (r.accepted_call i e why) i
  have hcalled := r.call_called i e why
  generalize (r.call i e why).1 = r', (r.call i e why).2 = answer at hcalled hok haccepted ⊢
  cases hcalled with
  | refused log refusal => cases hok
  | counted allowed changed counts stopped =>
    refine ⟨?_, ?_, haccepted⟩
    · rw [changed.routers, Array.size_setIfInBounds]
      exact hi
    · rw [changed.router_self hi, Router.sending_holding (hr.router i)]

theorem Awaits.send (hr : r.Awaits i d l) :
    (r.send i).2 = some (.ok ()) ∧ (r.send i).1.accepted = Function.update r.accepted i (l ++ [d]) ∨
      (r.send i).2 ≠ some (.ok ()) ∧ (r.send i).1.accepted = r.accepted := by
  have hsent := r.send_sent i
  generalize (r.send i).1 = r', (r.send i).2 = answer at hsent ⊢
  cases hsent with
  | waits => exact Or.inr ⟨fun h => (by cases h), rfl⟩
  | taken inside sending changed counts =>
    cases hr.sending.symm.trans sending
    refine Or.inl ⟨rfl, ?_⟩
    rw [changed.accepted inside, ← hr.accepted]
    exact congrArg _ Array.toList_push
  | lost inside room changed counts stopped =>
    exact Or.inr ⟨fun h => (by cases h), changed.accepted_eq rfl⟩

/-- What comes of a row that is given to a diversion after some uses, if others come between while it is
on its way. -/
structure Appends (uses : List Use) (i : Nat) (h : ErrorHandling) (e : Entry) (why : Diagnosis)
    (between : List Use) : Prop where
  /-- A row that is counted or refused is in no row set yet. -/
  counting : ((run uses).call i e why).1.accepted = (run uses).accepted
  /-- As long as a row is on its way its row set accepts nothing. -/
  waiting : ((run uses).call i e why).2 = .ok () →
    (((run uses).call i e why).1.after between).accepted i = (run uses).accepted i
  /-- If it is accepted, one entry is added, with the diagnosis and the layout that belongs to it. -/
  accepted : ((run uses).routeDuring i e why (·.after between)).2 = some (.ok ()) →
    ∃ d, e.Diagnosed h why d ∧ ((run uses).routeDuring i e why (·.after between)).1.accepted =
      Function.update (((run uses).call i e why).1.after between).accepted i
        ((run uses).accepted i ++ [d])
  /-- A row that is not counted leaves nothing behind, and nothing comes between. -/
  refused : ∀ obstacle, ((run uses).call i e why).2 = .error obstacle →
    (run uses).routeDuring i e why (·.after between) =
      (((run uses).call i e why).1, some (.error obstacle))
  /-- Nor does a row that is counted, but not accepted. -/
  failed : ((run uses).call i e why).2 = .ok () →
    ((run uses).routeDuring i e why (·.after between)).2 ≠ some (.ok ()) →
    ((run uses).routeDuring i e why (·.after between)).1.accepted =
      (((run uses).call i e why).1.after between).accepted
  /-- The answer is the one of diversions that forget after every use. -/
  answer : ((runForgetting uses).routeDuring i e why (·.afterForgetting between)).2 =
    ((run uses).routeDuring i e why (·.after between)).2
  /-- So is everything else but what is remembered. -/
  state : ((runForgetting uses).routeDuring i e why (·.afterForgetting between)).1.forget =
    ((run uses).routeDuring i e why (·.after between)).1.forget

theorem routeDuring_accepted (hr : r.Coherent) (hi : i < r.routers.size) (e : Entry) (why : Diagnosis)
    {between : List Use} (hbetween : .send i ∉ between) :
    ((r.routeDuring i e why (·.after between)).2 = some (.ok ()) →
      (r.routeDuring i e why (·.after between)).1.accepted =
        Function.update ((r.call i e why).1.after between).accepted i (r.accepted i ++
          [⟨(r.router i).diversion.handling.errorLayout e.layout, e.row.append why.values⟩])) ∧
      ((r.call i e why).2 = .ok () → (r.routeDuring i e why (·.after between)).2 ≠ some (.ok ()) →
        (r.routeDuring i e why (·.after between)).1.accepted =
          ((r.call i e why).1.after between).accepted) := by
  rcases r.routeDuring_cases i e why (·.after between) with ⟨obstacle, hrefused, hroute⟩ |
    ⟨hok, hroute⟩ <;> rw [hroute]
  · refine ⟨fun h => (by cases h), fun h => ?_⟩
    rw [hrefused] at h
    cases h
  rcases ((awaits_call hr hi hok).after hbetween).send with ⟨hanswer, haccepted⟩ | ⟨hanswer, haccepted⟩
  · rw [hanswer]
    exact ⟨fun _ => haccepted, fun _ h => absurd rfl h⟩
  · refine ⟨fun h => absurd ?_ hanswer, fun _ _ => haccepted⟩
    rcases hsend : (((r.call i e why).1.after between).send i).2 with _ | err | ⟨⟩ <;>
      rw [hsend] at h <;> cases h

/-- **What is remembered does not matter.** Whatever was done with the diversions before, and whatever is
done while the row is on its way, a row that is accepted is added with its own layout, the diagnostic
fields and their values, and all is as if nothing were ever remembered. -/
theorem route_appends {uses : List Use} {i : Nat} {h : ErrorHandling}
    (hi : (handlings uses)[i]? = some h) (e : Entry) {why : Diagnosis}
    (hwhy : why.count.toNat < 2 ^ 63) {between : List Use} (hbetween : .send i ∉ between) :
    Appends uses i h e why between := by
  have hr := coherent_run uses
  obtain ⟨hlt, hhandling⟩ := router_of_handlings hi
  obtain ⟨haccepted, hfailed⟩ := routeDuring_accepted hr hlt e why hbetween
  obtain ⟨hanswer, hstate⟩ := routeDuring_forget hr i e why between
  rw [hhandling] at haccepted
  rw [forget_run] at hanswer hstate
  refine ⟨(run uses).accepted_call i e why, fun hok => ?_,
    fun hok => ⟨_, e.diagnosed h hwhy, haccepted hok⟩, fun obstacle hrefused => ?_, hfailed, hanswer,
    hstate⟩
  · exact ((awaits_call hr hlt hok).after hbetween).accepted
  · unfold routeDuring
    rcases hcall : (run uses).call i e why with ⟨r, answer⟩
    rw [hcall] at hrefused
    subst hrefused
    rfl

/-! ### Two layouts in turn -/

namespace Turns

/-- An integer. -/
def number (n : Int64) : Entry := ⟨⟨[⟨"n", .integer, -1, -1⟩]⟩, ⟨[.integer n]⟩⟩

/-- A text. -/
def text (s : String) : Entry := ⟨⟨[⟨"s", .string, -1, -1⟩]⟩, ⟨[.string s]⟩⟩

/-- A diagnosis that names no code. -/
def why : Diagnosis := ⟨0, "bad", some "n", none⟩

/-- One diversion gets an integer and a text, and then its row set is full. -/
def uses : List Use :=
  [.add "a" { target := "r" } 2 false, .call 0 (number 1) why, .send 0, .call 0 (text "x") why, .send 0]

end Turns

/-- Then it gets an integer again, which waits until the rows before it have been taken out. -/
theorem route_appends_turns : (handlings Turns.uses)[0]? = some { target := "r" } ∧
    Turns.why.count.toNat < 2 ^ 63 ∧ Use.send 0 ∉ [Use.drain 0] ∧
    ((run Turns.uses).route 0 (Turns.number 2) Turns.why).2 = none ∧
    ((run Turns.uses).routeDuring 0 (Turns.number 2) Turns.why (·.after [.drain 0])).2 = some (.ok ()) ∧
    ((((run Turns.uses).routeDuring 0 (Turns.number 2) Turns.why (·.after [.drain 0])).1.accepted 0).map
        fun d => (d.layout.names, d.row.values)) =
      [(["n", "nr_errors", "error_description", "error_fields", "error_codes"],
          [.integer 1, .integer 1, .string "bad", .string "n", .null]),
        (["s", "nr_errors", "error_description", "error_fields", "error_codes"],
          [.string "x", .integer 1, .string "bad", .string "n", .null]),
        (["n", "nr_errors", "error_description", "error_fields", "error_codes"],
          [.integer 2, .integer 1, .string "bad", .string "n", .null])] ∧
    Appends Turns.uses 0 { target := "r" } (Turns.number 2) Turns.why [.drain 0] :=
  ⟨rfl, by decide, by simp, by decide +kernel, by decide +kernel, by decide +kernel,
    route_appends rfl _ (by decide) (by simp)⟩

end Routing

end Rowflow
