import Rowflow.Proofs.Context.Step

/-!
# What a context takes and gives

What is written down for a call tells what the call does to the row sets, and others change them by
deeds as well (`Sound.exchange`). So what a context has taken out of a row set is part of what the row
set has delivered since the start, in the same order, and all of it if nobody else takes (`Outset.taken`);
likewise for what the context has given and the row set has accepted (`Outset.given`).
-/

namespace Rowflow

namespace Usage

/-- What is done to a row set when something is written down. -/
def Act.deed? (wired : List Nat) : Act → Option Deed
  | polled place (.row e) => wired[place]?.map (.took · e)
  | offered i e .room => some (.gave i e)
  | _ => none

/-- What others do to a row set. -/
def Doing.deed? (s : Shared) : Doing → Option Deed
  | put i e => if s.admission i = .room then some (.gave i e) else none
  | take i =>
    match s.front i with
    | .row e => some (.took i e)
    | _ => none
  | finish i => some (.closed i)
  | _ => none

/-- What the calls have done to row sets, in order. -/
def deeds (u : Usage) : List Deed := u.acts.filterMap (Act.deed? u.wired)

/-- The entries that the calls have taken out of a row set, in order. -/
def takenFrom (u : Usage) (i : Nat) : List Entry := u.deeds.flatMap (·.takenFrom i)

/-- The entries that the calls have given to a row set, in order. -/
def givenTo (u : Usage) (i : Nat) : List Entry := u.deeds.flatMap (·.givenTo i)

theorem Doing.rowSets_act (doing : Doing) (s : Shared) :
    (doing.act s).rowSets = Deed.act? s.rowSets (doing.deed? s) := by
  cases doing with
  | put i e =>
    simp only [act, deed?]
    split <;> rfl
  | take i =>
    simp only [act, deed?]
    cases s.front i <;> rfl
  | _ => rfl

theorem Doing.enabled (doing : Doing) (s : Shared) : ∀ d ∈ doing.deed? s, d.Enabled s := by
  intro d hd
  cases doing with
  | put i e =>
    simp only [deed?] at hd
    split at hd
    · cases hd
      assumption
    · cases hd
  | take i =>
    simp only [deed?] at hd
    split at hd
    · cases hd
      assumption
    · cases hd
  | finish i =>
    cases hd
    trivial
  | _ => cases hd

theorem Doing.takenFrom {doing : Doing} {s : Shared} {d : Deed} {i : Nat}
    (hd : doing.deed? s = some d) (htake : doing ≠ .take i) : d.takenFrom i = [] := by
  cases doing with
  | take j =>
    have hj : j ≠ i := fun h => htake (h ▸ rfl)
    simp only [deed?] at hd
    split at hd
    · cases hd
      exact if_neg hj
    · cases hd
  | put j e =>
    simp only [deed?] at hd
    split at hd
    · cases hd
      rfl
    · cases hd
  | finish j =>
    cases hd
    rfl
  | _ => cases hd

theorem Doing.givenTo {doing : Doing} {s : Shared} {d : Deed} {i : Nat}
    (hd : doing.deed? s = some d) (hput : ∀ e, doing ≠ .put i e) : d.givenTo i = [] := by
  cases doing with
  | put j e =>
    have hj : j ≠ i := fun h => hput e (h ▸ rfl)
    simp only [deed?] at hd
    split at hd
    · cases hd
      exact if_neg hj
    · cases hd
  | take j =>
    simp only [deed?] at hd
    split at hd
    · cases hd
      rfl
    · cases hd
  | finish j =>
    cases hd
    rfl
  | _ => cases hd

section Steps

variable {s s' : Shared} {c c' : Context} {live wired : List Nat} {op : Operation} {stage : Stage}
  {act : Option Act} {outcome : Outcome}
  (hwired : ∀ {k place i : Nat}, live[k]? = some place → c.inputs[k]? = some i → wired[place]? = some i)
  (h : Steps s c live op stage act s' c' outcome)
include hwired h

/-- What is written down for a step is what it does to the row sets. -/
theorem Steps.rowSets : s'.rowSets = Deed.act? s.rowSets (act.bind (Act.deed? wired)) := by
  have hoffered (i : Nat) (e : Entry) (found : RowSet.Admission) (away : found ≠ .room) :
      Act.deed? wired (.offered i e found) = none := by
    cases found with
    | room => exact absurd rfl away
    | _ => rfl
  cases h with
  | declines _ _ _ quiet => exact quiet.rowSets
  | begins _ _ _ quiet => exact quiet.rowSets
  | row _ _ _ _ _ _ here input _ told =>
    rw [(tell_frame told).1, Option.bind_some, Act.deed?, hwired here input]
    rfl
  | broken _ _ _ _ _ _ _ here input _ told =>
    rw [(tell_frame told).1, Option.bind_some, Act.deed?, hwired here input]
    rfl
  | refused _ _ _ _ _ _ away =>
    rw [Option.bind_some, hoffered _ _ _ away]
    rfl
  | last _ _ _ _ _ _ _ settles => exact settles.frame.1
  | nowhere _ _ _ _ _ settles => exact settles.frame.1
  | _ => rfl

theorem Steps.enabled : ∀ d ∈ act.bind (Act.deed? wired), d.Enabled s := by
  intro d hd
  cases h with
  | row _ _ _ _ _ _ here input found =>
    rw [Option.bind_some, Act.deed?, hwired here input] at hd
    cases hd
    exact found
  | broken _ _ _ _ _ _ _ here input found =>
    rw [Option.bind_some, Act.deed?, hwired here input] at hd
    cases hd
    exact found
  | refused d' i rest err found pending away =>
    cases found with
    | room => exact absurd rfl away
    | _ => cases hd
  | partly _ _ _ _ _ found =>
    cases hd
    exact found
  | last _ _ _ _ _ _ found =>
    cases hd
    exact found
  | _ => cases hd

end Steps

variable {x : Outset} {u : Usage}

theorem deeds_proceed {call : Call} {stage : Stage} {act : Option Act} {s' : Shared} {c' : Context}
    {outcome : Outcome} (h : u.now = some (call, stage)) :
    (u.proceed call act s' c' outcome).deeds = u.deeds ++ (act.bind (Act.deed? u.wired)).toList := by
  unfold deeds
  rw [acts_proceed h, wired_proceed, filterMap_concat]

/-- What an event does to the row sets is done by a call, which writes it down, or by others. -/
theorem Sound.exchange (h : Sound x u) {event : Event} {u' : Usage} (hmove : u.Moves event u') :
    ∃ d : Option Deed, u'.shared.rowSets = Deed.act? u.shared.rowSets d ∧
      (∀ y ∈ d, y.Enabled u.shared) ∧
      (u'.deeds = u.deeds ++ d.toList ∨
        ∃ doing, event = .others doing ∧ d = doing.deed? u.shared ∧ u'.deeds = u.deeds) := by
  cases hmove with
  | idle => exact ⟨none, rfl, fun _ hy => (by cases hy), Or.inl (List.append_nil _).symm⟩
  | others doing =>
    exact ⟨doing.deed? u.shared, doing.rowSets_act _, doing.enabled _, Or.inr ⟨doing, rfl, rfl, rfl⟩⟩
  | forgets => exact ⟨none, rfl, fun _ hy => (by cases hy), Or.inl (List.append_nil _).symm⟩
  | calls op free =>
    refine ⟨none, rfl, fun _ hy => (by cases hy), Or.inl ?_⟩
    simp [deeds, acts, calls, free]
  | steps call stage act s' c' outcome busy step =>
    refine ⟨_, ?_, step.enabled h.input, Or.inl (deeds_proceed busy)⟩
    rw [shared_proceed]
    exact step.rowSets h.input

theorem Sound.front_done (h : Sound x u) {event : Event} {u' : Usage} (hmove : u.Moves event u')
    {i : Nat} (hi : u.shared.front i = .done) : u'.shared.front i = .done := by
  obtain ⟨d, hact, henabled, -⟩ := h.exchange hmove
  exact Shared.front_done_act hact i henabled hi

/-- Of what is done to row sets, what the calls do is a part, and all if others do nothing of it. -/
theorem Sound.share (h : Sound x u) {event : Event} {u' : Usage} (hmove : u.Moves event u')
    (part : Deed → List Entry) :
    ∃ d : Option Deed, u'.shared.rowSets = Deed.act? u.shared.rowSets d ∧
      (∀ y ∈ d, y.Enabled u.shared) ∧
      (∀ l, (u.deeds.flatMap part).Sublist l →
        (u'.deeds.flatMap part).Sublist (l ++ (d.map part).getD [])) ∧
      ((∀ doing, event = .others doing → ∀ y, doing.deed? u.shared = some y → part y = []) →
        u'.deeds.flatMap part = u.deeds.flatMap part ++ (d.map part).getD []) := by
  obtain ⟨d, hact, henabled, hdeeds⟩ := h.exchange hmove
  refine ⟨d, hact, henabled, ?_⟩
  rcases hdeeds with hd | ⟨doing, rfl, rfl, hd⟩ <;> rw [hd]
  · have hown : (u.deeds ++ d.toList).flatMap part =
        u.deeds.flatMap part ++ (d.map part).getD [] := by
      rw [List.flatMap_append]
      cases d <;> simp
    rw [hown]
    exact ⟨fun l hl => hl.append_right _, fun _ => rfl⟩
  · refine ⟨fun l hl => hl.trans (List.sublist_append_left _ _), fun hnone => ?_⟩
    rcases hy : doing.deed? u.shared with _ | y
    · exact (List.append_nil _).symm
    · rw [Option.map_some, Option.getD_some, hnone doing rfl y hy, List.append_nil]

/-- **What is taken.** What the calls have taken out of a row set is part of what the row set has
delivered since the start, in the same order, and all of it if nobody else takes. -/
theorem Outset.taken (x : Outset) (events : List Event) (i : Nat) :
    ∃ l, ((x.after events).shared.accepted i).take ((x.after events).shared.delivered i) =
        (x.shared.accepted i).take (x.shared.delivered i) ++ l ∧
      ((x.after events).takenFrom i).Sublist l ∧
      (.others (.take i) ∉ events → l = (x.after events).takenFrom i) := by
  refine x.induction (P := fun events u => ∃ l, (u.shared.accepted i).take (u.shared.delivered i) =
    (x.shared.accepted i).take (x.shared.delivered i) ++ l ∧ (u.takenFrom i).Sublist l ∧
    (.others (.take i) ∉ events → l = u.takenFrom i)) ?_ (fun events u event u' _ hsound hmove ih => ?_)
    events
  · exact ⟨[], (List.append_nil _).symm, List.nil_sublist _, fun _ => rfl⟩
  · obtain ⟨l, hl, hsub, heq⟩ := ih
    obtain ⟨d, hact, henabled, hpart, hall⟩ := hsound.share hmove (·.takenFrom i)
    refine ⟨_, Shared.log_act _ hact henabled hl rfl, hpart l hsub, fun htake => ?_⟩
    rw [List.mem_append, not_or, List.mem_singleton] at htake
    rw [heq htake.1]
    exact (hall fun doing hdoing y hy =>
      Doing.takenFrom hy fun h => htake.2 (by rw [hdoing, h])).symm

/-- **What is given.** What the calls have given to a row set is part of what the row set has accepted
since the start, in the same order, and all of it if nobody else gives. -/
theorem Outset.given (x : Outset) (events : List Event) (i : Nat) :
    ∃ l, (x.after events).shared.accepted i = x.shared.accepted i ++ l ∧
      ((x.after events).givenTo i).Sublist l ∧
      ((∀ e, .others (.put i e) ∉ events) → l = (x.after events).givenTo i) := by
  refine x.induction (P := fun events u => ∃ l, u.shared.accepted i = x.shared.accepted i ++ l ∧
    (u.givenTo i).Sublist l ∧ ((∀ e, .others (.put i e) ∉ events) → l = u.givenTo i)) ?_
    (fun events u event u' _ hsound hmove ih => ?_) events
  · exact ⟨[], (List.append_nil _).symm, List.nil_sublist _, fun _ => rfl⟩
  · obtain ⟨l, hl, hsub, heq⟩ := ih
    obtain ⟨d, hact, henabled, hpart, hall⟩ := hsound.share hmove (·.givenTo i)
    refine ⟨l ++ (d.map (·.givenTo i)).getD [], ?_, hpart l hsub, fun hput => ?_⟩
    · rw [Shared.accepted_act hact i henabled, hl, List.append_assoc]
    · rw [heq fun e he => hput e (List.mem_append_left _ he)]
      exact (hall fun doing hdoing y hy =>
        Doing.givenTo hy fun e h => hput e (by rw [hdoing, h]; simp)).symm

theorem givenTo_eq (u : Usage) (i : Nat) : u.givenTo i =
    u.calls.flatMap fun call => (call.given.filter (·.1 = i)).map (·.2) := by
  have hact (act : Act) : (act.deed? u.wired).toList.flatMap (Deed.givenTo i) =
      (act.given?.toList.filter (·.1 = i)).map (·.2) := by
    rcases act with ⟨place, found⟩ | ⟨j, e, found⟩
    · cases found with
      | row e => cases hi : u.wired[place]? <;> simp [Act.deed?, Act.given?, hi, Deed.givenTo]
      | _ => rfl
    · cases found with
      | room => by_cases hj : j = i <;> simp [Act.deed?, Act.given?, Deed.givenTo, hj]
      | _ => rfl
  have hacts (acts : List Act) : (acts.filterMap (Act.deed? u.wired)).flatMap (Deed.givenTo i) =
      ((acts.filterMap Act.given?).filter (·.1 = i)).map (·.2) := by
    induction acts using List.reverseRecOn with
    | nil => rfl
    | append_singleton acts act ih =>
      have hdeeds := filterMap_concat (Act.deed? u.wired) acts (some act)
      have hgiven := filterMap_concat Act.given? acts (some act)
      rw [Option.toList_some, Option.bind_some] at hdeeds hgiven
      rw [hdeeds, hgiven, List.flatMap_append, List.filter_append, List.map_append, hact, ih]
  unfold givenTo deeds acts
  rw [List.filterMap_flatMap, List.flatMap_assoc]
  exact List.flatMap_congr fun call _ => hacts call.acts

end Usage

end Rowflow
