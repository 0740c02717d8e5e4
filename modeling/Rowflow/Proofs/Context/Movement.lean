import Mathlib.Data.Int.CardIntervalMod
import Mathlib.Data.List.Basic
import Rowflow.Proofs.Context.Deliveries
import Rowflow.Proofs.Context.Exchange

/-!
# The law of data movement

Copying gives a row to all outputs, in order, or to those before the one that refuses it. Dealing out
offers the k-th row that passes the check of the layout to the k-th output, counted cyclically, and to no
other; so what outputs get differs by one row at most as long as no write fails. Main statement:
`data_movement`.
-/

namespace Rowflow

namespace Usage

/-- The rows that writes have given to row sets, with the row sets, in order. -/
def dealtOut (past : List Return) : List (Nat × Entry) :=
  (past.filter (·.op.deals)).flatMap (·.given)

variable {x : Outset}

theorem Operation.targets_copy (hm : x.spec.movement = .copy) (e : Entry) (turn : Nat) :
    (write e).targets x turn = x.wiring.outputs.map (·.2) := by
  simp only [targets, hm]

theorem Operation.targets_distribute (hm : x.spec.movement = .distribute) (e : Entry) (turn : Nat) :
    (write e).targets x turn =
      (x.wiring.outputs.map (·.2))[turn % (x.wiring.outputs.map (·.2)).length]?.toList := by
  simp only [targets, hm, List.getElem?_map, List.length_map]

/-! ### Single writes -/

theorem Ends.misfit {turn : Nat} {a : Return} {e : Entry} (hends : Ends x turn a)
    (hop : a.op.written? = some e) (hmisfit : e.row.size ≠ e.layout.size) :
    a.reply = .error (.layoutMismatch e.row.size e.layout.size) ∧ a.acts = [] := by
  have hno {e' : Entry} (hgives : a.op.Gives e') : False := by
    rcases hgives with ⟨h, hfits⟩ | h
    · cases hop.symm.trans h
      exact hmisfit hfits
    · rw [Operation.written?_eq_none h] at hop
      cases hop
  cases hends with
  | read read => rw [read] at hop; cases hop
  | declined err reply acts why =>
    refine ⟨?_, acts⟩
    rw [reply]
    generalize a.op = op at hop why
    cases why with
    | misfit writes => cases hop.symm.trans writes; rfl
    | unknown fits => cases hop; exact absurd fits hmisfit
    | undiverted diverts =>
      rw [Operation.written?_eq_none diverts] at hop
      cases hop
  | overflows diverts =>
    rw [Operation.written?_eq_none diverts] at hop
    cases hop
  | refused e' err done rest i found gives => exact absurd gives hno
  | taken e' gives => exact absurd gives hno

section Write

variable {turn : Nat} {a : Return} {e : Entry} (hends : Ends x turn a) (hop : a.op = .write e)
include hends hop

/-- A write that passes the check of the layout gives its row to all row sets it is to give it to, or to
those before the one that refuses it, and offers it to no other. -/
theorem Ends.write (hfits : e.row.size = e.layout.size) :
    (∀ act ∈ a.acts, ∃ i ∈ a.op.targets x turn, ∃ found, act = .offered i e found) ∧
      ((∀ err, a.reply ≠ .error err) ∧ a.given = (a.op.targets x turn).map (·, e) ∨
        ∃ err done rest i found, a.reply = .error err ∧ a.op.targets x turn = done ++ i :: rest ∧
          a.given = done.map (·, e) ∧ .offered i e found ∈ a.acts ∧ found ≠ .room) := by
  have hwrites {e' : Entry} (hgives : a.op.Gives e') : e' = e := by
    rw [hop] at hgives
    rcases hgives with ⟨h, -⟩ | h
    · cases h
      rfl
    · cases h
  cases hends with
  | read read => cases hop.symm.trans read
  | declined err reply acts why =>
    rw [hop] at why
    cases why with
    | misfit writes misfit =>
      cases writes
      exact absurd hfits misfit
    | undiverted diverts => cases diverts
  | overflows diverts =>
    rw [hop] at diverts
    cases diverts
  | refused e' err done rest i found gives reply targets given offers last away =>
    obtain rfl := hwrites gives
    exact ⟨offers, Or.inr ⟨err, done, rest, i, found, reply, targets, given, last, away⟩⟩
  | taken e' gives reply given offers =>
    obtain rfl := hwrites gives
    refine ⟨offers, Or.inl ⟨fun err herr => ?_, given⟩⟩
    rcases reply with h | ⟨p, h⟩ <;> cases h.symm.trans herr

theorem Ends.copied (hm : x.spec.movement = .copy) :
    (a.reply = .ok → a.given = (x.wiring.outputs.map (·.2)).map (·, e)) ∧
      ∀ err, a.reply = .error err → e.row.size = e.layout.size →
        ∃ k < (x.wiring.outputs.map (·.2)).length,
          a.given = ((x.wiring.outputs.map (·.2)).take k).map (·, e) := by
  have htargets : a.op.targets x turn = x.wiring.outputs.map (·.2) := by
    rw [hop, Operation.targets_copy hm]
  have hfits (hok : a.reply = .ok) : e.row.size = e.layout.size := by
    by_contra hmisfit
    have := (hends.misfit (by rw [hop]; rfl) hmisfit).1
    cases hok.symm.trans this
  refine ⟨fun hok => ?_, fun err herr hfits => ?_⟩
  · rcases (hends.write hop (hfits hok)).2 with ⟨-, hgiven⟩ | ⟨err, -, -, -, -, herr, -⟩
    · rw [hgiven, htargets]
    · cases hok.symm.trans herr
  · rcases (hends.write hop hfits).2 with ⟨hno, -⟩ |
      ⟨-, done, rest, i, -, -, hsplit, hgiven, -, -⟩
    · exact absurd herr (hno err)
    · rw [htargets] at hsplit
      refine ⟨done.length, by rw [hsplit]; simp, ?_⟩
      rw [hgiven, hsplit, List.take_left]

/-- A row that is dealt out is offered to the output whose turn it is and to no other, and given to it
unless it is refused. -/
theorem Ends.dealt (hm : x.spec.movement = .distribute) (hfits : e.row.size = e.layout.size) :
    let out := (x.wiring.outputs.map (·.2))[turn % (x.wiring.outputs.map (·.2)).length]?
    (∀ i e', (∃ found, .offered i e' found ∈ a.acts) ↔ out = some i ∧ e' = e) ∧
      ((∀ err, a.reply ≠ .error err) → a.given = out.toList.map (·, e)) ∧
      ∀ err, a.reply = .error err → a.given = [] := by
  intro out
  have htargets : a.op.targets x turn = out.toList := by
    rw [hop, Operation.targets_distribute hm]
  obtain ⟨hoffers, hgiven⟩ := hends.write hop hfits
  rw [htargets] at hoffers hgiven
  refine ⟨fun i e' => ⟨fun ⟨found, hmem⟩ => ?_, fun ⟨hout, he⟩ => ?_⟩, fun hno => ?_, fun err herr => ?_⟩
  · obtain ⟨i', hi', found', h⟩ := hoffers _ hmem
    cases h
    exact ⟨Option.mem_toList.mp hi', rfl⟩
  · subst he
    rcases hgiven with ⟨-, hgiven⟩ | ⟨-, done, rest, i', found, -, hsplit, -, hmem, -⟩
    · have hmem : (i, e') ∈ a.given := by rw [hgiven, hout]; simp
      obtain ⟨act, hact, hact'⟩ := List.mem_filterMap.mp hmem
      obtain ⟨j, -, found, rfl⟩ := hoffers act hact
      cases found with
      | room =>
        cases hact'
        exact ⟨.room, hact⟩
      | _ => cases hact'
    · cases hout.symm.trans (eq_some_of_split hsplit).2
      exact ⟨found, hmem⟩
  · rcases hgiven with ⟨-, hgiven⟩ | ⟨err, -, -, -, -, herr, -⟩
    · exact hgiven
    · exact absurd herr (hno err)
  · rcases hgiven with ⟨hno, -⟩ | ⟨-, done, rest, i, -, -, hsplit, hgiven, -, -⟩
    · exact absurd herr (hno err)
    · rw [hgiven, (eq_some_of_split hsplit).1]
      rfl

end Write

theorem Underway.write {targets : List Nat} {call : Call} {stage : Stage} {e : Entry}
    (h : Underway targets call stage) (hsuits : stage.Suits call.op) (hop : call.op = .write e) :
    (∀ act ∈ call.acts, ∃ i ∈ targets, ∃ found, act = .offered i e found) ∧
      ∃ k ≤ targets.length, call.given = (targets.take k).map (·, e) := by
  rw [hop] at hsuits
  cases stage with
  | called =>
    have hnil : call.acts = [] := h
    refine ⟨fun act hact => (by rw [hnil] at hact; cases hact), 0, Nat.zero_le _, ?_⟩
    rw [Call.given, hnil]
    rfl
  | reading => cases hsuits
  | writing d =>
    obtain ⟨⟨done, htargets, hgiven⟩, hoffers⟩ := h
    have he : d.entry = e := by
      rcases hsuits with ⟨hwrites, -⟩ | ⟨hdiverts, -⟩
      · cases hwrites
        rfl
      · cases hdiverts
    rw [he] at hgiven hoffers
    refine ⟨hoffers, done.length, by rw [htargets]; simp, ?_⟩
    rw [hgiven, htargets, List.take_left]

/-! ### Dealing out -/

theorem exists_of_deals {op : Operation} (h : op.deals = true) :
    ∃ e, op = .write e ∧ e.row.size = e.layout.size := by
  cases op with
  | write e => exact ⟨e, rfl, of_decide_eq_true h⟩
  | _ => cases h

/-- If every row has gone to the output whose turn it was, the outputs got them in turn. -/
theorem dealtOut_eq {outs : List Nat} {past : List Return}
    (h : ∀ before a after, past = before ++ a :: after → a.op.deals = true →
      a.given.map (·.1) = outs[before.countP (·.op.deals) % outs.length]?.toList) :
    (dealtOut past).map (·.1) = (List.range (past.countP (·.op.deals))).filterMap
      fun k => outs[k % outs.length]? := by
  induction past using List.reverseRecOn with
  | nil => rfl
  | append_singleton past a ih =>
    obtain ⟨hpast, ha⟩ := forall_split_concat.mp h
    unfold dealtOut at ih ⊢
    by_cases hdeals : a.op.deals = true
    · have hcount : (past ++ [a]).countP (·.op.deals) = past.countP (·.op.deals) + 1 := by
        simp [List.countP_append, hdeals]
      have hone : [a].filter (·.op.deals) = [a] := by simp [hdeals]
      rw [hcount, List.range_succ, List.filterMap_append, ← ih hpast, List.filter_append, hone,
        List.flatMap_append, List.flatMap_singleton, List.map_append, ha hdeals]
      rfl
    · have hcount : (past ++ [a]).countP (·.op.deals) = past.countP (·.op.deals) := by
        simp [List.countP_append, hdeals]
      have hnone : [a].filter (·.op.deals) = [] := by simp [hdeals]
      rw [hcount, List.filter_append, hnone, List.append_nil]
      exact ih hpast

theorem count_in_turn {outs : List Nat} (hnodup : outs.Nodup) {i : Nat} (hi : i ∈ outs) (m : Nat) :
    let times := ((List.range m).filterMap fun k => outs[k % outs.length]?).count i
    m / outs.length ≤ times ∧ times ≤ m / outs.length + 1 := by
  obtain ⟨p, hp, rfl⟩ := List.getElem_of_mem hi
  have hlen : 0 < outs.length := Nat.lt_of_le_of_lt (Nat.zero_le p) hp
  have hturn (k : Nat) : outs[k % outs.length]? = some outs[p] ↔ k ≡ p [MOD outs.length] := by
    rw [← List.getElem?_eq_getElem hp, List.getElem?_inj (Nat.mod_lt k hlen) hnodup, Nat.ModEq,
      Nat.mod_eq_of_lt hp]
  have hcount (m : Nat) : (List.range m).countP (fun k => outs[k % outs.length]? == some outs[p]) =
      Nat.count (· ≡ p [MOD outs.length]) m := by
    induction m with
    | zero => rfl
    | succ m ih =>
      rw [List.range_succ, List.countP_append, ih, Nat.count_succ, List.countP_singleton]
      simp only [beq_iff_eq, hturn]
  intro times
  have htimes : times = Nat.count (· ≡ p [MOD outs.length]) m := List.count_filterMap.trans (hcount m)
  rw [htimes, Nat.count_modEq_card m hlen p]
  split <;> omega

/-! ### Main statement -/

/-- As long as no row that is dealt out is refused, the outputs get the rows in turn, and any two as many,
up to one. -/
theorem Outset.dealt_in_turn (x : Outset) (hm : x.spec.movement = .distribute) (events : List Event)
    (hok : ∀ a ∈ (x.after events).past, a.op.deals = true → a.reply = .ok) :
    let outs := x.wiring.outputs.map (·.2)
    (dealtOut (x.after events).past).map (·.1) =
        (List.range ((x.after events).past.countP (·.op.deals))).filterMap
          (fun k => outs[k % outs.length]?) ∧
      (outs.Nodup → ∀ i ∈ outs, ∀ j ∈ outs, (dealtOut (x.after events).past).countP (·.1 = i) ≤
        (dealtOut (x.after events).past).countP (·.1 = j) + 1) := by
  intro outs
  have hall : (dealtOut (x.after events).past).map (·.1) =
      (List.range ((x.after events).past.countP (·.op.deals))).filterMap
        fun k => outs[k % outs.length]? := by
    refine dealtOut_eq fun before a after hsplit hdeals => ?_
    have hreply := hok a (by rw [hsplit]; simp) hdeals
    obtain ⟨e, hop, hfits⟩ := exists_of_deals hdeals
    obtain ⟨-, hgiven, -⟩ := (x.ends events before a after hsplit).dealt hop hm hfits
    rw [hgiven fun err herr => (by cases hreply.symm.trans herr), List.map_map]
    exact List.map_id _
  refine ⟨hall, fun hnodup i hi j hj => ?_⟩
  have hcount (i : Nat) : (dealtOut (x.after events).past).countP (·.1 = i) =
      ((dealtOut (x.after events).past).map (·.1)).count i := by
    rw [List.count, List.countP_map]
    rfl
  obtain ⟨-, hle⟩ := count_in_turn hnodup hi ((x.after events).past.countP (·.op.deals))
  obtain ⟨hge, -⟩ := count_in_turn hnodup hj ((x.after events).past.countP (·.op.deals))
  rw [hcount, hcount, hall]
  exact hle.trans (Nat.add_le_add_right hge 1)

theorem Outset.declined (x : Outset) (events : List Event) {a : Return}
    (ha : a ∈ (x.after events).past) {e : Entry} (hop : a.op.written? = some e)
    (hmisfit : e.row.size ≠ e.layout.size) :
    a.reply = .error (.layoutMismatch e.row.size e.layout.size) ∧ a.acts = [] ∧
      a.after = a.before := by
  obtain ⟨turn, hends⟩ := x.exists_ends events ha
  obtain ⟨hreply, hacts⟩ := hends.misfit hop hmisfit
  obtain ⟨hcounters, hcollectors, hrotation⟩ :=
    (x.failed events).1 a ha (Or.inl (by rw [hreply]; rfl))
  exact ⟨hreply, hacts, Standing.ext hcounters hcollectors (hrotation hacts)⟩

/-- **The law of data movement.** -/
theorem data_movement (x : Outset) (events : List Event) :
    let u := x.after events
    let outs := x.wiring.outputs.map (·.2)
    -- a copied row is given to every output, in order, or to those before the one that refuses it
    (x.spec.movement = .copy → ∀ e,
      (∀ a ∈ u.past, a.op = .write e → (a.reply = .ok → a.given = outs.map (·, e)) ∧
        ∀ err, a.reply = .error err → e.row.size = e.layout.size →
          ∃ k < outs.length, a.given = (outs.take k).map (·, e)) ∧
      ∀ call stage, u.now = some (call, stage) → call.op = .write e →
        ∃ k ≤ outs.length, call.given = (outs.take k).map (·, e)) ∧
    -- the k-th row that is dealt out is offered to the k-th output in turn and to no other
    (x.spec.movement = .distribute → ∀ e,
      (∀ before a after, u.past = before ++ a :: after → a.op = .write e →
        e.row.size = e.layout.size →
          let out := outs[before.countP (·.op.deals) % outs.length]?
          (∀ i e', (∃ found, .offered i e' found ∈ a.acts) ↔ out = some i ∧ e' = e) ∧
          (a.reply = .ok → a.given = out.toList.map (·, e)) ∧
          ∀ err, a.reply = .error err → a.given = []) ∧
      ∀ call stage, u.now = some (call, stage) → call.op = .write e →
        ∀ i e' found, .offered i e' found ∈ call.acts →
          outs[u.past.countP (·.op.deals) % outs.length]? = some i ∧ e' = e) ∧
    -- so as long as no row is refused the outputs get them in turn, and any two as many, up to one
    (x.spec.movement = .distribute → (∀ a ∈ u.past, a.op.deals = true → a.reply = .ok) →
      (dealtOut u.past).map (·.1) =
        (List.range (u.past.countP (·.op.deals))).filterMap (fun k => outs[k % outs.length]?) ∧
      (outs.Nodup → ∀ i ∈ outs, ∀ j ∈ outs,
        (dealtOut u.past).countP (·.1 = i) ≤ (dealtOut u.past).countP (·.1 = j) + 1)) ∧
    -- a call that fails leaves counters and listeners as they were
    (∀ a ∈ u.past, a.Vain →
      a.after.counters = a.before.counters ∧ a.after.collectors = a.before.collectors) ∧
    -- one that the check of the layout declines touches no row set, and the rotation stays as well
    (∀ a ∈ u.past, ∀ e, a.op.written? = some e → e.row.size ≠ e.layout.size →
      a.reply = .error (.layoutMismatch e.row.size e.layout.size) ∧ a.acts = [] ∧
        a.after = a.before) ∧
    -- what is given is what row sets accept, and all they accept if nobody else gives them rows
    (∀ i, ∃ l, u.shared.accepted i = x.shared.accepted i ++ l ∧ (u.givenTo i).Sublist l ∧
      ((∀ e, .others (.put i e) ∉ events) → l = u.givenTo i)) := by
  intro u outs
  have hunderway := x.underway events
  have hsuits := (x.sound events).suits
  refine ⟨fun hm e => ⟨fun a ha hop => ?_, fun call stage hnow hop => ?_⟩,
    fun hm e => ⟨fun before a after hsplit hop hfits => ?_,
      fun call stage hnow hop i e' found hmem => ?_⟩,
    fun hm hok => x.dealt_in_turn hm events hok, fun a ha hvain => ?_,
    fun a ha e hop hmisfit => x.declined events ha hop hmisfit, x.given events⟩
  · obtain ⟨turn, hends⟩ := x.exists_ends events ha
    exact hends.copied hop hm
  · have hcall := ((hunderway call stage hnow).write (hsuits call stage hnow) hop).2
    rwa [hop, Operation.targets_copy hm] at hcall
  · obtain ⟨hoffers, hgiven, hrefused⟩ := (x.ends events before a after hsplit).dealt hop hm hfits
    exact ⟨hoffers, fun hreply => hgiven fun err herr => (by cases hreply.symm.trans herr), hrefused⟩
  · have hcall := ((hunderway call stage hnow).write (hsuits call stage hnow) hop).1
    rw [hop, Operation.targets_distribute hm] at hcall
    obtain ⟨i', hi', found', h⟩ := hcall _ hmem
    cases h
    exact ⟨Option.mem_toList.mp hi', rfl⟩
  · obtain ⟨hcounters, hcollectors, -⟩ := (x.failed events).1 a ha hvain
    exact ⟨hcounters, hcollectors⟩

-- three rows for two outputs, dealt out and copied
example :
    let e (n : Int64) : Entry := ⟨⟨[⟨"n", .integer, -1, -1⟩]⟩, ⟨[.integer n]⟩⟩
    let x (movement : Movement) : Outset := {
      shared := { pipeline := "p", rowSets := #[RowSet.new 3, RowSet.new 3] }
      spec := { id := "a", type := "dummy", movement }
      copy := 0
      wiring := { outputs := [("b", 0), ("c", 1)] }
      slot := 0 }
    let write (n : Int64) : List Event := [.call (.write (e n)), .step, .step, .step]
    let past (movement : Movement) := ((x movement).after (write 1 ++ write 2 ++ write 3)).past
    (past .distribute).map (fun a => (a.reply, a.given)) =
        [(.ok, [(0, e 1)]), (.ok, [(1, e 2)]), (.ok, [(0, e 3)])] ∧
      (past .copy).map (fun a => (a.reply, a.given)) =
        [(.ok, [(0, e 1), (1, e 1)]), (.ok, [(0, e 2), (1, e 2)]), (.ok, [(0, e 3), (1, e 3)])] := by
  decide +kernel

end Usage

end Rowflow
