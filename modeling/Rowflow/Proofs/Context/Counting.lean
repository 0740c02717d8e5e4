import Mathlib.Data.List.Flatten
import Rowflow.Proofs.Context.Deliveries
import Rowflow.Proofs.Context.EndOfInput

/-!
# Counters and listeners

A context counts the rows that its reads hand out, the rows that it writes with success and those that it
gives to the row set for failing rows, and tells its listeners of the same rows in the same order
(`told`). Main statement: `counters_and_listeners`, for listeners that do not break down.
-/

namespace Rowflow

namespace Usage

/-- The rows of which listeners are told after some calls: those that were read, those that were written
with success and those that were put into the row set for failing rows. -/
def told (past : List Return) : RowEvent → List Entry
  | .read => past.filterMap (·.reply.row?)
  | .written => past.filterMap fun a => if a.reply = .ok then a.op.written? else none
  | .diverted => (past.filter (·.op.diverts)).flatMap fun a => a.given.map (·.2)

/-- How many listeners keep rows in a collector. -/
def keepers (ls : List Listener) (k : Nat) : Nat := ls.countP (·.collector = k)

/-- The rows of a kind in a collector. -/
def logOf (cs : Array Collector) (k : Nat) (kind : RowEvent) : Option (List Entry) :=
  cs[k]?.map fun c => (c.rows kind).toList

/-- The number of rows of a kind. -/
def countOf (c : Counters) : RowEvent → UInt64
  | .read => c.read
  | .written => c.written
  | .diverted => c.rejected

theorem told_concat (past : List Return) (a : Return) (kind : RowEvent) :
    told (past ++ [a]) kind = told past kind ++ told [a] kind := by
  cases kind with
  | read => exact List.filterMap_append
  | written => exact List.filterMap_append
  | diverted => simp only [told, List.filter_append, List.flatMap_append]

variable {x : Outset} {u u' : Usage} {event : Event}

/-! ### Telling -/

theorem rows_record (c : Collector) (kind kind' : RowEvent) (e : Entry) :
    ((c.record kind e).rows kind').toList =
      (c.rows kind').toList ++ if kind' = kind then [e] else [] := by
  cases kind <;> cases kind' <;> simp [Collector.record, Collector.rows]

theorem tell_rows {ls : List Listener} {kind : RowEvent} {e : Entry}
    (hls : ∀ l ∈ ls, l.fails kind e = none) (cs : Array Collector) :
    (tell ls kind e cs).2 = none ∧ ∀ k kind', logOf (tell ls kind e cs).1 k kind' =
      (logOf cs k kind').map
        (· ++ if kind' = kind then List.replicate (keepers ls k) e else []) := by
  induction ls generalizing cs with
  | nil =>
    refine ⟨rfl, fun k kind' => ?_⟩
    simp [tell, keepers]
  | cons l rest ih =>
    have hl := hls l List.mem_cons_self
    obtain ⟨hnone, hrows⟩ := ih (fun l' hl' => hls l' (List.mem_cons_of_mem l hl'))
      (cs.modify l.collector (·.record kind e))
    unfold tell
    simp only [hl]
    refine ⟨hnone, fun k kind' => ?_⟩
    rw [hrows]
    unfold logOf
    rw [Array.getElem?_modify]
    by_cases hk : l.collector = k
    · have hkeepers : keepers (l :: rest) k = keepers rest k + 1 := by simp [keepers, hk]
      rw [if_pos hk, hkeepers]
      cases cs[k]? with
      | none => rfl
      | some c =>
        simp only [Option.map_some, rows_record]
        by_cases hkind : kind' = kind <;> simp [hkind, List.replicate_succ]
    · have hkeepers : keepers (l :: rest) k = keepers rest k := by simp [keepers, hk]
      rw [if_neg hk, hkeepers]

/-- A row is counted, and listeners are told of it. -/
structure Tells (s : Shared) (c : Context) (kind : RowEvent) (e : Entry) (s' : Shared) (c' : Context) :
    Prop where
  counters : ∀ kind', countOf c'.counters kind' =
    countOf c.counters kind' + if kind' = kind then 1 else 0
  logs : ∀ k kind', logOf s'.collectors k kind' = (logOf s.collectors k kind').map
    (· ++ if kind' = kind then List.replicate (keepers c.listeners k) e else [])

/-- How a call has success, the kind of its row and the row. -/
inductive Success (op : Operation) (stage : Stage) (act : Option Act) :
    Reply → RowEvent → Entry → Prop where
  | read (e : Entry) (read : op = .read) : Success op stage act (.row e) .read e
  | written (e : Entry) (writes : op.written? = some e) : Success op stage act .ok .written e
  | diverted (d : Context.Delivery) (i : Nat) (diverts : op.diverts = true)
      (stage_eq : stage = .writing d) (pending : d.pending = [i])
      (act_eq : act = some (.offered i d.entry .room)) : Success op stage act .ok .diverted d.entry

section Sound

variable {s s' : Shared} {c c' : Context} (hls : ∀ l ∈ c.listeners, ∀ kind e, l.fails kind e = none)
include hls

theorem tell_eq (s : Shared) (kind : RowEvent) (e : Entry) :
    ∃ s', s.tell c.listeners kind e = (s', none) ∧ ∀ k kind', logOf s'.collectors k kind' =
      (logOf s.collectors k kind').map
        (· ++ if kind' = kind then List.replicate (keepers c.listeners k) e else []) := by
  obtain ⟨hnone, hlogs⟩ := tell_rows (fun l hl => hls l hl kind e) s.collectors
  exact ⟨_, Prod.ext rfl hnone, hlogs⟩

theorem settle_tells {d : Context.Delivery} {reply : Reply} (h : Settles s c d s' c' reply) :
    reply = .ok ∧ ((d.purpose = .output ∧ Tells s c .written d.entry s' c') ∨
      ((∃ why, d.purpose = .error why) ∧ Tells s c .diverted d.entry s' c')) := by
  have hzero (n : UInt64) : n = n + 0 := (UInt64.add_zero n).symm
  unfold Settles Context.settle at h
  rcases hp : d.purpose with _ | why <;> simp only [hp] at h
  · obtain ⟨s₁, htell, hlogs⟩ := tell_eq hls s .written d.entry
    simp only [htell] at h
    rcases h with ⟨h, rfl⟩ | ⟨p, h, -⟩
    · cases h
      refine ⟨rfl, Or.inl ⟨rfl, fun kind' => ?_, hlogs⟩⟩
      cases kind' with
      | written => rfl
      | _ => exact hzero _
    · cases h
  · obtain ⟨s₁, htell, hlogs⟩ := tell_eq hls s .diverted d.entry
    simp only [htell] at h
    have hcounters (errors : UInt64) (kind' : RowEvent) :
        countOf { c.counters with errors, rejected := c.counters.rejected + 1 } kind' =
          countOf c.counters kind' + if kind' = .diverted then 1 else 0 := by
      cases kind' with
      | diverted => rfl
      | _ => exact hzero _
    rcases hroute : c.errors with _ | route <;> simp only [hroute] at h <;>
      rcases h with ⟨h, rfl⟩ | ⟨p, h, -⟩ <;> cases h
    · exact ⟨rfl, Or.inr ⟨⟨why, rfl⟩, hcounters _, hlogs⟩⟩
    · exact ⟨rfl, Or.inr ⟨⟨why, rfl⟩, hcounters _, hlogs⟩⟩

/-- A call that comes back comes to nothing, or a row is counted and listeners are told of it. -/
theorem Steps.tells {live : List Nat} {op : Operation} {stage : Stage} {act : Option Act}
    {reply : Reply} (h : Steps s c live op stage act s' c' (.returns reply))
    (hsuits : stage.Suits op) :
    (reply.fruitless = true ∨ stage = .called ∧ act = none ∧ op.diverts = true ∧
        reply = .broken .overflow) ∨
      ∃ kind e, Success op stage act reply kind e ∧ Tells s c kind e s' c' := by
  cases h with
  | declines => exact Or.inl (Or.inl rfl)
  | fails _ _ _ diverts => exact Or.inl (Or.inr ⟨rfl, rfl, diverts, rfl⟩)
  | dries => exact Or.inl (Or.inl rfl)
  | refused => exact Or.inl (Or.inl rfl)
  | row _ _ _ i e _ _ _ _ told =>
    obtain ⟨s₁, htell, hlogs⟩ := tell_eq hls (s.advance i) .read e
    rw [told] at htell
    cases htell
    refine Or.inr ⟨.read, e, .read e hsuits, fun kind' => ?_, hlogs⟩
    cases kind' with
    | read => rfl
    | _ => exact (UInt64.add_zero _).symm
  | broken _ _ _ i e _ _ _ _ _ told =>
    obtain ⟨s₁, htell, -⟩ := tell_eq hls (s.advance i) .read e
    rw [told] at htell
    cases htell
  | last d i _ _ _ pending _ settles =>
    obtain ⟨rfl, ⟨hp, htells⟩ | ⟨⟨why, hp⟩, htells⟩⟩ := settle_tells hls settles
    · rcases hsuits with ⟨hwrites, -⟩ | ⟨-, ⟨why, hp'⟩, -⟩
      · exact Or.inr ⟨.written, d.entry, .written d.entry hwrites, htells.counters, htells.logs⟩
      · cases hp.symm.trans hp'
    · rcases hsuits with ⟨-, -, hp'⟩ | ⟨hdiverts, -⟩
      · cases hp.symm.trans hp'
      · exact Or.inr ⟨.diverted, d.entry, .diverted d i hdiverts rfl pending rfl, htells.counters,
          htells.logs⟩
  | nowhere d _ _ _ pending settles =>
    obtain ⟨rfl, ⟨hp, htells⟩ | ⟨⟨why, hp⟩, htells⟩⟩ := settle_tells hls settles
    · rcases hsuits with ⟨hwrites, -⟩ | ⟨-, ⟨why, hp'⟩, -⟩
      · exact Or.inr ⟨.written, d.entry, .written d.entry hwrites, htells⟩
      · cases hp.symm.trans hp'
    · rcases hsuits with ⟨-, -, hp'⟩ | ⟨-, -, hne⟩
      · cases hp.symm.trans hp'
      · exact absurd pending hne

end Sound

/-! ### What listeners are told of -/

theorem Ends.given_of_vain {turn : Nat} {a : Return} (h : Ends x turn a) (hop : a.op.diverts = true)
    (hvain : a.Vain) : a.given = [] := by
  cases h with
  | read read =>
    rw [read] at hop
    cases hop
  | declined _ _ acts => rw [Call.given, acts]; rfl
  | overflows _ _ acts => rw [Call.given, acts]; rfl
  | refused e err done rest i found gives reply targets given =>
    rw [Operation.targets_diverts hop] at targets
    rw [given, (eq_some_of_split targets).1]
    rfl
  | taken e gives reply =>
    rcases hvain with hvain | ⟨-, -, acts⟩
    · rcases reply with h | ⟨p, h⟩ <;> rw [h] at hvain <;> cases hvain
    · rw [Call.given, acts]
      rfl

theorem Ends.told_eq_nil {turn : Nat} {a : Return} (h : Ends x turn a) (hvain : a.Vain)
    (kind : RowEvent) : told [a] kind = [] := by
  cases kind with
  | read =>
    rcases hvain with hvain | ⟨-, hreply, -⟩
    · rcases hr : a.reply <;> rw [hr] at hvain <;> simp [told, Reply.row?, hr, Reply.fruitless] at hvain ⊢
    · simp [told, Reply.row?, hreply]
  | written =>
    have hne : a.reply ≠ .ok := by
      intro hok
      rcases hvain with hvain | ⟨-, hreply, -⟩
      · rw [hok] at hvain
        cases hvain
      · cases hok.symm.trans hreply
    simp [told, hne]
  | diverted =>
    by_cases hop : a.op.diverts = true
    · simp [told, hop, h.given_of_vain hop hvain]
    · simp [told, hop]

theorem Success.told {call : Call} {stage : Stage} {act : Option Act} {reply : Reply}
    {kind : RowEvent} {e : Entry} (h : Success call.op stage act reply kind e) {turn : Nat}
    (hunderway : Underway (call.op.targets x turn) call stage) (after : Standing) (stopped : Bool)
    (kind' : RowEvent) :
    told [⟨{ call with acts := call.acts ++ act.toList }, reply, after, stopped⟩] kind' =
      if kind' = kind then [e] else [] := by
  have hwrites (hop : call.op.written? = some e) : call.op.diverts = false := by
    by_contra hdiverts
    rw [Operation.written?_eq_none (Bool.not_eq_false _ ▸ hdiverts)] at hop
    cases hop
  cases h with
  | read e read => cases kind' <;> simp [Usage.told, Reply.row?, read, Operation.diverts]
  | written e writes => cases kind' <;> simp [Usage.told, Reply.row?, writes, hwrites writes]
  | diverted d i diverts stage_eq pending act_eq =>
    subst stage_eq act_eq
    obtain ⟨⟨done, hsplit, hgiven⟩, -⟩ := hunderway
    rw [Operation.targets_diverts diverts, pending] at hsplit
    rw [(eq_some_of_split hsplit).1] at hgiven
    have hall : ({ call with acts := call.acts ++ [.offered i d.entry .room] } : Call).given =
        [(i, d.entry)] := by
      have := call.given_concat (some (.offered i d.entry .room))
      rwa [hgiven] at this
    cases kind' with
    | read => simp [Usage.told, Reply.row?]
    | written => simp [Usage.told, Operation.written?_eq_none diverts]
    | diverted =>
      simp [Usage.told, diverts, hall]

/-- What counters and listeners know of the calls that have come back. -/
structure Tallied (x : Outset) (u : Usage) : Prop where
  counters : ∀ kind, countOf u.context.counters kind = .ofNat (told u.past kind).length
  logs : ∀ k kind, logOf u.shared.collectors k kind = (logOf x.shared.collectors k kind).map
    (· ++ (told u.past kind).flatMap (List.replicate (keepers x.listeners k)))
  /-- A call comes to nothing, or listeners have been told of one row. -/
  each : ∀ a ∈ u.past, a.Vain ∨ (∀ p, a.reply ≠ .broken p) ∧
    ∃ kind e, ∀ kind', told [a] kind' = if kind' = kind then [e] else []

/-- As long as no listener breaks down, counters and listeners know of all calls that have come back. -/
theorem Outset.tallied (x : Outset)
    (hls : ∀ l ∈ x.listeners, ∀ kind e, l.fails kind e = none) (events : List Event) :
    Tallied x (x.after events) := by
  refine x.induction (P := fun _ u => Tallied x u) ⟨fun kind => ?_, fun k kind => ?_,
    fun a ha => by cases ha⟩ (fun events u event u' hafter hsound hmove ih => ?_) events
  · cases kind <;> rfl
  · cases kind <;> simp [told, Outset.usage]
  · cases hmove with
    | idle => exact ih
    | others doing =>
      exact ⟨ih.counters, fun k kind => by rw [doing.collectors]; exact ih.logs k kind, ih.each⟩
    | forgets => exact ⟨ih.counters, ih.logs, ih.each⟩
    | calls => exact ⟨ih.counters, ih.logs, ih.each⟩
    | steps call stage act s' c' outcome busy step =>
      cases outcome with
      | goesOn stage' =>
        obtain ⟨h1, h2, -⟩ := step.standing (Or.inl rfl)
        refine ⟨fun kind => ?_, fun k kind => ?_, ih.each⟩
        · rw [context_proceed, h1]
          exact ih.counters kind
        · rw [shared_proceed, h2]
          exact ih.logs k kind
      | returns reply =>
        have hunderway := x.underway events call stage (hafter ▸ busy)
        rw [← hafter] at hunderway
        have hsuits := hsound.suits call stage busy
        rcases step.tells (hsound.listeners ▸ hls) hsuits with hfails | ⟨kind', e, hsuccess, htells⟩
        · obtain ⟨h1, h2, -⟩ := step.standing (hfails.imp_right (·.1))
          have hends := step.ends hunderway hsuits rfl hsound.outputs
            ⟨c'.counters, s'.collectors, c'.nextOutput⟩ s'.stopped
          have hvain : Return.Vain ⟨{ call with acts := call.acts ++ act.toList }, reply,
              ⟨c'.counters, s'.collectors, c'.nextOutput⟩, s'.stopped⟩ := by
            refine hfails.imp_right ?_
            rintro ⟨rfl, rfl, hdiverts, rfl⟩
            have hnil : call.acts = [] := hunderway
            exact ⟨hdiverts, rfl, by simp [hnil]⟩
          refine ⟨fun kind => ?_, fun k kind => ?_, fun a ha => ?_⟩
          · rw [context_proceed, h1, proceed, told_concat, hends.told_eq_nil hvain, List.append_nil]
            exact ih.counters kind
          · rw [shared_proceed, h2, proceed, told_concat, hends.told_eq_nil hvain, List.append_nil]
            exact ih.logs k kind
          · rcases List.mem_append.mp ha with ha | ha
            · exact ih.each a ha
            · cases List.mem_singleton.mp ha
              exact Or.inl hvain
        · have htold := hsuccess.told hunderway ⟨c'.counters, s'.collectors, c'.nextOutput⟩ s'.stopped
          refine ⟨fun kind => ?_, fun k kind => ?_, fun a ha => ?_⟩
          · rw [context_proceed, htells.counters, ih.counters, proceed, told_concat, htold,
              List.length_append, UInt64.ofNat_add]
            split <;> rfl
          · rw [shared_proceed, htells.logs, ih.logs, proceed, told_concat, htold,
              List.flatMap_append, hsound.listeners, Option.map_map]
            congr 1
            funext log
            by_cases hkind : kind = kind' <;> simp [hkind]
          · rcases List.mem_append.mp ha with ha | ha
            · exact ih.each a ha
            · cases List.mem_singleton.mp ha
              exact Or.inr ⟨fun p hp => (by cases hsuccess <;> cases hp), kind', e, htold⟩

theorem Ends.diversion {turn : Nat} {a : Return} (h : Ends x turn a) (hop : a.op.diverts = true)
    (hend : a.Vain ∨ (∀ p, a.reply ≠ .broken p) ∧
      ∃ kind e, ∀ kind', told [a] kind' = if kind' = kind then [e] else []) :
    (a.reply = .ok ∧ ∃ i e, x.route = some i ∧ a.given = [(i, e)]) ∨
      ((∃ err, a.reply = .error err) ∨ a.reply = .broken .overflow) ∧ a.given = [] := by
  have hfailed : a.Vain → a.given = [] := h.given_of_vain hop
  have herror {err : TransformError} (hreply : a.reply = .error err) : a.Vain :=
    Or.inl (by rw [hreply]; rfl)
  cases h with
  | read read =>
    rw [read] at hop
    cases hop
  | declined err reply => exact Or.inr ⟨Or.inl ⟨err, reply⟩, hfailed (herror reply)⟩
  | overflows _ reply acts => exact Or.inr ⟨Or.inr reply, hfailed (Or.inr ⟨hop, reply, acts⟩)⟩
  | refused e err done rest i found gives reply =>
    exact Or.inr ⟨Or.inl ⟨err, reply⟩, hfailed (herror reply)⟩
  | taken e gives reply given =>
    rw [Operation.targets_diverts hop] at given
    rcases hend with hvain | ⟨hbroken, kind, e', htold⟩
    · have hbroken : a.reply = .broken .overflow := by
        rcases hvain with hvain | ⟨-, hreply, -⟩
        · rcases reply with h | ⟨p, h⟩ <;> rw [h] at hvain <;> cases hvain
        · exact hreply
      exact Or.inr ⟨Or.inr hbroken, hfailed hvain⟩
    · have hok : a.reply = .ok := reply.resolve_right fun h => h.elim hbroken
      refine Or.inl ⟨hok, ?_⟩
      rcases hroute : x.route with _ | i
      · rw [hroute] at given
        have hkind := htold kind
        cases kind <;>
          simp [told, hok, hop, given, Reply.row?, Operation.written?_eq_none hop] at hkind
      · rw [hroute] at given
        exact ⟨i, e, rfl, given⟩

/-- The entries of diversions go into the row set for failing rows, in order. -/
theorem diverted_sublist {i : Nat} (hroute : x.route = some i)
    (hdiversions : ∀ a ∈ u.past, a.op.diverts = true →
      (a.reply = .ok ∧ ∃ i e, x.route = some i ∧ a.given = [(i, e)]) ∨
        ((∃ err, a.reply = .error err) ∨ a.reply = .broken .overflow) ∧ a.given = []) :
    (told u.past .diverted).Sublist (u.givenTo i) := by
  have hthere (a : Return) (ha : a ∈ u.past.filter (·.op.diverts)) :
      a.given.map (·.2) = (a.given.filter (·.1 = i)).map (·.2) := by
    obtain ⟨hmem, hop⟩ := List.mem_filter.mp ha
    rcases hdiversions a hmem hop with ⟨-, j, e, hj, hgiven⟩ | ⟨-, hgiven⟩
    · cases hroute.symm.trans hj
      simp [hgiven]
    · simp [hgiven]
  rw [givenTo_eq]
  unfold calls
  rw [List.flatMap_append, List.flatMap_map, told, List.flatMap_congr hthere]
  exact (List.filter_sublist.flatMap _).trans (List.sublist_append_left _ _)

/-- **Counters and listeners agree with what happened.** -/
theorem counters_and_listeners (x : Outset)
    (sound : ∀ l ∈ x.listeners, ∀ kind e, l.fails kind e = none) (events : List Event) :
    let u := x.after events
    -- the counters are the numbers of rows that were read, written and diverted with success
    u.context.counters.read = .ofNat (told u.past .read).length ∧
    u.context.counters.written = .ofNat (told u.past .written).length ∧
    u.context.counters.rejected = .ofNat (told u.past .diverted).length ∧
    -- the collectors hold these rows, each as often as listeners keep it there
    (∀ k kind, logOf u.shared.collectors k kind = (logOf x.shared.collectors k kind).map
      (· ++ (told u.past kind).flatMap (List.replicate (keepers x.listeners k)))) ∧
    -- a listener with a collector of its own keeps just these rows
    (∀ l ∈ x.listeners, keepers x.listeners l.collector = 1 → ∀ kind,
      logOf u.shared.collectors l.collector kind =
        (logOf x.shared.collectors l.collector kind).map (· ++ told u.past kind)) ∧
    -- a diversion puts its entry into the row set for failing rows, or it fails, or the count of errors
    -- breaks down
    (∀ a ∈ u.past, a.op.diverts = true →
      (a.reply = .ok ∧ ∃ i e, x.route = some i ∧ a.given = [(i, e)]) ∨
        ((∃ err, a.reply = .error err) ∨ a.reply = .broken .overflow) ∧ a.given = []) ∧
    (∀ i, x.route = some i → ∃ l, u.shared.accepted i = x.shared.accepted i ++ l ∧
      (told u.past .diverted).Sublist l) ∧
    -- a call without success leaves counters and collectors as they were
    (∀ a ∈ u.past, a.reply.fruitless = true ∨ a.reply = .broken .overflow →
      a.after.counters = a.before.counters ∧ a.after.collectors = a.before.collectors) := by
  have htallied := x.tallied sound events
  have hdiversions : ∀ a ∈ (x.after events).past, a.op.diverts = true →
      (a.reply = .ok ∧ ∃ i e, x.route = some i ∧ a.given = [(i, e)]) ∨
        ((∃ err, a.reply = .error err) ∨ a.reply = .broken .overflow) ∧ a.given = [] :=
    fun a ha hop => by
    obtain ⟨turn, hends⟩ := x.exists_ends events ha
    exact hends.diversion hop (htallied.each a ha)
  refine ⟨htallied.counters .read, htallied.counters .written, htallied.counters .diverted,
    htallied.logs, fun l _ hone kind => ?_, hdiversions, fun i hroute => ?_,
    fun a ha hreply => ?_⟩
  · have hsame (es : List Entry) : es.flatMap (List.replicate 1) = es := List.flatMap_singleton' es
    rw [htallied.logs, hone, hsame]
  · obtain ⟨l, hl, hsub, -⟩ := x.given events i
    exact ⟨l, hl, (diverted_sublist hroute hdiversions).trans hsub⟩
  · have hvain : a.Vain := (htallied.each a ha).elim id fun ⟨hbroken, _⟩ =>
      Or.inl (hreply.resolve_right (hbroken _))
    obtain ⟨hcounters, hcollectors, -⟩ := (x.failed events).1 a ha hvain
    exact ⟨hcounters, hcollectors⟩

namespace Mixed

/-- A row with one value. -/
def entry (n : Int64) : Entry := ⟨⟨[⟨"n", .integer, -1, -1⟩]⟩, ⟨[.integer n]⟩⟩

/-- A row that does not fit its layout. -/
def misfit : Entry := ⟨⟨[⟨"n", .integer, -1, -1⟩]⟩, ⟨[]⟩⟩

/-- A copy with one input, one output and a row set for failing rows; one listener is attached. -/
def outset : Outset where
  shared := {
    pipeline := "p"
    rowSets := #[((RowSet.new 2).accept (entry 1)).accept (entry 2), RowSet.new 1, RowSet.new 1]
    errorCounts := #[0]
    collectors := #[{}] }
  spec := { id := "a", type := "script", errorHandling := some { target := "r" } }
  copy := 0
  wiring := { inputs := [0], outputs := [("b", 1)], errors := some 2 }
  slot := 0
  listeners := [{ collector := 0 }]

/-- A row is read and written, one does not fit, one is refused since the run is stopped while there is
no room, and one is diverted. -/
def events : List Event :=
  [.call .read, .step, .step, .step] ++
  [.call (.write (entry 1)), .step, .step] ++
  [.call (.write misfit), .step] ++
  [.call (.write (entry 1)), .step, .step, .others .stop, .step] ++
  [.call (.divert (entry 1) { description := "bad" }), .step, .step]

end Mixed

/-- Of five calls three have success and are counted; the listener has been told of these. -/
theorem counters_and_listeners_mixed :
    (∀ l ∈ Mixed.outset.listeners, ∀ kind e, l.fails kind e = none) ∧
      (Mixed.outset.after Mixed.events).past.map (·.reply) =
        [.row (Mixed.entry 1), .ok, .error (.layoutMismatch 0 1),
          .error (.rowSet (.stopped "producer -> consumer")), .ok] ∧
      told (Mixed.outset.after Mixed.events).past .written = [Mixed.entry 1] ∧
      (Mixed.outset.after Mixed.events).context.counters.written = .ofNat
        (told (Mixed.outset.after Mixed.events).past .written).length ∧
      logOf (Mixed.outset.after Mixed.events).shared.collectors 0 .written =
        (logOf Mixed.outset.shared.collectors 0 .written).map
          (· ++ told (Mixed.outset.after Mixed.events).past .written) := by
  have sound : ∀ l ∈ Mixed.outset.listeners, ∀ kind e, l.fails kind e = none := by
    intro l hl kind e
    cases List.mem_singleton.mp hl
    rfl
  obtain ⟨-, hwritten, -, -, hlog, -⟩ := counters_and_listeners Mixed.outset sound Mixed.events
  exact ⟨sound, by decide +kernel, by decide +kernel, hwritten,
    hlog _ (List.mem_singleton.mpr rfl) rfl .written⟩

end Usage

end Rowflow
