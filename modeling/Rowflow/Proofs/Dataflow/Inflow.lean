import Mathlib.Algebra.BigOperators.Group.Finset.Piecewise
import Mathlib.Algebra.Order.Group.Multiset
import Rowflow.Proofs.Dataflow.Books
import Rowflow.Proofs.Dataflow.PerRow
import Rowflow.Proofs.Pipeline.Evaluation

/-!
# What comes to a transform

If a run of built-in transforms ends without being stopped, then the copies of a transform have
together read the rows that the pipeline makes of the injected ones, whoever of them has read which
row, and in whatever order. What comes to a transform is what is injected, what comes along its
enabled hops and the failing rows that are sent to it (`Pipeline.arrivals`), and these equations are
solved along the edges of the pipeline (`Pipeline.inflow`). Rows that take turns among several
outputs have to be left out: which output a row goes to depends on the copy that has read it.

- `Books.readBy_eq`: what the copies of the transforms have read solves the equations.
- `Course.total_inflow`: so it is the inflow.
-/

namespace Rowflow

/-! ### The equations -/

/-- The rows that the copies of a transform handle together: each copy of a source handles all rows
of the source, and readers handle what they have read together. -/
def Conduct.total (conduct : Conduct) (copies : Nat) (read : Multiset Entry) : Multiset Entry :=
  match conduct with
  | .source rows => copies • (rows : Multiset Entry)
  | .reader _ => read

namespace Pipeline

/-- What the copies of a transform make of their rows together, row by row. -/
def yield (p : Pipeline) (flow : String → Multiset Entry) (s : String)
    (f : Conduct → Entry → Option Entry) : Multiset Entry :=
  match p.transform? s with
  | none => 0
  | some spec =>
    match Builtin.ofSpec spec with
    | .error _ => 0
    | .ok made => (made.conduct.total spec.copies (flow s)).filterMap (f made.conduct)

/-- What comes to a transform: what is injected, what comes along the hops that lead to it, and the
failing rows of the transforms that send them there. -/
def arrivals (p : Pipeline) (inject flow : String → Multiset Entry) (t : String) : Multiset Entry :=
  (p.enabledHops.map fun h => if h.target = t then p.yield flow h.origin (·.out t) else 0).sum +
    (p.transforms.map fun s =>
      match s.errorHandling with
      | some h => if h.target = t then p.yield flow s.id (·.err h) else 0
      | none => 0).sum +
    inject t

/-- What comes to the transforms, computed along the edges. -/
def inflow (p : Pipeline) (inject : String → Multiset Entry) : String → Multiset Entry :=
  p.evaluate (p.arrivals inject) 0

/-- No transform deals its rows out to several outputs in turn: it has one output hop at most, or
copies its rows, or routes them by what they contain. -/
def TakesNoTurns (p : Pipeline) : Prop :=
  ∀ t ∈ p.transforms, (p.enabledHops.filter (·.origin = t.id)).length ≤ 1 ∨ t.movement = .copy ∨
    ∃ f, Builtin.ofSpec t = .ok (.filterRows f) ∧ f.isRouting = true

variable {p : Pipeline} {inject flow flow' : String → Multiset Entry}

theorem yield_congr {s : String} {f : Conduct → Entry → Option Entry} (h : flow s = flow' s) :
    p.yield flow s f = p.yield flow' s f := by
  unfold yield
  rw [h]

theorem yield_eq {s : String} {spec : TransformSpec} {made : Builtin}
    {f : Conduct → Entry → Option Entry} (hspec : p.transform? s = some spec)
    (hmade : Builtin.ofSpec spec = .ok made) :
    p.yield flow s f = (made.conduct.total spec.copies (flow s)).filterMap (f made.conduct) := by
  unfold yield
  rw [hspec]
  dsimp only
  rw [hmade]

theorem arrivals_congr {t : String} (h : ∀ s, (s, t) ∈ p.edges → flow s = flow' s) :
    p.arrivals inject flow t = p.arrivals inject flow' t := by
  unfold arrivals
  congr 2
  · refine congrArg List.sum (List.map_congr_left fun hop hh => ?_)
    by_cases ht : hop.target = t
    · rw [if_pos ht, if_pos ht]
      refine yield_congr (h _ (List.mem_append_left _ (List.mem_map.mpr ⟨hop, hh, ?_⟩)))
      rw [ht]
    · rw [if_neg ht, if_neg ht]
  · refine congrArg List.sum (List.map_congr_left fun s hs => ?_)
    rcases he : s.errorHandling with _ | eh
    · rfl
    · dsimp only
      by_cases ht : eh.target = t
      · rw [if_pos ht, if_pos ht]
        refine yield_congr (h _ (List.mem_append_right _ (List.mem_filterMap.mpr ⟨s, hs, ?_⟩)))
        rw [he, ← ht]
        rfl
      · rw [if_neg ht, if_neg ht]

/-! ### Sums over row sets -/

section Sums

variable {M : Type} [AddCommMonoid M]

theorem sum_indicator {α : Type} [DecidableEq α] {l : List α} (hl : l.Nodup) (a : α) (m : M) :
    (l.map fun x => if x = a then m else 0).sum = if a ∈ l then m else 0 := by
  rw [← List.sum_toFinset _ hl, Finset.sum_ite_eq']
  exact if_congr List.mem_toFinset rfl rfl

theorem sum_inputs {g : Nat → M} {G : Channel → M}
    (hG : ∀ i ch, p.channels[i]? = some ch → g i = G ch) (k : WorkerKey) :
    ((p.wiring k).inputs.map g).sum =
      (p.channels.map fun ch => if ch.target = k.id then G ch else 0).sum := by
  have hall : ∀ (l : List Channel) (n : Nat), (∀ x ∈ l.zipIdx n, g x.2 = G x.1) →
      (((l.zipIdx n).filterMap fun x => if x.1.target = k.id then some x.2 else none).map g).sum =
        (l.map fun ch => if ch.target = k.id then G ch else 0).sum := by
    intro l
    induction l with
    | nil => exact fun _ _ => rfl
    | cons ch rest ih =>
      intro n h
      have hrest := ih (n + 1) fun x hx => h x (List.mem_cons_of_mem _ hx)
      have hhead : g n = G ch := h (ch, n) List.mem_cons_self
      rw [List.zipIdx_cons, List.map_cons, List.sum_cons, ← hrest]
      by_cases ht : ch.target = k.id
      · simp [ht, hhead]
      · simp [ht]
  exact hall _ 0 fun x hx => hG _ _ (List.mem_zipIdx_iff_getElem?.mp hx)

theorem sum_channels (F : Channel → M) :
    (p.channels.map F).sum =
      (p.enabledHops.map fun h =>
        ((p.copiesOf h.origin).map fun k => F (.hop k h.target)).sum).sum +
      (p.transforms.map fun s =>
        match s.errorHandling with
        | some h => (s.workers.map fun k => F (.errors k h.target)).sum
        | none => 0).sum +
      ((p.transforms.filter (·.inject)).map fun s => F (.injector s.id)).sum := by
  have hflat : ∀ {α : Type} (l : List α) (f : α → List Channel),
      ((l.flatMap f).map F).sum = (l.map fun a => ((f a).map F).sum).sum := by
    intro α l f
    rw [List.map_flatMap, List.flatMap_def, List.sum_flatten, List.map_map]
    rfl
  unfold channels
  rw [List.map_append, List.map_append, List.sum_append, List.sum_append, hflat, hflat, List.map_map]
  congr 2
  · refine congrArg List.sum (List.map_congr_left fun h _ => ?_)
    rw [List.map_map]
    rfl
  · refine congrArg List.sum (List.map_congr_left fun s _ => ?_)
    rcases s.errorHandling with _ | h
    · rfl
    · rw [List.map_map]
      rfl

end Sums

/-! ### Outlets -/

section Outlets

variable (hp : p.WellFormed) {k : WorkerKey} {c : Context} (hc : p.context? k = some c)
  {limited : Bool}
include hc

theorem outputs_context : c.outputs = (p.wiring k).outputs ∧ p.transform? k.id = some c.spec := by
  unfold context? at hc
  obtain ⟨t, ht, rfl⟩ := Option.map_eq_some_iff.mp hc
  exact ⟨rfl, ht⟩

include hp

theorem WellFormed.outlet_distinct (hk : k ∈ p.copiesOf k.id) : (c.outlet limited).Distinct := by
  have houtputs : (c.outlet limited).outputs = (p.wiring k).outputs := (outputs_context hc).1
  refine ⟨?_, fun t i j hi hj => ?_, fun i h herr hm => ?_⟩
  · rw [houtputs]
    exact nodup_outputs
  · rw [houtputs] at hi hj
    exact hp.channel_inj (mem_outputs.mp hi) (mem_outputs.mp hj)
  · rw [houtputs] at hm
    obtain ⟨⟨t, j⟩, hj, rfl⟩ := List.mem_map.mp hm
    have hch := mem_outputs.mp hj
    rcases hp.context_errors hc hk with ⟨he, -⟩ | ⟨j', eh, he, -, hj'⟩
    · unfold Context.outlet at herr
      rw [he] at herr
      cases herr
    · unfold Context.outlet at herr
      rw [he] at herr
      cases herr
      rw [hch] at hj'
      cases hj'

theorem WellFormed.outlet_errors (hk : k ∈ p.copiesOf k.id) {i : Nat} {target : String}
    (hi : p.channels[i]? = some (.errors k target)) {eh : ErrorHandling}
    (heh : c.spec.errorHandling = some eh) :
    (c.outlet false).errors = some (i, eh) := by
  obtain ⟨eh', heh', htarget⟩ :=
    hp.errors_target (outputs_context hc).2 (List.mem_of_getElem? hi)
  rw [heh] at heh'
  cases heh'
  rcases hp.context_errors hc hk with ⟨-, hnone⟩ | ⟨j, eh'', he, heh'', hj⟩
  · rw [hnone] at heh
    cases heh
  · rw [heh] at heh''
    cases heh''
    rw [htarget] at hi
    cases hp.channel_inj hi hj
    unfold Context.outlet
    rw [he]
    rfl

theorem WellFormed.outlet_settled (hturns : p.TakesNoTurns) {made : Builtin}
    (hmade : Builtin.ofSpec c.spec = .ok made) : (c.outlet limited).Settled made.conduct := by
  obtain ⟨houtputs, hspec⟩ := outputs_context hc
  obtain ⟨hmem, hid⟩ := transform?_mem hspec
  rcases hturns c.spec hmem with hone | hcopy | ⟨f, hf, hrouting⟩
  · refine Or.inr (Or.inl ?_)
    rw [hid] at hone
    have hle := hp.outputs_length_le (k := k)
    rw [← houtputs] at hle
    exact hle.trans hone
  · exact Or.inl hcopy
  · refine Or.inr (Or.inr fun e out => ?_)
    rw [hmade] at hf
    cases hf
    exact FilterRows.verdict_ne_pass hrouting e out

end Outlets

end Pipeline

/-! ### Reading -/

namespace Course

variable {p : Pipeline} {c : Course Builtin}

/-- The rows that have been injected into a transform. -/
def injected (p : Pipeline) (c : Course Builtin) (t : String) : Multiset Entry :=
  match p.injector? t with
  | some i => (c.shared.accepted i : Multiset Entry)
  | none => 0

/-- The rows that the copies of a transform have read together. -/
def readBy (p : Pipeline) (c : Course Builtin) (t : String) : Multiset Entry :=
  ((p.copiesOf t).map fun k => (Deed.reads (deedsOf k c.history) : Multiset Entry)).sum

theorem coe_reads_took (k k₀ : WorkerKey) (j : Nat) (e : Entry) (h : List (WorkerKey × Deed)) :
    (Deed.reads (deedsOf k ((k₀, .took j e) :: h)) : Multiset Entry) =
      Deed.reads (deedsOf k h) + if k = k₀ then {e} else 0 := by
  by_cases hk : k = k₀
  · subst hk
    rw [deedsOf_cons_self, if_pos rfl]
    rfl
  · rw [deedsOf_cons_of_ne (Ne.symm hk), if_neg hk, add_zero]

theorem coe_taken_took (i j : Nat) (k₀ : WorkerKey) (e : Entry) (h : List (WorkerKey × Deed)) :
    (taken i ((k₀, .took j e) :: h) : Multiset Entry) = taken i h + if i = j then {e} else 0 := by
  by_cases hi : i = j
  · subst hi
    rw [taken, if_pos rfl, if_pos rfl]
    rfl
  · rw [taken, if_neg (Ne.symm hi), if_neg hi, add_zero]

theorem reads_taken_of_not_took (k₀ : WorkerKey) {d : Deed} (hd : ∀ j e, d ≠ .took j e)
    (h : List (WorkerKey × Deed)) :
    (∀ k, Deed.reads (deedsOf k ((k₀, d) :: h)) = Deed.reads (deedsOf k h)) ∧
      ∀ i, taken i ((k₀, d) :: h) = taken i h := by
  constructor
  · intro k
    by_cases hk : k₀ = k
    · subst hk
      rw [deedsOf_cons_self]
      exact Deed.reads_cons hd
    · rw [deedsOf_cons_of_ne hk]
  · intro i
    cases d
    case took j e => exact absurd rfl (hd j e)
    all_goals rfl

/-- What some workers have read, if they are the ones that read certain row sets, is what has been
taken out of these row sets. -/
theorem sum_reads {ks : List WorkerKey} {is : List Nat} (hks : ks.Nodup) (his : is.Nodup)
    {h : List (WorkerKey × Deed)}
    (htook : ∀ k i e, (k, Deed.took i e) ∈ h → (k ∈ ks ↔ i ∈ is)) :
    (ks.map fun k => (Deed.reads (deedsOf k h) : Multiset Entry)).sum =
      (is.map fun i => (taken i h : Multiset Entry)).sum := by
  -- on either side, every row taken out of one of the row sets counts once
  induction h with
  | nil => simp [deedsOf, Deed.reads, taken]
  | cons x older ih =>
    obtain ⟨k₀, d⟩ := x
    have hold := ih fun k i e hm => htook k i e (List.mem_cons_of_mem _ hm)
    by_cases hd : ∃ j e, d = .took j e
    · obtain ⟨j, e, rfl⟩ := hd
      simp only [coe_reads_took, coe_taken_took]
      rw [List.sum_map_add, List.sum_map_add, hold, Pipeline.sum_indicator hks,
        Pipeline.sum_indicator his]
      exact congrArg _ (if_congr (htook k₀ j e List.mem_cons_self) rfl rfl)
    · obtain ⟨hreads, htaken⟩ :=
        reads_taken_of_not_took k₀ (fun j e he => hd ⟨j, e, he⟩) older
      simp only [hreads, htaken]
      exact hold

/-! ### The end of a run -/

/-- What the row set of a channel has accepted. -/
def acceptedBy (p : Pipeline) (c : Course Builtin) (ch : Channel) : List Entry :=
  c.shared.accepted (p.channels.idxOf ch)

theorem accepted_eq (hp : p.WellFormed) {i : Nat} {ch : Channel} (hi : p.channels[i]? = some ch) :
    c.shared.accepted i = acceptedBy p c ch := by
  have hidx : p.channels[p.channels.idxOf ch]? = some ch :=
    List.getElem?_idxOf (List.mem_of_getElem? hi)
  unfold acceptedBy
  rw [hp.channel_inj hi hidx]

/-- What the copies of a transform make of their rows, put together. -/
theorem sum_yield (hp : p.WellFormed) {s : String} {spec : TransformSpec} {made : Builtin}
    (hspec : p.transform? s = some spec) (hmade : Builtin.ofSpec spec = .ok made)
    {f : Conduct → Entry → Option Entry} {g : WorkerKey → List Entry}
    (hg : ∀ k ∈ p.copiesOf s, g k =
      (made.conduct.rows (Deed.reads (deedsOf k c.history))).filterMap (f made.conduct)) :
    ((p.copiesOf s).map fun k => (g k : Multiset Entry)).sum = p.yield (readBy p c) s f := by
  have hfilter : ∀ (ks : List WorkerKey) (rows : WorkerKey → List Entry),
      (ks.map fun k => (((rows k).filterMap (f made.conduct) : List Entry) : Multiset Entry)).sum =
        Multiset.filterMap (f made.conduct) (ks.map fun k => (rows k : Multiset Entry)).sum := by
    intro ks rows
    induction ks with
    | nil => rfl
    | cons k rest ih =>
      rw [List.map_cons, List.sum_cons, List.map_cons, List.sum_cons, Multiset.filterMap_add, ih]
      rfl
  have htotal : ((p.copiesOf s).map fun k =>
      (made.conduct.rows (Deed.reads (deedsOf k c.history)) : Multiset Entry)).sum =
        made.conduct.total spec.copies (readBy p c s) := by
    rcases made.conduct with rows | verdict
    · have hlen : (p.copiesOf s).length = spec.copies := by
        obtain ⟨hmem, rfl⟩ := Pipeline.transform?_mem hspec
        unfold Pipeline.copiesOf
        rw [hp.copies_eq hmem, List.length_map, List.length_range]
      show ((p.copiesOf s).map fun _ => (rows : Multiset Entry)).sum = _
      rw [List.map_const', List.sum_replicate, hlen]
      rfl
    · rfl
  have hcongr : ((p.copiesOf s).map fun k => (g k : Multiset Entry)).sum =
      ((p.copiesOf s).map fun k => (((made.conduct.rows
        (Deed.reads (deedsOf k c.history))).filterMap (f made.conduct) : List Entry) :
          Multiset Entry)).sum :=
    congrArg List.sum (List.map_congr_left fun k hk => by rw [hg k hk])
  rw [hcongr, hfilter, htotal, Pipeline.yield_eq hspec hmade]

/-- What has been injected into a transform has been accepted from outside. -/
theorem sum_injected (hp : p.WellFormed) (t : String) :
    ((p.transforms.filter (·.inject)).map fun s =>
      if s.id = t then (acceptedBy p c (.injector s.id) : Multiset Entry) else 0).sum =
        injected p c t := by
  have hnodup : ((p.transforms.filter (·.inject)).map (·.id)).Nodup :=
    hp.ids_nodup.sublist (List.filter_sublist.map _)
  have hmem : t ∈ (p.transforms.filter (·.inject)).map (·.id) ↔ .injector t ∈ p.channels := by
    rw [Pipeline.mem_channels]
    constructor
    · intro h
      obtain ⟨s, hs, rfl⟩ := List.mem_map.mp h
      obtain ⟨hs, hi⟩ := List.mem_filter.mp hs
      exact Or.inr (Or.inr ⟨s, hs, hi, rfl⟩)
    · rintro (⟨h, -, k, -, he⟩ | ⟨s, -, h, -, k, -, he⟩ | ⟨s, hs, hi, he⟩)
      · cases he
      · cases he
      · cases he
        exact List.mem_map.mpr ⟨s, List.mem_filter.mpr ⟨hs, hi⟩, rfl⟩
  have hsum := Pipeline.sum_indicator hnodup t (acceptedBy p c (.injector t) : Multiset Entry)
  rw [List.map_map] at hsum
  have hcongr : ∀ s : TransformSpec,
      (if s.id = t then (acceptedBy p c (.injector s.id) : Multiset Entry) else 0) =
        if s.id = t then (acceptedBy p c (.injector t) : Multiset Entry) else 0 := by
    intro s
    by_cases hs : s.id = t
    · rw [hs]
    · rw [if_neg hs, if_neg hs]
  simp only [hcongr]
  refine hsum.trans ?_
  unfold injected Pipeline.injector?
  by_cases ht : Channel.injector t ∈ p.channels
  · rw [if_pos (hmem.mpr ht)]
    rcases hidx : p.channels.idxOf? (.injector t) with _ | j
    · exact absurd ht (List.idxOf?_eq_none_iff.mp hidx)
    · obtain ⟨hlt, hj, -⟩ := List.idxOf?_eq_some_iff.mp hidx
      rw [hidx]
      dsimp only
      rw [accepted_eq hp (List.getElem?_eq_some_iff.mpr ⟨hlt, hj⟩)]
  · rw [if_neg (mt hmem.mp ht), List.idxOf?_eq_none_iff.mpr ht]

section End

variable (hp : p.WellFormed) (hc : c.Custody p) (hb : c.Books p false)
  (hended : ∀ x ∈ c.workers, x.hasEnded = true) (hstop : c.shared.stopped = false)
include hc hb hended hstop

/-- A worker has given away all that the rows it had to handle amount to. -/
theorem Books.written_eq {x : Worker Builtin} (hx : x ∈ c.workers) {made : Builtin}
    (hmade : Builtin.ofSpec x.context.spec = .ok made) :
    ∃ c₀ u, p.context? x.key = some c₀ ∧ x.context.spec = c₀.spec ∧
      Deed.writes (deedsOf x.key c.history) = play ((c₀.outlet false).deal made.conduct) {}
        (made.conduct.rows (Deed.reads (deedsOf x.key c.history))) ∧
      reach ((c₀.outlet false).deal made.conduct) {}
        (made.conduct.rows (Deed.reads (deedsOf x.key c.history))) = some u := by
  have hkept := hc.kept x hx
  obtain ⟨c₀, hc₀, -⟩ := hkept.wired.origin
  obtain ⟨hspec, hout⟩ : x.context.spec = c₀.spec ∧ x.context.outlet false = c₀.outlet false :=
    hkept.wired.outlet hc₀
  obtain ⟨made', horigin, -, haccounts⟩ := hb.accounts x hx
  cases hmade.symm.trans horigin
  have hleft := hc.left_done hstop hx (hended x hx)
  obtain ⟨feed, u, hfeeds, hwrites, hreach, hcomplete⟩ :=
    (haccounts.closed hkept.stands hleft).done hleft
  cases hfeeds.eq_rows hcomplete fun _ => rfl
  rw [hout] at hwrites hreach
  exact ⟨c₀, u, hc₀, hspec, hwrites, hreach⟩

include hp

theorem Books.accepted_hop (hturns : p.TakesNoTurns) {x : Worker Builtin} (hx : x ∈ c.workers)
    {made : Builtin} (hmade : Builtin.ofSpec x.context.spec = .ok made) {i : Nat} {t : String}
    (hi : p.channels[i]? = some (.hop x.key t)) :
    c.shared.accepted i = (made.conduct.rows
      (Deed.reads (deedsOf x.key c.history))).filterMap (made.conduct.out t) := by
  obtain ⟨c₀, u, hc₀, hspec, hwrites, hreach⟩ := hb.written_eq hc hended hstop hx hmade
  rw [hspec] at hmade
  have hmem : (t, i) ∈ (c₀.outlet false).outputs := by
    show (t, i) ∈ c₀.outputs
    rw [(Pipeline.outputs_context hc₀).1]
    exact Pipeline.mem_outputs.mpr hi
  rw [hb.accepted i _ x.key hi rfl, hwrites]
  exact Outlet.sentTo_out (hp.outlet_distinct hc₀ (hc.kept x hx).wired.worker)
    (hp.outlet_settled hc₀ hturns hmade) hmem hreach

theorem Books.accepted_errors {x : Worker Builtin} (hx : x ∈ c.workers)
    {made : Builtin} (hmade : Builtin.ofSpec x.context.spec = .ok made) {eh : ErrorHandling}
    (heh : x.context.spec.errorHandling = some eh) {i : Nat} {t : String}
    (hi : p.channels[i]? = some (.errors x.key t)) :
    c.shared.accepted i = (made.conduct.rows
      (Deed.reads (deedsOf x.key c.history))).filterMap (made.conduct.err eh) := by
  obtain ⟨c₀, u, hc₀, hspec, hwrites, hreach⟩ := hb.written_eq hc hended hstop hx hmade
  have hworker := (hc.kept x hx).wired.worker
  rw [hspec] at heh
  rw [hb.accepted i _ x.key hi rfl, hwrites]
  exact Outlet.sentTo_err (hp.outlet_distinct hc₀ hworker) (hp.outlet_errors hc₀ hworker hi heh)
    hreach

omit hended hstop in
theorem Books.made {s : String} (hs : s ∈ p.ids) :
    ∃ spec made, p.transform? s = some spec ∧ Builtin.ofSpec spec = .ok made ∧
      ∀ k ∈ p.copiesOf s, ∃ x ∈ c.workers, x.key = k ∧ x.context.spec = spec := by
  obtain ⟨t, ht, rfl⟩ := Pipeline.mem_ids.mp hs
  have hspec := hp.transform?_eq_some ht
  have hworker : ∀ k ∈ p.copiesOf t.id, ∃ x ∈ c.workers, x.key = k ∧ x.context.spec = t := by
    intro k hk
    obtain ⟨hid, -⟩ := Pipeline.mem_copiesOf.mp hk
    obtain ⟨x, hx, rfl⟩ := hc.crew.exists_worker (hid ▸ hk)
    have hx' := (hc.kept x hx).transform?_eq
    rw [hid, hspec] at hx'
    exact ⟨x, hx, rfl, (Option.some.inj hx').symm⟩
  obtain ⟨x, hx, -, hxt⟩ := hworker _ (hp.first_copy hs)
  obtain ⟨made, horigin, -, -⟩ := hb.accounts x hx
  exact ⟨t, made, hspec, hxt ▸ horigin, hworker⟩

theorem Books.sum_hop (hturns : p.TakesNoTurns) {h : Hop} (hh : h ∈ p.enabledHops) :
    ((p.copiesOf h.origin).map fun k => (acceptedBy p c (.hop k h.target) : Multiset Entry)).sum =
      p.yield (readBy p c) h.origin (·.out h.target) := by
  obtain ⟨spec, made, hspec, hmade, hworker⟩ :=
    hb.made hp hc (hp.hop_ends h (List.mem_of_mem_filter hh)).1
  refine sum_yield hp hspec hmade fun k hk => ?_
  obtain ⟨x, hx, rfl, rfl⟩ := hworker k hk
  obtain ⟨i, hi⟩ := List.getElem?_of_mem
    (Pipeline.mem_channels.mpr (Or.inl ⟨h, hh, x.key, hk, rfl⟩))
  rw [← accepted_eq hp hi]
  exact hb.accepted_hop hp hc hended hstop hturns hx hmade hi

theorem Books.sum_errors {s : TransformSpec} (hs : s ∈ p.transforms) {h : ErrorHandling}
    (hh : s.errorHandling = some h) :
    ((p.copiesOf s.id).map fun k => (acceptedBy p c (.errors k h.target) : Multiset Entry)).sum =
      p.yield (readBy p c) s.id (·.err h) := by
  obtain ⟨spec, made, hspec, hmade, hworker⟩ := hb.made hp hc (Pipeline.mem_ids.mpr ⟨s, hs, rfl⟩)
  cases hspec.symm.trans (hp.transform?_eq_some hs)
  refine sum_yield hp hspec hmade fun k hk => ?_
  obtain ⟨x, hx, rfl, rfl⟩ := hworker k hk
  obtain ⟨i, hi⟩ := List.getElem?_of_mem
    (Pipeline.mem_channels.mpr
      (Or.inr (Or.inl ⟨_, hs, h, hh, x.key, hp.workers_of_mem hs ▸ hk, rfl⟩)))
  rw [← accepted_eq hp hi]
  exact hb.accepted_errors hp hc hended hstop hx hmade hh hi

theorem Books.readBy_inputs (hfed : p.SourcesUnfed) {t : String} (ht : t ∈ p.ids) :
    readBy p c t = ((p.wiring ⟨t, 0⟩).inputs.map fun i =>
      (c.shared.accepted i : Multiset Entry)).sum := by
  have htook : ∀ k i e, (k, Deed.took i e) ∈ c.history →
      (k ∈ p.copiesOf t ↔ i ∈ (p.wiring ⟨t, 0⟩).inputs) := by
    intro k i e hm
    obtain ⟨hk, hi⟩ := hc.takers k i e hm
    obtain ⟨ch, hch, htarget⟩ := Pipeline.mem_inputs.mp hi
    constructor
    · intro hkt
      exact Pipeline.mem_inputs.mpr ⟨ch, hch, htarget.trans (Pipeline.mem_copiesOf.mp hkt).1⟩
    · intro hit
      obtain ⟨ch', hch', htarget'⟩ := Pipeline.mem_inputs.mp hit
      rw [hch] at hch'
      cases hch'
      rwa [← htarget, htarget'] at hk
  unfold readBy
  rw [sum_reads (Pipeline.nodup_copiesOf t) Pipeline.nodup_inputs htook]
  refine congrArg List.sum (List.map_congr_left fun i hi => ?_)
  -- whatever an input has accepted has been taken out
  obtain ⟨spec, made, hspec, -, hworker⟩ := hb.made hp hc ht
  obtain ⟨hmem, hid⟩ := Pipeline.transform?_mem hspec
  obtain ⟨x, hx, hkey, rfl⟩ := hworker _ (hp.first_copy ht)
  have hreader : x.context.spec.type ≠ "generate_rows" := by
    intro htype
    obtain ⟨ch, hch, htarget⟩ := Pipeline.mem_inputs.mp hi
    exact hfed.target_ne hp (List.mem_of_getElem? hch) hmem htype (htarget.trans hid.symm)
  have hdone := hb.drained hc hstop hx (hended x hx) hreader i (hkey ▸ hi)
  rw [← hb.delivered i, (Shared.front_eq_done_iff.mp hdone).2, List.take_length]

/-- **What the copies of the transforms have read** solves the equations of the pipeline. -/
theorem Books.readBy_eq (hfed : p.SourcesUnfed) (hturns : p.TakesNoTurns) {t : String}
    (ht : t ∈ p.ids) : readBy p c t = p.arrivals (injected p c) (readBy p c) t := by
  rw [hb.readBy_inputs hp hc hended hstop hfed ht,
    Pipeline.sum_inputs (G := fun ch => (acceptedBy p c ch : Multiset Entry))
      (fun i ch hi => by rw [accepted_eq hp hi]), Pipeline.sum_channels]
  unfold Pipeline.arrivals
  congr 1
  · congr 1
    · refine congrArg List.sum (List.map_congr_left fun h hh => ?_)
      by_cases ht : h.target = t
      · subst ht
        simp only [Channel.target, if_true]
        exact hb.sum_hop hp hc hended hstop hturns hh
      · simp [Channel.target, ht]
    · refine congrArg List.sum (List.map_congr_left fun s hs => ?_)
      rcases he : s.errorHandling with _ | eh
      · rfl
      · dsimp only
        by_cases ht : eh.target = t
        · subst ht
          simp only [Channel.target, if_true]
          rw [hp.workers_of_mem hs]
          exact hb.sum_errors hp hc hended hstop hs he
        · simp [Channel.target, ht]
  · exact sum_injected hp t

end End

/-- **Reference semantics.** In a run of built-in transforms in which no rows go to a source and no
rows take turns among several outputs, whatever the number of copies, the size of the row sets and
the order of steps: if all workers have ended and the run has not been stopped, then the copies of
every transform have read together what comes to it according to the equations of the pipeline. -/
theorem total_inflow {o : Orchestrator Builtin} {hooks : Hooks} {bindings : Table String}
    (hnew : Orchestrator.new p (.builtins id) = .ok o) (hfed : p.SourcesUnfed)
    (hturns : p.TakesNoTurns) (events : List Event)
    (hr : ((begin o hooks bindings).run events).Running)
    (hended : ∀ x ∈ ((begin o hooks bindings).run events).workers, x.hasEnded = true)
    (hstop : ((begin o hooks bindings).run events).shared.stopped = false) :
    ∀ t ∈ p.ids, readBy p ((begin o hooks bindings).run events) t =
      p.inflow (injected p ((begin o hooks bindings).run events)) t := by
  have hp := Pipeline.wellFormed_of_validationErrors (Orchestrator.new_ok hnew).1
  obtain ⟨hc, hb⟩ := books false hnew (fun h => by cases h) events hr
  obtain ⟨order, hord⟩ := hc.crew.ordered
  have hlocal : ∀ inject b g g', (∀ a, (a, b) ∈ p.edges → g a = g' a) →
      p.arrivals inject g b = p.arrivals inject g' b :=
    fun _ _ _ _ h => Pipeline.arrivals_congr h
  exact hp.eq_evaluate hord 0 (hlocal _) fun t ht =>
    hb.readBy_eq hp hc hended hstop hfed hturns ht

/-! ### Rivals -/

namespace Rivals

/-- Rows from outside pass one transform and are shared by two copies of another. -/
def pipeline : Pipeline where
  transforms := [{ id := "first", type := "dummy", inject := true },
    { id := "second", type := "dummy", copies := 2 }]
  hops := [{ origin := "first", target := "second" }]

/-- The run of the rivals. -/
def orchestrator : Orchestrator Builtin where
  pipeline := pipeline
  transforms := (Relay.registry.resolve pipeline).toOption.getD .empty
  world := { shared := { pipeline := pipeline.name, poll := 50000 } }
  built := .ofList [("first", 1), ("second", 1)]

theorem new_ok : Orchestrator.new pipeline Relay.registry = .ok orchestrator := rfl

/-- One copy takes the first row and the other one the second. -/
def events : List Event :=
  [.prepare, .produce "first", .start, .inject 1 Relay.entry] ++ List.replicate 14 (.step 0) ++
    List.replicate 8 (.step 1) ++ [.inject 1 Relay.entry, .finish 1] ++
      (List.replicate 30 [Event.step 0, .step 2, .step 1]).flatten

/-- The end of this run. -/
def finished : Course Builtin := (begin orchestrator Hooks.none .empty).run events

theorem sourcesUnfed : pipeline.SourcesUnfed := ⟨by decide, by decide, by decide⟩

theorem takesNoTurns : pipeline.TakesNoTurns := by
  have hone : ∀ t ∈ pipeline.transforms,
      (pipeline.enabledHops.filter (·.origin = t.id)).length ≤ 1 := by decide
  exact fun t ht => Or.inl (hone t ht)

end Rivals

theorem total_inflow_rivals :
    Deed.reads (deedsOf ⟨"second", 0⟩ Rivals.finished.history) = [Relay.entry] ∧
    Deed.reads (deedsOf ⟨"second", 1⟩ Rivals.finished.history) = [Relay.entry] ∧
    readBy Rivals.pipeline Rivals.finished "second" =
      Rivals.pipeline.inflow (injected Rivals.pipeline Rivals.finished) "second" :=
  ⟨by decide +kernel, by decide +kernel,
    total_inflow Rivals.new_ok Rivals.sourcesUnfed Rivals.takesNoTurns Rivals.events
      ⟨6, by decide +kernel⟩ (by decide +kernel) (by decide +kernel) "second" (by decide)⟩

end Course

end Rowflow
