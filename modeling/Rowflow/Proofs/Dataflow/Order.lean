import Rowflow.Proofs.Dataflow.Books
import Rowflow.Proofs.Pipeline.Evaluation

/-!
# Order

In a pipeline whose transforms have one copy each and read one row set at most, the rows of every
row set do not depend on how the workers take turns: they come in the order in which they come when
the transforms are evaluated one after the other, each over the complete list of its input rows and
up to the first one that it cannot handle (`Pipeline.sequence`).

- `Books.written_fills`: at any time, stopped or not, a worker has given away a prefix of that, and
  all of it once all workers have ended with status `Done`.
- `Course.exact_order`: so the rows of the row sets are prefixes of these sequences, and finally
  these sequences.
-/

namespace Rowflow

/-! ### Evaluation over complete lists -/

namespace Pipeline

/-- Every transform has one copy and reads one row set at most. -/
structure SingleFile (p : Pipeline) : Prop where
  copies : ∀ t ∈ p.transforms, t.copies = 1
  inputs : ∀ t ∈ p.transforms, (p.wiring ⟨t.id, 0⟩).inputs.length ≤ 1

variable (p : Pipeline) (inject : String → List Entry)

/-- What a transform with one copy gives away for all of its input rows, with the row sets that get
it. -/
def result (t : String) (input : List Entry) : List (Nat × Entry) :=
  match p.context? ⟨t, 0⟩ with
  | none => []
  | some c =>
    match Builtin.ofSpec c.spec with
    | .error _ => []
    | .ok made => play ((c.outlet true).deal made.conduct) {} (made.conduct.rows input)

/-- The rows of a row set: those from outside, or what its writer gives it. -/
def content (results : String → List (Nat × Entry)) (i : Nat) : List Entry :=
  match p.channels[i]? with
  | none => []
  | some (.injector t) => inject t
  | some (.hop k _) => sentTo i (results k.id)
  | some (.errors k _) => sentTo i (results k.id)

/-- The input rows of a transform. -/
def input (results : String → List (Nat × Entry)) (t : String) : List Entry :=
  (p.wiring ⟨t, 0⟩).inputs.flatMap (p.content inject results)

/-- What the transforms give away if they are evaluated one after the other. -/
def results : String → List (Nat × Entry) :=
  p.evaluate (fun results t => p.result t (p.input inject results t)) []

/-- The rows that a row set gets if the transforms are evaluated one after the other. -/
def sequence (i : Nat) : List Entry := p.content inject (p.results inject) i

variable {p inject} {results results' : String → List (Nat × Entry)} {i : Nat} {ch : Channel}

theorem content_of_writer {k : WorkerKey} (hi : p.channels[i]? = some ch)
    (hk : ch.writer? = some k) : p.content inject results i = sentTo i (results k.id) := by
  unfold content
  rw [hi]
  rcases ch with _ | _ | _ <;> cases hk <;> rfl

theorem content_of_injector {t : String} (hi : p.channels[i]? = some (.injector t)) :
    p.content inject results i = inject t := by
  unfold content
  rw [hi]

theorem input_congr (hp : p.WellFormed) {b : String} (h : ∀ a, (a, b) ∈ p.edges → results a = results' a) :
    p.input inject results b = p.input inject results' b := by
  refine List.flatMap_congr fun i hi => ?_
  obtain ⟨ch, hch, htarget⟩ := mem_inputs.mp hi
  rcases hk : ch.writer? with _ | k
  · rcases ch with _ | _ | t
    · cases hk
    · cases hk
    · rw [content_of_injector hch, content_of_injector hch]
  · have hedge := (hp.edge_of_writer (List.mem_of_getElem? hch) hk).1
    rw [htarget] at hedge
    rw [content_of_writer hch hk, content_of_writer hch hk, h _ hedge]

theorem WellFormed.results_eq (hp : p.WellFormed) {order : List String}
    (hord : (HopGraph.ofPipeline p).topologicalOrder = some order) {b : String} (hb : b ∈ p.ids) :
    p.results inject b = p.result b (p.input inject (p.results inject) b) :=
  hp.evaluate_eq hord [] (fun _ _ _ h => congrArg _ (input_congr hp h)) hb

end Pipeline

/-! ### Workers in single file -/

/-- The list is a prefix of the other one, and all of it once nothing more will come. -/
structure Fills {α : Type} (whole : Prop) (xs ys : List α) : Prop where
  start : xs <+: ys
  all : whole → xs = ys

theorem Fills.sentTo {whole : Prop} {ws vs : List (Nat × Entry)} (h : Fills whole ws vs) (i : Nat) :
    Fills whole (sentTo i ws) (sentTo i vs) := by
  refine ⟨?_, fun hw => congrArg _ (h.all hw)⟩
  obtain ⟨us, hus⟩ := h.start
  rw [← hus, sentTo_append]
  exact List.prefix_append _ _

/-- What a worker gives away for a list of rows, if it has the conduct it keeps account for. -/
theorem Worker.Honours.result {p : Pipeline} {s : Shared} {ds : List Deed} {x : Worker Builtin}
    {made : Builtin} (h : x.Honours true s ds made) (hwired : x.context.Wired p s)
    (hcopy : x.key = ⟨x.key.id, 0⟩) (input : List Entry) :
    p.result x.key.id input =
      play ((x.context.outlet true).deal made.conduct) {} (made.conduct.rows input) := by
  obtain ⟨c₀, hc₀, -⟩ := hwired.origin
  obtain ⟨hspec, hout⟩ : x.context.spec = c₀.spec ∧ x.context.outlet true = c₀.outlet true :=
    hwired.outlet hc₀
  have hmade := h.origin
  rw [hspec] at hmade
  have hc : p.context? ⟨x.key.id, 0⟩ = some c₀ := by
    rw [← hcopy]
    exact hc₀
  unfold Pipeline.result
  rw [hc]
  dsimp only
  rw [hmade, hout]

namespace Course

variable {p : Pipeline} {c : Course Builtin} {inject : String → List Entry}

/-- No rows have come from outside but the first ones of those given. -/
def Injects (p : Pipeline) (c : Course Builtin) (inject : String → List Entry) : Prop :=
  ∀ x ∈ p.injectors, c.shared.accepted x.2 <+: inject x.1

/-- All rows given have come from outside, and all workers have ended with status `Done`. -/
structure Completes (p : Pipeline) (c : Course Builtin) (inject : String → List Entry) : Prop where
  injected : ∀ x ∈ p.injectors, c.shared.accepted x.2 = inject x.1
  done : ∀ x ∈ c.workers, (x.key, Deed.left .done) ∈ c.history

/-- A worker that alone takes out of one row set, and out of no other, has read what has been taken
out of it. -/
theorem reads_eq_taken {k : WorkerKey} {i : Nat} {h : List (WorkerKey × Deed)}
    (htook : ∀ k' j e, (k', Deed.took j e) ∈ h → (k' = k ↔ j = i)) :
    Deed.reads (deedsOf k h) = taken i h := by
  induction h with
  | nil => rfl
  | cons x older ih =>
    obtain ⟨k', d⟩ := x
    have hold := ih fun k'' j e hm => htook k'' j e (List.mem_cons_of_mem _ hm)
    by_cases hk : k' = k
    · subst hk
      rw [deedsOf_cons_self]
      cases d
      case took j e =>
        obtain rfl := (htook k' j e List.mem_cons_self).mp rfl
        rw [Deed.reads, taken, if_pos rfl, hold]
      all_goals exact hold
    · rw [deedsOf_cons_of_ne hk]
      cases d
      case took j e =>
        have hj : j ≠ i := fun hj => hk ((htook k' j e List.mem_cons_self).mpr hj)
        rw [taken, if_neg hj, hold]
      all_goals exact hold

theorem reads_eq_nil {ds : List Deed} (h : ∀ i e, Deed.took i e ∉ ds) : Deed.reads ds = [] := by
  induction ds with
  | nil => rfl
  | cons d older ih =>
    rw [Deed.reads_cons fun i e hd => h i e (hd ▸ List.mem_cons_self)]
    exact ih fun i e hm => h i e (List.mem_cons_of_mem _ hm)

section SingleFile

variable (hp : p.WellFormed) (hs : p.SingleFile) (hc : c.Custody p)
include hp hs hc

theorem Custody.key_eq {x : Worker Builtin} (hx : x ∈ c.workers) : x.key = ⟨x.key.id, 0⟩ := by
  obtain ⟨t, ht⟩ := Pipeline.transform?_of_copiesOf (hc.kept x hx).wired.worker
  have hlt := hp.copy_lt (hc.kept x hx).wired.worker ht
  rw [hs.copies t (Pipeline.transform?_mem ht).1] at hlt
  have hzero : x.key.copy = 0 := Nat.lt_one_iff.mp hlt
  generalize x.key = k at hzero ⊢
  obtain ⟨id, copy⟩ := k
  rw [show copy = 0 from hzero]

/-- Only the worker that reads a row set has taken anything out of it, and out of no other. -/
theorem Custody.took_iff {x : Worker Builtin} (hx : x ∈ c.workers) {i : Nat}
    (hi : (p.wiring x.key).inputs = [i]) {k : WorkerKey} {j : Nat} {e : Entry}
    (hm : (k, Deed.took j e) ∈ c.history) : k = x.key ↔ j = i := by
  obtain ⟨hk, hj⟩ := hc.takers k j e hm
  constructor
  · rintro rfl
    rw [hi] at hj
    exact List.mem_singleton.mp hj
  · rintro rfl
    obtain ⟨ch, hch, ht⟩ := Pipeline.mem_inputs.mp hj
    obtain ⟨ch', hch', ht'⟩ := Pipeline.mem_inputs.mp (hi ▸ List.mem_singleton_self j)
    rw [hch] at hch'
    cases hch'
    obtain ⟨y, hy, rfl⟩ := hc.crew.exists_worker hk
    rw [hc.key_eq hp hs hy, hc.key_eq hp hs hx, ← ht, ht']

theorem Books.reads_eq (hb : c.Books p true) {x : Worker Builtin} (hx : x ∈ c.workers) :
    ((p.wiring x.key).inputs = [] ∧ Deed.reads (deedsOf x.key c.history) = []) ∨
    ∃ i, (p.wiring x.key).inputs = [i] ∧ Deed.reads (deedsOf x.key c.history) =
      (c.shared.accepted i).take (c.shared.delivered i) := by
  have hlen : (p.wiring x.key).inputs.length ≤ 1 := by
    obtain ⟨hmem, hid⟩ := Pipeline.transform?_mem (hc.kept x hx).transform?_eq
    have := hs.inputs _ hmem
    rwa [hid, ← hc.key_eq hp hs hx] at this
  rcases hinputs : (p.wiring x.key).inputs with _ | ⟨i, _ | ⟨j, rest⟩⟩
  · refine Or.inl ⟨rfl, reads_eq_nil fun i e hm => ?_⟩
    have hi := (hc.takers _ i e (mem_deedsOf.mp hm)).2
    rw [hinputs] at hi
    cases hi
  · exact Or.inr ⟨i, rfl, by
      rw [hb.delivered i, reads_eq_taken fun k j e hm => hc.took_iff hp hs hx hinputs hm]⟩
  · rw [hinputs] at hlen
    exact absurd hlen (by simp)

end SingleFile

theorem Books.accepted_fills (hp : p.WellFormed) (hb : c.Books p true) (hc : c.Custody p)
    {results : String → List (Nat × Entry)} (hinject : c.Injects p inject) {i : Nat} {ch : Channel}
    (hi : p.channels[i]? = some ch)
    (hw : ∀ x ∈ c.workers, ch.writer? = some x.key →
      Fills (c.Completes p inject) (Deed.writes (deedsOf x.key c.history)) (results x.key.id)) :
    Fills (c.Completes p inject) (c.shared.accepted i) (p.content inject results i) := by
  rcases hk : ch.writer? with _ | k
  · rcases ch with _ | _ | t
    · cases hk
    · cases hk
    · rw [Pipeline.content_of_injector hi]
      have hmem := hp.mem_injectors.mpr hi
      exact ⟨hinject (t, i) hmem, fun h => h.injected (t, i) hmem⟩
  · obtain ⟨x, hx, rfl⟩ := hc.crew.exists_worker
      (hp.edge_of_writer (List.mem_of_getElem? hi) hk).2
    rw [Pipeline.content_of_writer hi hk, hb.accepted i ch x.key hi hk]
    exact (hw x hx hk).sentTo i

/-- **What workers in single file have given away** is a prefix of what they give away for complete
lists of input rows, and all of it if the run has come to its end. -/
theorem Books.written_fills (hp : p.WellFormed) {order : List String}
    (hord : (HopGraph.ofPipeline p).topologicalOrder = some order) (hs : p.SingleFile)
    (hc : c.Custody p) (hb : c.Books p true) (hinject : c.Injects p inject) :
    ∀ b, ∀ x ∈ c.workers, x.key.id = b →
      Fills (c.Completes p inject) (Deed.writes (deedsOf x.key c.history)) (p.results inject b) := by
  -- along the edges: what comes to a transform is settled before what it makes of that
  refine (hp.ranked hord).induction fun b ih => ?_
  rintro x hx rfl
  have hkept := hc.kept x hx
  obtain ⟨made, hhonours⟩ := hb.accounts x hx
  have hid : x.key.id ∈ p.ids := Pipeline.mem_ids.mpr ⟨_, Pipeline.transform?_mem hkept.transform?_eq⟩
  rw [hp.results_eq hord hid, hhonours.result hkept.wired (hc.key_eq hp hs hx)]
  have hinput : ∀ i ∈ (p.wiring x.key).inputs, Fills (c.Completes p inject) (c.shared.accepted i)
      (p.content inject (p.results inject) i) := by
    intro i hi
    obtain ⟨ch, hch, htarget⟩ := Pipeline.mem_inputs.mp hi
    refine hb.accepted_fills hp hc hinject hch fun y hy hk => ih _ ?_ y hy rfl
    have := (hp.edge_of_writer (List.mem_of_getElem? hch) hk).1
    rwa [htarget] at this
  have hread : Fills (Deed.endedDry (deedsOf x.key c.history) ∧ c.Completes p inject)
      (Deed.reads (deedsOf x.key c.history)) (p.input inject (p.results inject) x.key.id) := by
    have hin : (p.wiring ⟨x.key.id, 0⟩).inputs = (p.wiring x.key).inputs := rfl
    rw [Pipeline.input, hin]
    rcases hb.reads_eq hp hs hc hx with ⟨hi, hread⟩ | ⟨i, hi, hread⟩
    · rw [hi, hread]
      exact ⟨List.nil_prefix, fun _ => rfl⟩
    · have hfills := hinput i (hi ▸ List.mem_singleton_self i)
      rw [hi, hread, List.flatMap_singleton]
      refine ⟨(List.take_prefix _ _).trans hfills.start, fun ⟨hdry, hwhole⟩ => ?_⟩
      -- after a clean end nothing is left in the row set
      have hclean : EndedClean c.history x.key := ⟨hwhole.done x hx, hdry⟩
      have hdone := hc.drained x.key hclean i (hi ▸ List.mem_singleton_self i)
      rw [(Shared.front_eq_done_iff.mp hdone).2, List.take_length]
      exact hfills.all hwhole
  constructor
  · obtain ⟨feed, hfeeds, hwrites⟩ := hhonours.accounts.loses
    exact hwrites.trans (play_mono _ (hfeeds.prefix_rows hread.start))
  · intro hwhole
    have hleft := mem_deedsOf.mpr (hwhole.done x hx)
    obtain ⟨feed, -, hfeeds, hwrites, -, hcomplete⟩ :=
      (hhonours.accounts.closed hkept.stands hleft).done hleft
    rw [hwrites, hfeeds.eq_rows hcomplete fun hdry => hread.all ⟨hdry, hwhole⟩]
    rfl

theorem Books.sequence_fills (hp : p.WellFormed) (hs : p.SingleFile) (hc : c.Custody p)
    (hb : c.Books p true) (hinject : c.Injects p inject) {i : Nat} (hi : i < p.channels.length) :
    Fills (c.Completes p inject) (c.shared.accepted i) (p.sequence inject i) := by
  obtain ⟨order, hord⟩ := hc.crew.ordered
  exact hb.accepted_fills hp hc hinject (List.getElem?_eq_getElem hi) fun x hx _ =>
    hb.written_fills hp hord hs hc hinject _ x hx rfl

theorem Completes.injects (h : c.Completes p inject) : c.Injects p inject := fun x hx => by
  rw [h.injected x hx]

/-- **Exact order.** In a pipeline of built-in transforms that have one copy each and read one row
set at most, whatever the order of steps: at any time every row set has accepted a prefix of the
rows that it gets if the transforms are evaluated one after the other, and exactly these rows if all
rows have come and all workers have ended with status `Done`. So two runs that come to this end with
the same rows from outside agree on all row sets. -/
theorem exact_order {o : Orchestrator Builtin} (hnew : Orchestrator.new p (.builtins id) = .ok o)
    (hs : p.SingleFile) (inject : String → List Entry) {hooks hooks' : Hooks}
    {bindings bindings' : Table String} (events events' : List Event)
    (hr : ((begin o hooks bindings).run events).Running)
    (hr' : ((begin o hooks' bindings').run events').Running) :
    (((begin o hooks bindings).run events).Injects p inject → ∀ i < p.channels.length,
      ((begin o hooks bindings).run events).shared.accepted i <+: p.sequence inject i) ∧
    (((begin o hooks bindings).run events).Completes p inject → ∀ i < p.channels.length,
      ((begin o hooks bindings).run events).shared.accepted i = p.sequence inject i) ∧
    (((begin o hooks bindings).run events).Completes p inject →
      ((begin o hooks' bindings').run events').Completes p inject → ∀ i < p.channels.length,
      ((begin o hooks bindings).run events).shared.accepted i =
        ((begin o hooks' bindings').run events').shared.accepted i) := by
  have hp := Pipeline.wellFormed_of_validationErrors (Orchestrator.new_ok hnew).1
  obtain ⟨hc, hb⟩ := books true hnew (fun _ => hs.copies) events hr
  obtain ⟨hc', hb'⟩ := books true hnew (fun _ => hs.copies) events' hr'
  refine ⟨fun hinject i hi => ?_, fun hend i hi => ?_, fun hend hend' i hi => ?_⟩
  · exact (hb.sequence_fills hp hs hc hinject hi).start
  · exact (hb.sequence_fills hp hs hc hend.injects hi).all hend
  · rw [(hb.sequence_fills hp hs hc hend.injects hi).all hend,
      (hb'.sequence_fills hp hs hc' hend'.injects hi).all hend']

/-- Another order of the steps of the relay: its workers take turns. -/
def Relay.turns : List Event :=
  events.take 5 ++ (List.replicate 40 [Event.step 1, .step 0]).flatten

theorem exact_order_relay : Relay.pipeline.sequence (fun _ => [Relay.entry]) 0 = [Relay.entry] ∧
    Relay.finished.shared.accepted 0 = Relay.pipeline.sequence (fun _ => [Relay.entry]) 0 ∧
    Relay.finished.shared.accepted 0 =
      ((begin Relay.orchestrator Hooks.none .empty).run Relay.turns).shared.accepted 0 :=
  have hend : Relay.finished.Completes Relay.pipeline fun _ => [Relay.entry] :=
    ⟨by decide +kernel, by decide +kernel⟩
  have h := exact_order Relay.new_ok ⟨by decide, by decide⟩ (fun _ => [Relay.entry]) Relay.events
    Relay.turns Relay.running ⟨4, by decide +kernel⟩
  ⟨by decide +kernel, h.2.1 hend 0 (by decide), h.2.2 hend ⟨by decide +kernel, by decide +kernel⟩ 0
    (by decide)⟩

end Course

end Rowflow
