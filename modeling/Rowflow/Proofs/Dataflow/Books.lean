import Rowflow.Proofs.Course.CleanEnd
import Rowflow.Proofs.Dataflow.Account
import Rowflow.Proofs.Transform.BuiltinConduct

/-!
# The books of a run of built-in transforms

In a run whose transforms are built in, every worker keeps its account as the conduct of its
transform says, and the row sets have accepted and delivered nothing but what the deeds of the
workers say, apart from what is injected. This is `Course.Books`; `Course.books` proves it for every
running course, together with its custody, which needs no assumption here: the built-in transforms
make up no stop errors.

Limits on the number of diverted rows count for all copies of a transform together. The books are
kept with limits if every transform has one copy, and else without.
-/

namespace Rowflow

/-! ### Before the start -/

/-- The worker has not come to a step that matters to others. -/
inductive Phase.Silent {σ : Type} : Phase σ → Prop where
  | run (plan : Plan σ (Except TransformError Unit)) (silent : plan.Silent) :
      Silent (.initializing (.run plan))
  | done (result : Except TransformError Unit) : Silent (.initializing (.done result))
  | initialized (result : Except TransformError Unit) : Silent (.initialized result)
  | starting : Silent .starting

theorem Phase.Silent.step {σ : Type} [Transform σ] {x : Worker σ} (h : x.phase.Silent)
    (hx : x.IsEarly) (s : Shared) :
    ((x.step s).1.rowSets = s.rowSets ∧ (x.step s).1.errorCounts = s.errorCounts) ∧
      ∃ phase, (x.step s).2 = { x with phase } ∧ phase.Silent := by
  obtain ⟨c, state, phase⟩ := x
  cases h
  case run plan silent =>
    cases silent
    case finish answer => exact ⟨⟨rfl, rfl⟩, _, rfl, .done answer⟩
    case look next rest => exact ⟨⟨rfl, rfl⟩, _, rfl, .run _ (rest _)⟩
  case done result => exact ⟨⟨rfl, rfl⟩, _, rfl, .initialized result⟩
  case initialized result => exact ⟨⟨rfl, rfl⟩, _, rfl, .initialized result⟩
  case starting => rcases hx with ⟨a, ha⟩ | ⟨r, hr⟩ <;> cases ‹_›

/-- A worker that has done nothing with a transform that has just been made. -/
structure Worker.Blank (x : Worker Builtin) : Prop where
  state : Builtin.ofSpec x.context.spec = .ok x.state
  coherent : x.context.Coherent
  turn : x.context.nextOutput = 0
  silent : x.phase.Silent

/-- A world in which no worker has done anything. -/
structure World.Blank (p : Pipeline) (w : World Builtin) : Prop where
  workers : ∀ x ∈ w.workers, x.Blank
  accepted : ∀ i ch k, p.channels[i]? = some ch → ch.writer? = some k → w.shared.accepted i = []
  delivered : ∀ i, w.shared.delivered i = 0
  counts : w.shared.errorCounts = .replicate p.transforms.length 0

/-- **A preparation** leaves a world blank. -/
theorem World.Blank.early {p : Pipeline} {ts : TransformMap Builtin}
    (hts : ∀ id r n b, ts.find? id = some r → r.instantiate n = .ok b →
      Builtin.ofSpec r.spec = .ok b) : Early p ts (World.Blank p) where
  laid w hw hr hc := by
    have hrow : ∀ i, w.shared.rowSet? i = (p.channels[i]?).map (Channel.rowSet p.engine.capacity) := by
      intro i
      unfold Shared.rowSet?
      rw [hr, List.getElem?_toArray, Pipeline.rowSets, List.getElem?_map]
    refine ⟨fun x hx => ?_, fun i ch k hi _ => ?_, fun i => ?_, hc⟩
    · rw [hw] at hx
      exact absurd hx (Array.not_mem_empty x)
    · unfold Shared.accepted
      rw [hrow, hi]
      rcases ch with _ | _ | _ <;> rfl
    · unfold Shared.delivered
      rw [hrow]
      rcases p.channels[i]? with _ | _ | _ | _ <;> rfl
  like w w' hl h := by
    refine ⟨fun x hx => ?_, fun i ch k hi hk => ?_, fun i => ?_, hl.errorCounts.trans h.counts⟩
    · rw [hl.workers] at hx
      exact h.workers x hx
    · rw [Shared.accepted_congr hl.rowSets]
      exact h.accepted i ch k hi hk
    · rw [Shared.delivered_congr hl.rowSets]
      exact h.delivered i
  enrolled w k r n state hr hspec hk hi h := by
    refine ⟨fun x hx => ?_, h.accepted, h.delivered, h.counts⟩
    rcases Array.mem_push.mp hx with hx | rfl
    · exact h.workers x hx
    · exact ⟨hts k.id r n state hr hi, Context.coherent_new _ _ _ _, rfl,
        .run _ (Builtin.silent_init state)⟩
  stepped w i x hi hx _ h := by
    have hblank := h.workers x (Array.mem_of_getElem? hi)
    obtain ⟨⟨hrows, hcounts⟩, phase, hstep, hsilent⟩ := hblank.silent.step hx w.shared
    rw [World.step_of_getElem? hi, hstep]
    refine ⟨fun y hy => ?_, fun j ch k hj hk => ?_, fun j => ?_, hcounts.trans h.counts⟩
    · rcases Array.mem_or_eq_of_mem_setIfInBounds hy with hy | rfl
      · exact h.workers y hy
      · exact ⟨hblank.state, hblank.coherent, hblank.turn, hsilent⟩
    · exact (Shared.accepted_congr hrows).trans (h.accepted j ch k hj hk)
    · exact (Shared.delivered_congr hrows).trans (h.delivered j)
  heard w id l h := by
    refine ⟨fun x hx => ?_, h.accepted, h.delivered, h.counts⟩
    obtain ⟨y, hy, rfl⟩ := Array.mem_map.mp hx
    obtain ⟨h1, h2, h3, h4⟩ := h.workers y hy
    unfold Worker.hear
    split
    · exact ⟨h1, h2, h3, h4⟩
    · exact ⟨h1, h2, h3, h4⟩
  injected w i t e hi ha h := by
    have hact : (w.shared.accept i e).rowSets = Deed.act? w.shared.rowSets (some (.gave i e)) := rfl
    have he : ∀ x ∈ some (Deed.gave i e), x.Enabled w.shared := by
      rintro x ⟨⟩
      exact ha
    refine ⟨h.workers, fun j ch k hj hk => ?_, fun j => ?_, h.counts⟩
    · have hij : i ≠ j := by
        rintro rfl
        rw [hi] at hj
        cases hj
        cases hk
      rw [Shared.accepted_act hact j he, h.accepted j ch k hj hk]
      simp [Deed.givenTo, hij]
    · rw [Shared.delivered_act hact j he, h.delivered j]
      rfl
  finished w i t hi h := by
    have hact : (w.shared.finish i).rowSets = Deed.act? w.shared.rowSets (some (.closed i)) := rfl
    have he : ∀ x ∈ some (Deed.closed i), x.Enabled w.shared := by
      rintro x ⟨⟩
      trivial
    refine ⟨h.workers, fun j ch k hj hk => ?_, fun j => ?_, h.counts⟩
    · rw [Shared.accepted_act hact j he, h.accepted j ch k hj hk]
      rfl
    · rw [Shared.delivered_act hact j he, h.delivered j]
      rfl
  launched w h := by
    refine ⟨fun x hx => ?_, h.accepted, h.delivered, h.counts⟩
    obtain ⟨y, hy, rfl⟩ := Array.mem_map.mp hx
    obtain ⟨h1, h2, h3, -⟩ := h.workers y hy
    exact ⟨h1, h2, h3, .starting⟩

/-! ### While the workers run -/

theorem sentTo_writes (i : Nat) (d : Option Deed) (ds : List Deed) :
    sentTo i (Deed.writes (d.toList ++ ds)) =
      sentTo i (Deed.writes ds) ++ (d.map (·.givenTo i)).getD [] := by
  rcases d with _ | d
  · simp
  · cases d
    case gave j e =>
      show sentTo i (Deed.writes ds ++ [(j, e)]) = _
      rw [sentTo_append]
      by_cases hj : j = i <;> simp [sentTo, Deed.givenTo, hj]
    all_goals exact (List.append_nil _).symm

/-- The worker keeps its account as the conduct of its transform says. -/
structure Worker.Honours (limited : Bool) (s : Shared) (ds : List Deed) (x : Worker Builtin)
    (made : Builtin) : Prop where
  origin : Builtin.ofSpec x.context.spec = .ok made
  coherent : x.context.Coherent
  accounts : x.phase.Accounts made.role (x.context.outlet limited) (x.context.marks limited s) ds
    x.context x.state

namespace Course

variable {p : Pipeline} {c c' : Course Builtin} {limited : Bool}

/-- What holds of a running course whose transforms are built in. -/
structure Books (p : Pipeline) (limited : Bool) (c : Course Builtin) : Prop where
  accounts : ∀ x ∈ c.workers, ∃ made, x.Honours limited c.shared (deedsOf x.key c.history) made
  accepted : ∀ i ch k, p.channels[i]? = some ch → ch.writer? = some k →
    c.shared.accepted i = sentTo i (Deed.writes (deedsOf k c.history))
  delivered : ∀ i, (c.shared.accepted i).take (c.shared.delivered i) = taken i c.history
  slots : c.shared.errorCounts.size = p.transforms.length
  honest : HonestStops c.history

theorem Launched.books (h : c.Launched p) (hw : c.world.Blank p) : c.Books p limited where
  accounts x hx := by
    obtain ⟨hmade, hcoherent, hturn, -⟩ := hw.workers x hx
    refine ⟨x.state, hmade, hcoherent, ?_⟩
    rw [h.starting x hx, h.history]
    refine ⟨[], ⟨?_, rfl, {}, rfl, hturn.symm, ?_⟩, Builtin.ready_of_ofSpec hmade⟩
    · show x.state.conduct.Feeds [] []
      rcases hconduct : x.state.conduct with rows | verdict
      · exact ⟨List.nil_prefix, rfl⟩
      · rfl
    · intro n hn
      unfold Context.marks at hn
      rcases limited with _ | _
      · cases hn
      · obtain ⟨r, -, rfl⟩ := Option.map_eq_some_iff.mp hn
        show (0 : UInt64) = ((c.world.shared.errorCounts)[r.slot]?).getD 0
        rw [hw.counts, Array.getElem?_replicate]
        split <;> rfl
  accepted i ch k hi hk := by
    rw [h.history]
    exact hw.accepted i ch k hi hk
  delivered i := by
    have hzero : c.shared.delivered i = 0 := hw.delivered i
    rw [h.history, hzero]
    rfl
  slots := by
    show c.world.shared.errorCounts.size = _
    rw [hw.counts, Array.size_replicate]
  honest := by
    rw [h.history]
    trivial

/-- What comes from outside goes into the row sets for injected rows. -/
theorem Outside.books {d : Option Deed} (h : c.Outside c' d) (hc : c.Custody p)
    (hb : c.Books p limited) : c'.Books p limited where
  accounts x hx := by
    rw [h.workers] at hx
    obtain ⟨made, h1, h2, h3⟩ := hb.accounts x hx
    have hmarks : x.context.marks limited c'.shared = x.context.marks limited c.shared :=
      Context.marks_congr rfl rfl h.errorCounts
    rw [h.history]
    exact ⟨made, h1, h2, by rwa [hmarks]⟩
  accepted i ch k hi hk := by
    rw [h.history, ← hb.accepted i ch k hi hk, Shared.accepted_act h.rowSets i h.enabled]
    rcases d with _ | d
    · exact List.append_nil _
    · rcases h.grounds d rfl with ⟨j, e, rfl, hj, -⟩ | ⟨j, rfl, -⟩
      · have hji : j ≠ i := by
          rintro rfl
          obtain ⟨t, ht⟩ := hc.producers j hj
          rw [hi] at ht
          cases ht
          cases hk
        simp [Deed.givenTo, hji]
      · simp [Deed.givenTo]
  delivered i := by
    rw [h.history]
    refine Shared.log_act [] h.rowSets h.enabled (hb.delivered i) ?_
    rcases d with _ | d
    · exact (List.append_nil _).symm
    · rcases h.grounds d rfl with ⟨j, e, rfl, -⟩ | ⟨j, rfl, -⟩ <;> exact (List.append_nil _).symm
  slots := by rw [h.errorCounts, hb.slots]
  honest := by
    rw [h.history]
    exact hb.honest

/-- Where every transform has one copy, workers count their errors at different places. -/
theorem slot_ne (hp : p.WellFormed) (hsingle : ∀ t ∈ p.transforms, t.copies = 1)
    {s : Shared} {x y : Context} (hx : x.Wired p s) (hy : y.Wired p s) (hne : x.key ≠ y.key)
    {r r' : ErrorRoute} (hr : r ∈ x.errors) (hr' : r' ∈ y.errors) : r.slot ≠ r'.slot := by
  intro heq
  rw [(hx.slot hp hr).1, (hy.slot hp hr').1] at heq
  obtain ⟨t, ht⟩ := Pipeline.transform?_of_copiesOf hx.worker
  obtain ⟨t', ht'⟩ := Pipeline.transform?_of_copiesOf hy.worker
  have hcopy := hp.copy_lt hx.worker ht
  have hcopy' := hp.copy_lt hy.worker ht'
  have hid : x.key.id = y.key.id :=
    (List.idxOf_inj (Pipeline.mem_ids.mpr ⟨t, Pipeline.transform?_mem ht⟩)).mp heq
  rw [hsingle t (Pipeline.transform?_mem ht).1] at hcopy
  rw [hsingle t' (Pipeline.transform?_mem ht').1] at hcopy'
  have hnum : x.key.copy = y.key.copy := by omega
  generalize x.key = k at hid hnum hne
  generalize y.key = k' at hid hnum hne
  obtain ⟨id, copy⟩ := k
  obtain ⟨id', copy'⟩ := k'
  exact hne (by rw [show id = id' from hid, show copy = copy' from hnum])

section Stepped

variable {i : Nat} {x : Worker Builtin} (h : c.Stepped c' i x)
include h

theorem Stepped.books (hp : p.WellFormed) (hsingle : limited = true → ∀ t ∈ p.transforms, t.copies = 1)
    (hc : c.Custody p) (hb : c.Books p limited) : c'.Books p limited where
  accounts y hy := by
    have hkept := hc.kept x h.mem
    rw [h.history]
    rcases h.cases hc.crew hy with rfl | ⟨hy, hne⟩
    · obtain ⟨made, h1, h2, h3⟩ := hb.accounts x h.mem
      have hkey : (x.step c.shared).2.key = x.key := h.effect.leads.key
      have hslot : ∀ e ∈ x.context.errors, e.slot < c.shared.errorCounts.size := by
        intro e he
        rw [hb.slots]
        exact (hkept.wired.slot hp he).2
      refine ⟨made, ?_, h.effect.leads.coherent h2, ?_⟩
      · rw [h.effect.leads.spec]
        exact h1
      · rw [hkey, deedsOf_grow, h.effect.leads.outlet, h.shared]
        exact Worker.accounts_step made.conforms hkept h2 hslot h3
    · obtain ⟨made, h1, h2, h3⟩ := hb.accounts y hy
      -- nobody else counts the failing rows of the only copy
      have hmarks : y.context.marks limited c'.shared = y.context.marks limited c.shared := by
        unfold Context.marks
        rcases limited with _ | _
        · rfl
        · rcases he : y.context.errors with _ | r
          · rfl
          · dsimp only [if_true, Option.map_some]
            rw [h.effect.counts r.slot fun r' hr' => slot_ne hp (hsingle rfl) hkept.wired
              (hc.kept y hy).wired hne hr' (by rw [he]; rfl)]
      refine ⟨made, h1, h2, ?_⟩
      rw [deedsOf_grow_of_ne hne, hmarks]
      exact h3
  accepted j ch k hj hk := by
    have hkept := hc.kept x h.mem
    have henabled := fun d (hd : d ∈ x.deed? c.shared) => (Worker.deed?_grounds hkept.aims hd).enabled
    rw [h.history, Shared.accepted_act h.effect.rowSets j henabled, hb.accepted j ch k hj hk]
    by_cases hkx : x.key = k
    · subst hkx
      rw [deedsOf_grow, sentTo_writes]
    · rw [deedsOf_grow_of_ne hkx]
      -- only its writer gives to a row set
      rcases hd : x.deed? c.shared with _ | d
      · exact List.append_nil _
      · cases d
        case gave i' e =>
          have hne : i' ≠ j := by
            rintro rfl
            obtain ⟨ch', hch', hk'⟩ :=
              (hkept.wired.written hp).mp (Worker.deed?_grounds hkept.aims hd).1
            rw [hj] at hch'
            cases hch'
            rw [hk] at hk'
            exact hkx (Option.some.inj hk').symm
          simp [Deed.givenTo, hne]
        all_goals exact List.append_nil _
  delivered j := by
    have hkept := hc.kept x h.mem
    refine Shared.log_act [] h.effect.rowSets
      (fun d hd => (Worker.deed?_grounds hkept.aims hd).enabled) (hb.delivered j) ?_
    rw [h.history, taken_grow]
  slots := by rw [h.effect.slots, hb.slots]
  honest := by
    rw [h.history]
    refine hb.honest.grow fun e hd hs => ?_
    have hphase := Worker.deed?_leads hd
    obtain ⟨made, -, -, haccounts⟩ := hb.accounts x h.mem
    generalize x.phase = phase at hphase haccounts
    cases hphase
    case operation hop => exact absurd hop id
    case answered =>
      -- a built-in transform answers with a stop error only if it has been refused with one
      cases haccounts
      case ended answers =>
        cases answers
        case bad => cases hs
        case lost stop =>
          obtain ⟨e', he', hs'⟩ := stop hs
          exact ⟨x.key, e', mem_deedsOf.mp he', hs'⟩

end Stepped

/-- **All running courses** of built-in transforms are in custody and have their books kept: with
limits if every transform has one copy. -/
theorem books (limited : Bool) {o : Orchestrator Builtin} {hooks : Hooks} {bindings : Table String}
    (hnew : Orchestrator.new p (.builtins id) = .ok o)
    (hsingle : limited = true → ∀ t ∈ p.transforms, t.copies = 1) (events : List Event)
    (hr : ((begin o hooks bindings).run events).Running) :
    ((begin o hooks bindings).run events).Custody p ∧
      ((begin o hooks bindings).run events).Books p limited := by
  have hp := Pipeline.wellFormed_of_validationErrors (Orchestrator.new_ok hnew).1
  have hts : ∀ id r n b, o.transforms.find? id = some r → r.instantiate n = .ok b →
      Builtin.ofSpec r.spec = .ok b := fun _ _ _ _ hr hb => Orchestrator.builtin_of_new hnew hr hb
  refine of_running (P := fun c => c.Custody p ∧ c.Books p limited) hnew
    ((World.Unspoilt.early o.transforms).and (World.Blank.early hts)) ?_ ?_ ?_ events hr
  · intro c _ hl hw
    exact ⟨hl.custody hp hw.1, hl.books hw.2⟩
  · intro c c' d h hc
    exact ⟨h.custody hp hc.1, h.books hc.1 hc.2⟩
  · intro c c' i x h hc
    exact ⟨h.custody hp hc.1 hc.2.honest, h.books hp hsingle hc.1 hc.2⟩

end Course

/-! ### The end of a run that is not stopped -/

/-- No rows go to a transform that generates rows: neither along a hop, nor failing ones, nor from
outside. -/
structure Pipeline.SourcesUnfed (p : Pipeline) : Prop where
  hops : ∀ t ∈ p.transforms, t.type = "generate_rows" → ∀ h ∈ p.enabledHops, h.target ≠ t.id
  errors : ∀ t ∈ p.transforms, t.type = "generate_rows" → ∀ s ∈ p.transforms,
    ∀ h ∈ s.errorHandling, h.target ≠ t.id
  inject : ∀ t ∈ p.transforms, t.type = "generate_rows" → t.inject = false

theorem Pipeline.SourcesUnfed.target_ne {p : Pipeline} (hp : p.WellFormed) (h : p.SourcesUnfed)
    {ch : Channel} (hch : ch ∈ p.channels) {t : TransformSpec} (ht : t ∈ p.transforms)
    (htype : t.type = "generate_rows") : ch.target ≠ t.id := by
  rcases mem_channels.mp hch with ⟨hop, hh, k', -, rfl⟩ | ⟨s, hs, eh, heh, k', -, rfl⟩ |
    ⟨s, hs, hi, rfl⟩
  · exact h.hops t ht htype hop hh
  · exact h.errors t ht htype s hs eh heh
  · intro hid
    obtain rfl : s = t := hp.transform_eq hs ht hid
    rw [h.inject s hs htype] at hi
    cases hi

namespace Course

variable {p : Pipeline} {c : Course Builtin} {limited : Bool}

theorem Custody.left_done (hc : c.Custody p) (hstop : c.shared.stopped = false)
    {y : Worker Builtin} (hy : y ∈ c.workers) (hended : y.hasEnded = true) :
    Deed.left .done ∈ deedsOf y.key c.history := by
  have hstands := (hc.kept y hy).stands
  rw [Worker.phase_of_hasEnded hended] at hstands
  obtain ⟨st, hg, -⟩ := hstands
  by_cases hst : st = .done
  · rw [← hst]
    exact hg.left
  · rw [hg.stopped hst] at hstop
    cases hstop

/-- It has drained its inputs, unless it is a source. -/
theorem Books.drained (hb : c.Books p limited) (hc : c.Custody p)
    (hstop : c.shared.stopped = false) {y : Worker Builtin} (hy : y ∈ c.workers)
    (hended : y.hasEnded = true) (hreader : y.context.spec.type ≠ "generate_rows") :
    ∀ i ∈ (p.wiring y.key).inputs, c.shared.front i = .done := by
  have hleft := hc.left_done hstop hy hended
  obtain ⟨made, horigin, -, haccounts⟩ := hb.accounts y hy
  obtain ⟨feed, t, -, -, -, hcomplete⟩ :=
    (haccounts.closed (hc.kept y hy).stands hleft).done hleft
  refine hc.drained y.key ⟨mem_deedsOf.mp hleft, ?_⟩
  rcases hconduct : made.conduct with rows | verdict
  · exact absurd (Builtin.type_of_source horigin hconduct) hreader
  · have : made.role.conduct = .reader verdict := hconduct
    rwa [this] at hcomplete

end Course

end Rowflow
