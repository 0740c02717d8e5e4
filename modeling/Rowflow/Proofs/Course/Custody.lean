import Rowflow.Proofs.Course.Launch

/-!
# Custody

While the workers run, every worker keeps its row sets open as long as it goes on calling its
transform, and closes them only after it has left; it leaves with a status other than `Done` only
when the run is stopped. An input that a worker has given up has ended. This is `Worker.Kept`, which
the steps of the worker itself (`Worker.Kept.step`) and everything else (`Worker.Kept.frame`) keep.
-/

namespace Rowflow

variable {σ : Type}

/-! ### Wiring -/

/-- The context belongs to a worker of the pipeline, which has given it its spec, its outputs and its
error route. -/
structure Context.Rooted (p : Pipeline) (c : Context) : Prop where
  worker : c.key ∈ p.copiesOf c.key.id
  origin : ∃ c₀, p.context? c.key = some c₀ ∧ c.spec = c₀.spec ∧ c.outputs = c₀.outputs ∧
    c.errors.map ErrorRoute.fixed = c₀.errors.map ErrorRoute.fixed

/-- The context has the wiring that the pipeline gives it, and every input that is missing has
ended. -/
structure Context.Wired (p : Pipeline) (s : Shared) (c : Context) : Prop
    extends Context.Rooted p c where
  inputs : ∀ i ∈ c.inputs, i ∈ (p.wiring c.key).inputs
  dropped : ∀ i ∈ (p.wiring c.key).inputs, i ∉ c.inputs → s.front i = .done

namespace Context

variable {p : Pipeline} {s s' : Shared} {c c' : Context}

theorem Rooted.new {k : WorkerKey} (hc : p.context? k = some c) (hk : k ∈ p.copiesOf k.id) :
    c.key = k ∧ c.Rooted p := by
  obtain ⟨spec, hspec, rfl⟩ := Option.map_eq_some_iff.mp hc
  have hkey : (Context.new spec k.copy (p.wiring k) (p.slot k.id)).key = k :=
    congrArg (WorkerKey.mk · k.copy) (Pipeline.transform?_mem hspec).2
  refine ⟨hkey, ?_, ⟨_, ?_, rfl, rfl, rfl⟩⟩ <;> rwa [hkey]

theorem Rooted.transform?_eq (h : c.Rooted p) : p.transform? c.key.id = some c.spec := by
  obtain ⟨c₀, hc₀, hspec, -⟩ := h.origin
  obtain ⟨t, ht, rfl⟩ := Option.map_eq_some_iff.mp hc₀
  rw [hspec]
  exact ht

theorem Rooted.leads (h : c.Rooted p) (hl : c.Leads s c') : c'.Rooted p := by
  obtain ⟨c₀, hc₀, hspec, hout, herr⟩ := h.origin
  refine ⟨?_, c₀, ?_, hl.spec.trans hspec, hl.outputs.trans hout, hl.errors.trans herr⟩
  · rw [hl.key]
    exact h.worker
  · rwa [hl.key]

theorem Rooted.written (h : c.Rooted p) (hp : p.WellFormed) {i : Nat} :
    i ∈ c.written ↔ ∃ ch, p.channels[i]? = some ch ∧ ch.writer? = some c.key := by
  obtain ⟨c₀, hc₀, -, hout, herr⟩ := h.origin
  have he : c.errors.map (·.rowSet) = c₀.errors.map (·.rowSet) := by
    have := congrArg (Option.map Prod.fst) herr
    simpa only [Option.map_map, Function.comp_def, ErrorRoute.fixed] using this
  have hw : c.written = c₀.written := by
    unfold Context.written
    rw [hout, he]
  rw [hw]
  exact hp.written_context hc₀ h.worker

theorem Rooted.output (h : c.Rooted p) {t : String} {i : Nat} (hi : (t, i) ∈ c.outputs) :
    p.channels[i]? = some (.hop c.key t) := by
  obtain ⟨c₀, hc₀, -, hout, -⟩ := h.origin
  obtain ⟨spec, -, rfl⟩ := Option.map_eq_some_iff.mp hc₀
  rw [hout] at hi
  exact Pipeline.mem_outputs.mp hi

/-- The error route of a worker: its row set is the one that the channels name, its errors are
counted at the place of its transform, and its handling is that of its transform. -/
theorem Rooted.route (h : c.Rooted p) (hp : p.WellFormed) {r : ErrorRoute} (hr : r ∈ c.errors) :
    c.spec.errorHandling = some r.diversion.handling ∧ r.slot = p.slot c.key.id ∧
      p.channels[r.rowSet]? = some (.errors c.key r.diversion.handling.target) := by
  obtain ⟨c₀, hc₀, hspec, -, herr⟩ := h.origin
  rw [hspec]
  rcases hp.context_errors hc₀ h.worker with ⟨h1, -⟩ | ⟨i, eh, h1, heh, hi⟩
  · rw [h1, Option.mem_def.mp hr] at herr
    cases herr
  · rw [h1, Option.mem_def.mp hr] at herr
    obtain ⟨rfl, hslot, -, rfl⟩ : r.rowSet = i ∧ r.slot = p.slot c.key.id ∧
        r.diversion.transform = c.key.id ∧ r.diversion.handling = eh := by
      simpa [ErrorRoute.fixed] using herr
    exact ⟨heh, hslot, hi⟩

theorem Rooted.exists_route (h : c.Rooted p) (hp : p.WellFormed) {eh : ErrorHandling}
    (heh : c.spec.errorHandling = some eh) : ∃ r, r ∈ c.errors ∧ r.diversion.handling = eh := by
  obtain ⟨c₀, hc₀, hspec, -, herr⟩ := h.origin
  rcases hp.context_errors hc₀ h.worker with ⟨-, h2⟩ | ⟨i, eh', h1, -⟩
  · rw [hspec, h2] at heh
    cases heh
  · rw [h1] at herr
    obtain ⟨r, hr, -⟩ := Option.map_eq_some_iff.mp herr
    refine ⟨r, hr, ?_⟩
    have := (h.route hp hr).1
    rw [heh] at this
    exact (Option.some.inj this).symm

theorem Rooted.slot_lt (h : c.Rooted p) : p.slot c.key.id < p.transforms.length := by
  obtain ⟨t, ht⟩ := Pipeline.transform?_of_copiesOf h.worker
  have hmem : c.key.id ∈ p.ids := Pipeline.mem_ids.mpr ⟨t, Pipeline.transform?_mem ht⟩
  have hlt := List.idxOf_lt_length_of_mem hmem
  rwa [Pipeline.ids, List.length_map] at hlt

namespace Wired

theorem new {k : WorkerKey} (hc : p.context? k = some c) (hk : k ∈ p.copiesOf k.id) :
    c.Wired p s := by
  obtain ⟨hkey, hrooted⟩ := Rooted.new hc hk
  have hinputs : c.inputs = (p.wiring c.key).inputs := by
    obtain ⟨spec, hspec, rfl⟩ := Option.map_eq_some_iff.mp hc
    rw [hkey]
    rfl
  refine ⟨hrooted, fun i hi => ?_, fun i hi hn => ?_⟩
  · rwa [← hinputs]
  · rw [← hinputs] at hi
    exact absurd hi hn

theorem slot (h : c.Wired p s) (hp : p.WellFormed) {r : ErrorRoute} (hr : r ∈ c.errors) :
    r.slot = p.slot c.key.id ∧ r.slot < p.transforms.length := by
  obtain ⟨-, hslot, -⟩ := h.route hp hr
  exact ⟨hslot, hslot ▸ h.slot_lt⟩

/-- What ends stays ended, and nothing but that matters to the wiring of others. -/
theorem frame (h : c.Wired p s) {d : Option Deed} (hact : s'.rowSets = Deed.act? s.rowSets d)
    (he : ∀ x ∈ d, x.Enabled s) : c.Wired p s' :=
  ⟨h.toRooted, h.inputs, fun i hi hn => Shared.front_done_act hact i he (h.dropped i hi hn)⟩

theorem step (h : c.Wired p s) {d : Option Deed} (heffect : Context.Effect s s' c c' d)
    (he : ∀ x ∈ d, x.Enabled s) : c'.Wired p s' := by
  have hkey : c'.key = c.key := heffect.leads.key
  refine ⟨h.toRooted.leads heffect.leads, fun i hi => ?_, fun i hi hn => ?_⟩
  · rw [hkey]
    exact h.inputs i (heffect.leads.inputs.subset hi)
  · rw [hkey] at hi
    refine Shared.front_done_act heffect.rowSets i he ?_
    by_cases hc : i ∈ c.inputs
    · exact heffect.leads.dropped i hc hn
    · exact h.dropped i hi hc

end Wired

end Context

/-! ### Where a worker stands -/

/-- What a worker's deeds say while it may still call its transform: it has not left, and all that
it writes to is open. -/
structure Inside (s : Shared) (c : Context) (ds : List Deed) : Prop where
  stays : ∀ st, Deed.left st ∉ ds
  unsent : ∀ summary, Deed.sent summary ∉ ds
  opened : ∀ i ∈ c.written, s.done i = false

/-- What a worker's deeds say when it has left with a status: it has left once and reports nothing
else, and unless the status is `Done` the run is stopped. -/
structure Gone (s : Shared) (ds : List Deed) (st : WorkerStatus) : Prop where
  left : Deed.left st ∈ ds
  once : ∀ st', Deed.left st' ∈ ds → st' = st
  sent : ∀ summary, Deed.sent summary ∈ ds → summary.status = st
  stopped : st ≠ .done → s.stopped = true

/-- The diversion of a current row: apart from what is written, it ends with errors only that
somebody has been refused with. -/
def Activity.Diverts (h : List (WorkerKey × Deed)) :
    Activity σ (Except TransformError Unit) → Prop
  | .run (.divert _ _ next) => next = .finish
  | .writing _ next => next = .finish
  | .run (.finish r) => ∀ e, r = .error e → ∃ k, (k, Deed.refused e) ∈ h
  | .done r => ∀ e, r = .error e → ∃ k, (k, Deed.refused e) ∈ h
  | .broken _ => True
  | _ => False

/-- A read of the call at hand has been answered with no row only if the run is stopped or all
inputs have ended. -/
def Context.Dries (s : Shared) (c : Context) (ds : List Deed) : Prop :=
  Deed.callIsDry ds → s.stopped = true ∨ c.inputs = []

/-- What holds of the deeds `ds` of a running worker, by its phase. -/
def Phase.Stands (s : Shared) (h : List (WorkerKey × Deed)) (c : Context) (ds : List Deed) :
    Phase σ → Prop
  | .initializing _ | .initialized _ => False
  | .starting | .checking | .failing _ | .crashed _ => Inside s c ds
  | .working _ => Inside s c ds ∧ c.Dries s ds
  | .judging r => Inside s c ds ∧ ∃ older, ds = .answered r :: older ∧ c.Dries s older
  | .diverting _ a => Inside s c ds ∧ a.Diverts h
  | .closing fate rest => ∃ st err, fate = .ran st err ∧ Gone s ds st ∧
      ∀ i ∈ c.written, i ∉ rest → s.done i = true
  | .disposing fate _ => ∃ st err, fate = .ran st err ∧ Gone s ds st ∧
      ∀ i ∈ c.written, s.done i = true
  | .reporting st _ => Gone s ds st ∧ ∀ i ∈ c.written, s.done i = true
  | .sending summary => Gone s ds summary.status ∧
      (s.stopped = true ∨ ∀ i ∈ c.written, s.done i = true)
  | .ended => ∃ st, Gone s ds st ∧ (s.stopped = true ∨ ∀ i ∈ c.written, s.done i = true)

namespace Worker

/-- What holds of every running worker. -/
structure Kept (p : Pipeline) (s : Shared) (h : List (WorkerKey × Deed)) (x : Worker σ) : Prop where
  wired : x.context.Wired p s
  aims : x.Aims
  stands : x.phase.Stands s h x.context (Course.deedsOf x.key h)

theorem phase_of_hasEnded {x : Worker σ} (h : x.hasEnded = true) : x.phase = .ended := by
  unfold hasEnded at h
  split at h
  · assumption
  · cases h

theorem Kept.transform?_eq {p : Pipeline} {s : Shared} {h : List (WorkerKey × Deed)} {x : Worker σ}
    (hx : x.Kept p s h) : p.transform? x.key.id = some x.context.spec := hx.wired.transform?_eq

end Worker

/-! ### What others do -/

section Frame

variable {s s' : Shared} {c : Context} {ds : List Deed} {d : Option Deed}
  {h h' : List (WorkerKey × Deed)}

theorem Inside.frame (hi : Inside s c ds) (hact : s'.rowSets = Deed.act? s.rowSets d)
    (hopen : ∀ i ∈ c.written, d ≠ some (.closed i)) : Inside s' c ds := by
  refine ⟨hi.stays, hi.unsent, fun i hw => ?_⟩
  rw [← Bool.not_eq_true, Shared.done_act hact i, hi.opened i hw]
  simpa using hopen i hw

theorem Gone.frame {st : WorkerStatus} (hg : Gone s ds st)
    (hstop : s.stopped = true → s'.stopped = true) : Gone s' ds st :=
  ⟨hg.left, hg.once, hg.sent, fun hne => hstop (hg.stopped hne)⟩

theorem Activity.Diverts.mono {a : Activity σ (Except TransformError Unit)} (ha : a.Diverts h)
    (hsub : ∀ x ∈ h, x ∈ h') : a.Diverts h' := by
  have hmono : ∀ {r : Except TransformError Unit},
      (∀ e, r = .error e → ∃ k, (k, Deed.refused e) ∈ h) →
      ∀ e, r = .error e → ∃ k, (k, Deed.refused e) ∈ h' := by
    intro r hr e he
    obtain ⟨k, hk⟩ := hr e he
    exact ⟨k, hsub _ hk⟩
  rcases a with plan | ⟨stage, next⟩ | ⟨del, next⟩ | ⟨deadline, next⟩ | answer | p
  case run =>
    cases plan
    case finish => exact hmono ha
    case divert => exact ha
    all_goals exact ha
  case done => exact hmono ha
  all_goals exact ha

theorem Context.Dries.frame (hd : c.Dries s ds) (hstop : s.stopped = true → s'.stopped = true) :
    c.Dries s' ds := fun hdry => (hd hdry).imp_left hstop

variable (hact : s'.rowSets = Deed.act? s.rowSets d)
include hact

theorem done_mono {l : List Nat} (hl : ∀ i ∈ l, s.done i = true) : ∀ i ∈ l, s'.done i = true :=
  fun i hi => (Shared.done_act hact i).mpr (Or.inl (hl i hi))

/-- **What others do** keeps the worker where it stands, unless they close what it writes to. -/
theorem Worker.Kept.frame {p : Pipeline} {x : Worker σ} (hx : x.Kept p s h)
    (he : ∀ y ∈ d, y.Enabled s) (hstop : s.stopped = true → s'.stopped = true)
    (hds : Course.deedsOf x.key h' = Course.deedsOf x.key h) (hsub : ∀ y ∈ h, y ∈ h')
    (hopen : ∀ i ∈ x.context.written, d ≠ some (.closed i)) : x.Kept p s' h' := by
  refine ⟨hx.wired.frame hact he, hx.aims, ?_⟩
  have hstands := hx.stands
  rw [hds]
  unfold Phase.Stands at hstands ⊢
  split at hstands
  · exact hstands
  · exact hstands
  · exact hstands.frame hact hopen
  · exact hstands.frame hact hopen
  · exact hstands.frame hact hopen
  · exact hstands.frame hact hopen
  · exact ⟨hstands.1.frame hact hopen, hstands.2.frame hstop⟩
  · obtain ⟨hi, older, hds, hdry⟩ := hstands
    exact ⟨hi.frame hact hopen, older, hds, hdry.frame hstop⟩
  · exact ⟨hstands.1.frame hact hopen, hstands.2.mono hsub⟩
  · obtain ⟨st, err, hfate, hg, hdone⟩ := hstands
    exact ⟨st, err, hfate, hg.frame hstop, fun i hi hn =>
      (Shared.done_act hact i).mpr (Or.inl (hdone i hi hn))⟩
  · obtain ⟨st, err, hfate, hg, hdone⟩ := hstands
    exact ⟨st, err, hfate, hg.frame hstop, done_mono hact hdone⟩
  · exact ⟨hstands.1.frame hstop, done_mono hact hstands.2⟩
  · exact ⟨hstands.1.frame hstop, hstands.2.imp hstop (done_mono hact)⟩
  · obtain ⟨st, hg, hdone⟩ := hstands
    exact ⟨st, hg.frame hstop, hdone.imp hstop (done_mono hact)⟩

end Frame

/-! ### What the worker itself does -/

section Step

variable {s s' : Shared} {c c' : Context} {ds : List Deed} {h : List (WorkerKey × Deed)}

theorem Inside.operation (hi : Inside s c ds) {d : Option Deed}
    (heffect : Context.Effect s s' c c' d) (hd : ∀ x ∈ d, x.IsOperation) :
    Inside s' c' (d.toList ++ ds) := by
  have hnot : ∀ x, ¬ x.IsOperation → x ∉ ds → x ∉ d.toList ++ ds := by
    intro x hx hn hm
    rcases List.mem_append.mp hm with hm | hm
    · exact hx (hd x (Option.mem_toList.mp hm))
    · exact hn hm
  refine ⟨fun st => hnot _ id (hi.stays st), fun summary => hnot _ id (hi.unsent summary), ?_⟩
  intro i hw
  rw [heffect.leads.written] at hw
  rw [← Bool.not_eq_true, Shared.done_act heffect.rowSets i, hi.opened i hw]
  rintro (hf | rfl)
  · cases hf
  · exact hd _ rfl

theorem Gone.operation {st : WorkerStatus} (hg : Gone s ds st) {d : Option Deed}
    (hstop : s.stopped = true → s'.stopped = true) (hd : ∀ x ∈ d, x.IsOperation) :
    Gone s' (d.toList ++ ds) st := by
  have hmem : ∀ x, ¬ x.IsOperation → x ∈ d.toList ++ ds → x ∈ ds := by
    intro x hx hm
    rcases List.mem_append.mp hm with hm | hm
    · exact absurd (hd x (Option.mem_toList.mp hm)) hx
    · exact hm
  exact ⟨List.mem_append_right _ hg.left, fun st' hm => hg.once st' (hmem _ id hm),
    fun summary hm => hg.sent summary (hmem _ id hm), fun hne => hstop (hg.stopped hne)⟩

theorem Inside.cons (hi : Inside s c ds) {d : Deed} (hleft : ∀ st, d ≠ .left st)
    (hsent : ∀ summary, d ≠ .sent summary) : Inside s c (d :: ds) := by
  refine ⟨fun st hm => ?_, fun summary hm => ?_, hi.opened⟩
  · rcases List.mem_cons.mp hm with he | hm
    · exact hleft st he.symm
    · exact hi.stays st hm
  · rcases List.mem_cons.mp hm with he | hm
    · exact hsent summary he.symm
    · exact hi.unsent summary hm

theorem Inside.leave (hi : Inside s c ds) {st : WorkerStatus}
    (hst : st ≠ .done → s'.stopped = true) : Gone s' (.left st :: ds) st := by
  refine ⟨List.mem_cons_self, fun st' hm => ?_, fun summary hm => ?_, hst⟩
  · rcases List.mem_cons.mp hm with he | hm
    · cases he
      rfl
    · exact absurd hm (hi.stays st')
  · rcases List.mem_cons.mp hm with he | hm
    · cases he
    · exact absurd hm (hi.unsent summary)

theorem Context.Dries.operation (hdry : c.Dries s ds) {d : Option Deed}
    (heffect : Context.Effect s s' c c' d) (hd : ∀ x ∈ d, x.IsOperation)
    (hgrounds : ∀ x ∈ d, x.Grounds s c) : c'.Dries s' (d.toList ++ ds) := by
  have hstay : s.stopped = true ∨ c.inputs = [] → s'.stopped = true ∨ c'.inputs = [] := by
    rintro (hs | hi)
    · exact Or.inl (heffect.stopped hs)
    · have := heffect.leads.inputs
      rw [hi] at this
      exact Or.inr (List.sublist_nil.mp this)
  intro hcall
  rcases d with _ | d
  · exact hstay (hdry hcall)
  · have hop := hd d rfl
    cases d
    case took => exact hstay (hdry hcall)
    case ranDry => exact hstay (hgrounds _ rfl)
    case gave => exact hstay (hdry hcall)
    case refused => exact hstay (hdry hcall)
    all_goals exact absurd hop id

theorem Activity.Diverts.step {k : WorkerKey} {desk : Activity.Desk σ}
    {a : Activity σ (Except TransformError Unit)} (ha : a.Diverts h) :
    (a.step desk).2.Diverts (Course.grow k (a.deed? desk.shared desk.context) h) := by
  obtain ⟨s, c, state⟩ := desk
  have hmono := fun (a' : Activity σ (Except TransformError Unit)) (ha' : a'.Diverts h) =>
    ha'.mono (fun x hx => Course.mem_grow_of_mem (k := k) (d := a.deed? s c) hx)
  rcases a with plan | ⟨stage, next⟩ | ⟨del, next⟩ | ⟨deadline, next⟩ | answer | p
  case run =>
    cases plan
    case finish r => exact hmono _ ha
    case divert e why next =>
      obtain rfl : next = .finish := ha
      simp only [Activity.step, stepPlan, deed?]
      rcases hr : (c.startDivert s e why).2.2 with p | err | del
      · trivial
      · rintro e ⟨⟩
        exact ⟨k, Course.mem_grow.mpr (Or.inl ⟨rfl, rfl⟩)⟩
      · rfl
    all_goals exact absurd ha id
  case reading => exact absurd ha id
  case writing =>
    obtain rfl : next = .finish := ha
    have hstep := Context.deliver_spec c s del
    simp only [Activity.step, deed?]
    rcases hd : c.deliver s del with ⟨s', c', del' | r | p⟩ <;> rw [hd] at hstep
    · rfl
    · rintro e rfl
      exact ⟨k, Course.mem_grow.mpr (Or.inl ⟨rfl, hstep.refused_of_error⟩)⟩
    · trivial
  case resting => exact absurd ha id
  case done => exact hmono _ ha
  case broken => trivial

variable {p : Pipeline} {x : Worker σ}

theorem Inside.same (hi : Inside s c ds) (hc : c'.written = c.written)
    (hr : s'.rowSets = s.rowSets) : Inside s' c' ds :=
  ⟨hi.stays, hi.unsent, fun i hw => by
    rw [hc] at hw
    rw [Shared.done_congr hr]
    exact hi.opened i hw⟩

theorem Inside.leaving (hi : Inside s c ds) {st : WorkerStatus} {err : Option String}
    (hst : st ≠ .done → s'.stopped = true) :
    (Worker.leave (σ := σ) c (.ran st err)).Stands s' h c (.left st :: ds) :=
  ⟨st, err, rfl, hi.leave hst, fun _ hw hn => absurd hw hn⟩

variable [Transform σ]

/-- **A step of a worker** keeps its deeds in accord with its phase. -/
theorem Worker.stands_step
    (hx : x.phase.Stands s h x.context (Course.deedsOf x.key h)) (haims : x.Aims)
    (hstops : ∀ k e, (k, Deed.refused e) ∈ h → e.isStop = true → s.stopped = true)
    (honest : Course.HonestStops h) :
    (x.step s).2.phase.Stands (x.step s).1 (Course.grow x.key (x.deed? s) h) (x.step s).2.context
      ((x.deed? s).toList ++ Course.deedsOf x.key h) := by
  have hmoves := x.step_moves s
  have hmem : ∀ d, d ∈ Course.deedsOf x.key h → (x.key, d) ∈ h := fun d => Course.mem_deedsOf.mp
  generalize x.key = k, Course.deedsOf x.key h = ds at hx hmem ⊢
  generalize x.deed? s = d, (x.step s).1 = s', (x.step s).2 = y at hmoves ⊢
  obtain ⟨c, state, phase⟩ := x
  have heffect := fun {α : Type} (a : Activity σ α) => Activity.step_does ⟨s, c, state⟩ a
  have hop : ∀ {α : Type} (a : Activity σ α), ∀ d ∈ a.deed? s c, d.IsOperation :=
    fun a d hd => Activity.deed?_isOperation state hd
  cases hmoves
  case initializing => exact absurd hx id
  case initialized => exact absurd hx id
  case uninitialized => exact absurd hx id
  case waits => exact absurd hx id
  case starts => exact Inside.same hx rfl rfl
  case stops flag => exact Inside.leaving hx fun _ => flag
  case begins =>
    have hin : Inside s c ds := hx
    have hbegan : Inside s c (.began :: ds) := hin.cons (fun _ h => by cases h) fun _ h => by cases h
    -- no read of the new call has been answered yet
    exact ⟨hbegan.same rfl rfl, fun hdry => absurd hdry id⟩
  case working a _ =>
    obtain ⟨hin, hdry⟩ : Inside s c ds ∧ c.Dries s ds := hx
    exact ⟨hin.operation (heffect a) (hop a), hdry.operation (heffect a) (hop a) fun d hd =>
      Activity.deed?_grounds haims state hd⟩
  case answers =>
    obtain ⟨hin, hdry⟩ : Inside s c ds ∧ c.Dries s ds := hx
    exact ⟨hin.cons (fun _ h => by cases h) (fun _ h => by cases h), ds, rfl, hdry⟩
  case panics => exact hx.1
  case more => exact hx.1
  case exhausted =>
    -- only a worker that finds the flag down after its last call leaves with status `Done`
    refine Inside.leaving hx.1 fun hne => ?_
    by_cases hs : s.stopped = true
    · exact hs
    · rw [if_neg hs] at hne
      exact absurd rfl hne
  case cut e stop =>
    obtain ⟨hin, older, rfl, hdry⟩ : Inside s c ds ∧
      ∃ older, ds = .answered (.error e) :: older ∧ c.Dries s older := hx
    -- the stop error is not made up, so the flag is up
    obtain ⟨k', e', hk', hs'⟩ := honest.refused (hmem _ List.mem_cons_self) stop
    exact hin.leaving fun _ => hstops k' e' hk' hs'
  case bad => exact ⟨Inside.same hx.1 rfl rfl, rfl⟩
  case lost => exact Inside.same hx.1 rfl rfl
  case failed => exact hx.1
  case diverting m a _ =>
    obtain ⟨hin, ha⟩ : Inside s c ds ∧ a.Diverts h := hx
    exact ⟨hin.operation (heffect a) (hop a), ha.step⟩
  case diverted => exact hx.1
  case interrupted e stop =>
    obtain ⟨k', hk'⟩ := hx.2 e rfl
    exact Inside.leaving hx.1 fun _ => hstops k' e hk' stop
  case undiverted => exact hx.1
  case crashes => exact hx.1
  case fails m =>
    -- the flag is raised before anything is closed
    exact Inside.leaving hx fun _ => (Shared.requestStop_fixed _ c.name).2.1
  case closes fate i rest =>
    obtain ⟨st, err, rfl, hg, hdone⟩ := hx
    refine ⟨st, err, rfl, ⟨?_, fun st' hm => ?_, fun sm hm => ?_, hg.stopped⟩, fun j hj hn => ?_⟩
    · exact List.mem_cons_of_mem _ hg.left
    · exact hg.once st' (by simpa using hm)
    · exact hg.sent sm (by simpa using hm)
    · refine (s.done_finish i j).mpr ?_
      by_cases hij : i = j
      · exact Or.inr hij
      · refine Or.inl (hdone j hj fun hm => ?_)
        rcases List.mem_cons.mp hm with rfl | hm
        · exact hij rfl
        · exact hn hm
  case closed =>
    obtain ⟨st, err, rfl, hg, hdone⟩ := hx
    exact ⟨st, err, rfl, hg.frame id, fun i hi => hdone i hi List.not_mem_nil⟩
  case disposing a _ =>
    obtain ⟨st, err, rfl, hg, hdone⟩ := hx
    refine ⟨st, err, rfl, hg.operation (heffect a).stopped (hop a), fun i hi => ?_⟩
    rw [(heffect a).leads.written] at hi
    exact (Shared.done_act (heffect a).rowSets i).mpr (Or.inl (hdone i hi))
  case disposed =>
    obtain ⟨st, err, rfl, hg, hdone⟩ := hx
    exact ⟨hg, hdone⟩
  case undisposed =>
    obtain ⟨st, err, rfl, hg, hdone⟩ := hx
    exact ⟨hg.frame id, hdone⟩
  case reports => exact ⟨hx.1.frame id, Or.inr hx.2⟩
  case collapses =>
    have hin : Inside s c ds := hx
    have hs := (Shared.requestStop_fixed s c.name).2.1
    exact ⟨hin.leave fun _ => hs, Or.inl hs⟩
  case sends summary =>
    obtain ⟨hg, hdone⟩ : Gone s ds summary.status ∧
      (s.stopped = true ∨ ∀ i ∈ c.written, s.done i = true) := hx
    refine ⟨summary.status, ⟨List.mem_cons_of_mem _ hg.left, fun st' hm => hg.once st' ?_,
      fun sm hm => ?_, hg.stopped⟩, hdone⟩
    · simpa using hm
    · rcases List.mem_cons.mp hm with he | hm
      · cases he
        rfl
      · exact hg.sent sm hm
  case ended => exact hx

/-- **A step of a worker** keeps the worker where its deeds say. -/
theorem Worker.Kept.step (hx : x.Kept p s h)
    (hstops : ∀ k e, (k, Deed.refused e) ∈ h → e.isStop = true → s.stopped = true)
    (honest : Course.HonestStops h) :
    (x.step s).2.Kept p (x.step s).1 (Course.grow x.key (x.deed? s) h) := by
  have heffect := x.step_effect s
  have hkey : (x.step s).2.key = x.key := heffect.leads.key
  refine ⟨hx.wired.step heffect fun d hd => (deed?_grounds hx.aims hd).enabled,
    step_aims hx.aims, ?_⟩
  rw [hkey, Course.deedsOf_grow]
  exact Worker.stands_step hx.stands hx.aims hstops honest

end Step

end Rowflow
