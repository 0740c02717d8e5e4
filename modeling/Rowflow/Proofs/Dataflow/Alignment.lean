import Rowflow.Proofs.Dataflow.Typing
import Rowflow.Proofs.Diversion.Handling
import Rowflow.Proofs.Transform.Offers
import Rowflow.Transform.Scripted

/-!
# Rows as long as their layouts

A row is aligned if it has as many values as its layout has fields. Writing to outputs checks it, so
whatever transforms do, the row sets of hops accept aligned rows only, and a row that is not aligned is
refused (`Worker.step_misaligned`). Diverting a row does not check it (`Worker.step_offers`). A diagnosis
adds as many values as fields, so a diverted row is aligned if and only if it was before
(`Entry.aligned_diagnose`). So the error row sets accept aligned rows only as long as transforms divert no
others and no others are injected (`Course.rows_aligned`); if a transform diverts another, they may accept
it (`Course.exists_misaligned`).
-/

namespace Rowflow

variable {σ α : Type}

/-! ### Aligned rows -/

namespace Entry

/-- The row has as many values as the layout has fields. -/
def Aligned (e : Entry) : Prop := e.row.size = e.layout.size

instance (e : Entry) : Decidable e.Aligned := inferInstanceAs (Decidable (_ = _))

/-- The row with its diagnosis, as it is diverted. -/
def diagnose (e : Entry) (h : ErrorHandling) (why : Diagnosis) : Entry :=
  ⟨h.errorLayout e.layout, e.row.append why.values⟩

/-- A diagnosis adds as many values as fields. -/
@[simp] theorem aligned_diagnose (e : Entry) (h : ErrorHandling) (why : Diagnosis) :
    (e.diagnose h why).Aligned ↔ e.Aligned := by
  have hvalues : why.values.length = 4 := rfl
  have hrow : (e.diagnose h why).row.size = e.row.size + 4 := by
    simp [diagnose, Row.size, Row.append, hvalues]
  have hlayout : (e.diagnose h why).layout.size = e.layout.size + 4 := by
    simp [diagnose, ErrorHandling.errorLayout, Layout.size, Layout.push]
  unfold Aligned
  rw [hrow, hlayout]
  exact Nat.add_right_cancel_iff

/-- What a row may be that is read: any aligned row, and with a row the same row with a diagnosis. -/
structure Admission (admits : Entry → Prop) : Prop where
  aligned : ∀ e : Entry, e.Aligned → admits e
  diagnose : ∀ (e : Entry) (h : ErrorHandling) (why : Diagnosis), admits e → admits (e.diagnose h why)

theorem admission_aligned : Admission Aligned :=
  ⟨fun _ h => h, fun e h why => (e.aligned_diagnose h why).mpr⟩

theorem admission_all : Admission fun _ => True := ⟨fun _ _ => trivial, fun _ _ _ _ => trivial⟩

end Entry

variable {admits : Entry → Prop} {good : σ → Prop}

/-! ### What is delivered -/

/-- What is delivered to outputs is aligned, and what is delivered to an error row set is an admitted
row with a diagnosis. -/
def Context.Carries (admits : Entry → Prop) (c : Context) (del : Delivery) : Prop :=
  match del.purpose with
  | .output => del.entry.Aligned
  | .error why => ∃ h e, c.errors.map (·.diversion.handling) = some h ∧ admits e ∧
      del.entry = e.diagnose h why

namespace Context

variable {c c' : Context}

theorem Carries.congr {del : Delivery} (h : c.Carries admits del)
    (he : c'.errors.map ErrorRoute.fixed = c.errors.map ErrorRoute.fixed) : c'.Carries admits del := by
  have hhandling : c'.errors.map (·.diversion.handling) = c.errors.map (·.diversion.handling) := by
    have := congrArg (Option.map (·.2.2.2)) he
    simpa only [Option.map_map, Function.comp_def, ErrorRoute.fixed] using this
  unfold Carries
  rw [hhandling]
  exact h

theorem Carries.same {del del' : Delivery} (h : c.Carries admits del) (he : del'.entry = del.entry)
    (hp : del'.purpose = del.purpose) : c.Carries admits del' := by
  unfold Carries
  rw [hp, he]
  exact h

/-- What begins to be delivered to outputs is aligned. -/
theorem startWrite_carries (c : Context) (e : Entry) :
    ∀ del, (c.startWrite e).2 = .ok del → c.Carries admits del := by
  intro del hdel
  rcases startWrite_cases c e with ⟨-, hw⟩ | ⟨halign, ⟨-, hw⟩ | ⟨-, -, hw⟩ | ⟨t, i, -, -, hw⟩⟩ <;>
    rw [hw] at hdel <;> cases hdel <;> exact halign

theorem startWriteTo_carries (c : Context) (target : String) (e : Entry) :
    ∀ del, c.startWriteTo target e = .ok del → c.Carries admits del := by
  intro del hdel
  rcases startWriteTo_cases c target e with ⟨-, hw⟩ | ⟨halign, ⟨-, hw⟩ | ⟨t, i, -, hw⟩⟩ <;>
    rw [hw] at hdel <;> cases hdel
  exact halign

theorem Recalls.startDivert_carries (h : c.Recalls admits) (s : Shared) {e : Entry} (he : admits e)
    (why : Diagnosis) : ∀ del, (c.startDivert s e why).2.2 = .ok (.ok del) → c.Carries admits del := by
  intro del hdel
  obtain ⟨r, hr, rfl⟩ := (h.startDivert s e why).2 del hdel
  exact ⟨r.diversion.handling, e, by rw [Option.mem_def.mp hr]; rfl, he, rfl⟩

end Context

/-! ### Activities -/

namespace Activity

/-- The rest of an activity offers admitted rows only. -/
def Offers (admits : Entry → Prop) (good : σ → Prop) : Activity σ α → Prop
  | .run plan => plan.Offers admits good
  | .reading _ next => (Plan.read next).Offers admits good
  | .writing _ next => ∀ r, (next r).Offers admits good
  | .resting _ next => next.Offers admits good
  | .done _ | .broken _ => True

/-- What is under way is as it should be, and so is what will be offered. -/
structure Orderly (admits : Entry → Prop) (good : σ → Prop) (c : Context) (a : Activity σ α) :
    Prop where
  carries : ∀ del ∈ a.delivery?, c.Carries admits del
  offers : a.Offers admits good

variable {d : Desk σ} {a : Activity σ α}

theorem Orderly.idle {c : Context} (hidle : a.delivery? = none) (h : a.Offers admits good) :
    a.Orderly admits good c :=
  ⟨fun _ hdel => absurd (hidle.symm.trans hdel) nofun, h⟩

theorem Orderly.congr {c c' : Context} (h : a.Orderly admits good c)
    (he : c'.errors.map ErrorRoute.fixed = c.errors.map ErrorRoute.fixed) : a.Orderly admits good c' :=
  ⟨fun del hdel => (h.carries del hdel).congr he, h.offers⟩

theorem startDelivery_orderly {r : Except TransformError Context.Delivery}
    {next : Except TransformError Unit → Plan σ α} {c : Context}
    (hnext : ∀ r, (next r).Offers admits good) (hr : ∀ del, r = .ok del → c.Carries admits del) :
    (startDelivery d r next).2.Orderly admits good c := by
  rcases r with e | del
  · exact .idle rfl (hnext _)
  · refine ⟨fun del' hdel => ?_, hnext⟩
    cases hdel
    exact hr del rfl

theorem startDelivery_state (d : Desk σ) (r : Except TransformError Context.Delivery)
    (next : Except TransformError Unit → Plan σ α) : (startDelivery d r next).1.state = d.state := by
  rw [startDelivery_desk]

/-- **A step of an activity** that gets admitted rows. -/
theorem Orderly.step (h : a.Orderly admits good d.context) (hstate : good d.state)
    (hcontext : d.context.Recalls admits) (hs : ∀ i e, d.shared.front i = .row e → admits e) :
    good (a.step d).1.state ∧ (a.step d).2.Orderly admits good (a.step d).1.context := by
  suffices hstep : good (a.step d).1.state ∧ (a.step d).2.Orderly admits good d.context from
    ⟨hstep.1, hstep.2.congr (step_does d a).leads.errors⟩
  obtain ⟨hcarries, hoffers⟩ := h
  cases a
  case run plan =>
    obtain ⟨s, c, state⟩ := d
    cases plan
    case finish => exact ⟨hstate, .idle rfl trivial⟩
    case halt => exact ⟨hstate, .idle rfl trivial⟩
    case save => exact ⟨hoffers.1, .idle rfl hoffers.2⟩
    case look => exact ⟨hstate, .idle rfl (hoffers _)⟩
    case read => exact ⟨hstate, .idle rfl hoffers⟩
    case write e next =>
      refine ⟨?_, startDelivery_orderly hoffers (c.startWrite_carries e)⟩
      simp only [Activity.step, stepPlan, startDelivery_state]
      exact hstate
    case writeTo target e next =>
      refine ⟨?_, startDelivery_orderly hoffers (c.startWriteTo_carries target e)⟩
      simp only [Activity.step, stepPlan, startDelivery_state]
      exact hstate
    case divert e why next =>
      have hcarries := hcontext.startDivert_carries s hoffers.1 why
      simp only [Activity.step, stepPlan]
      rcases hd : (c.startDivert s e why).2.2 with p | r
      · exact ⟨hstate, .idle rfl trivial⟩
      · refine ⟨?_, startDelivery_orderly hoffers.2 fun del hdel => hcarries del (hd.trans (congrArg _ hdel))⟩
        simp only [startDiversion, startDelivery_state]
        exact hstate
    case await =>
      simp only [Activity.step, stepPlan]
      split <;> exact ⟨hstate, .idle rfl hoffers⟩
    case pause => exact ⟨hstate, .idle rfl hoffers⟩
    all_goals exact ⟨hstate, .idle rfl hoffers⟩
  case reading stage next =>
    obtain ⟨hkept, hstep⟩ := stepRead_spec d stage next
    simp only [Activity.step]
    refine ⟨hkept ▸ hstate, ?_⟩
    generalize (stepRead d stage next).1.shared = s' at hstep
    generalize (stepRead d stage next).1.context = c' at hstep
    generalize (stepRead d stage next).2 = a' at hstep ⊢
    generalize (Activity.reading stage next : Activity σ α).deed? d.shared d.context = deed at hstep
    cases hstep
    case on => exact .idle rfl hoffers
    case dry => exact .idle rfl hoffers.1
    case row found _ _ => exact .idle rfl (hoffers.2 _ (hs _ _ found))
    case broken => exact .idle rfl trivial
  case writing del next =>
    obtain ⟨s, c, state⟩ := d
    have hstep := Context.deliver_spec c s del
    simp only [Activity.step]
    rcases hd : c.deliver s del with ⟨s', c', del' | r | p⟩ <;> rw [hd] at hstep
    · refine ⟨hstate, fun del'' hdel => ?_, hoffers⟩
      cases hdel
      obtain ⟨he, hp⟩ := hstep.pending_same
      exact (hcarries del rfl).same he hp
    · exact ⟨hstate, .idle rfl (hoffers r)⟩
    · exact ⟨hstate, .idle rfl trivial⟩
  case resting =>
    simp only [Activity.step]
    split
    · exact ⟨hstate, .idle rfl hoffers⟩
    · exact ⟨hstate, .idle rfl hoffers⟩
  all_goals exact ⟨hstate, hcarries, hoffers⟩

end Activity

/-! ### Workers -/

/-- What may be in a row set, by what it is for: aligned rows for a hop, and admitted rows with the
diagnoses of their transform for failing rows. -/
def Channel.Holds (p : Pipeline) (admits : Entry → Prop) (d : Entry) : Channel → Prop
  | .hop _ _ => d.Aligned
  | .errors k _ => ∃ spec h e why, p.transform? k.id = some spec ∧ spec.errorHandling = some h ∧
      admits e ∧ d = Entry.diagnose e h why
  | .injector _ => True

/-- What has been put into row sets is admitted, and may be there. -/
def Shared.Orderly (p : Pipeline) (admits : Entry → Prop) (s : Shared) : Prop :=
  ∀ i, ∀ e ∈ s.accepted i, admits e ∧ ∀ ch ∈ p.channels[i]?, ch.Holds p admits e

variable {p : Pipeline} {s s' : Shared}

namespace Shared.Orderly

theorem act {d : Option Deed} (hs : s.Orderly p admits) (h : s'.rowSets = Deed.act? s.rowSets d)
    (hd : ∀ i e, d = some (.gave i e) → admits e ∧ ∀ ch ∈ p.channels[i]?, ch.Holds p admits e) :
    s'.Orderly p admits := by
  intro i e he
  rcases mem_accepted_act h i he with he | hgave
  · exact hs i e he
  · exact hd i e hgave

theorem front (hs : s.Orderly p admits) {i : Nat} {e : Entry} (h : s.front i = .row e) : admits e :=
  (hs i e (List.mem_of_getElem? (front_eq_row_iff.mp h))).1

theorem of_bare (h : s.rowSets = #[] ∨ s.rowSets = p.rowSets.toArray) : s.Orderly p admits := by
  intro i e he
  rw [accepted_of_bare h] at he
  cases he

end Shared.Orderly

namespace Worker

/-- What the worker delivers is as it should be, and goes where it should. -/
structure Orderly (p : Pipeline) (admits : Entry → Prop) (good : σ → Prop) (x : Worker σ) : Prop where
  bound : x.Bound p
  upheld : x.Upheld (fun c state => good state ∧ c.Recalls admits) (Activity.Orderly admits good)

theorem Orderly.given (hp : p.WellFormed) (hadm : Entry.Admission admits) {x : Worker σ}
    (h : x.Orderly p admits good) {i : Nat} {e : Entry} (hd : x.deed? s = some (.gave i e)) :
    admits e ∧ ∀ ch ∈ p.channels[i]?, ch.Holds p admits e := by
  obtain ⟨del, hdel, rfl, hi⟩ := delivery_of_gave hd
  have hcarries := Phase.of_delivery h.upheld.does (fun ha => ha.carries) del hdel
  have hfits := Phase.of_delivery h.bound.fits Activity.fits_delivery del hdel
  unfold Context.Carries at hcarries
  unfold Context.Fits at hfits
  rcases hpurpose : del.purpose with _ | why <;> rw [hpurpose] at hcarries hfits
  · obtain ⟨t, ho⟩ := hfits i hi
    rw [h.bound.rooted.output ho]
    exact ⟨hadm.aligned _ hcarries, fun ch hch => by cases hch; exact hcarries⟩
  · obtain ⟨-, j, hj, hpending⟩ := hfits
    rw [hpending, List.mem_singleton] at hi
    obtain ⟨route, hroute, rfl⟩ := Option.map_eq_some_iff.mp hj
    obtain ⟨handling, o, hhandling, ho, hentry⟩ := hcarries
    obtain ⟨hspec, -, hchannel⟩ := h.bound.rooted.route hp hroute
    rw [hi, hchannel, hentry]
    rw [hroute] at hhandling
    cases hhandling
    refine ⟨hadm.diagnose _ _ _ ho, fun ch hch => ?_⟩
    cases hch
    exact ⟨_, _, o, why, h.bound.rooted.transform?_eq, hspec, ho, rfl⟩

variable [Transform σ]

/-- **A step of a worker** that gets admitted rows. -/
theorem Orderly.step (hoffers : Transform.Offers admits good) {x : Worker σ}
    (h : x.Orderly p admits good) (hs : s.Orderly p admits) : (x.step s).2.Orderly p admits good := by
  refine ⟨h.bound.step s, Upheld.step ?_ h.upheld⟩
  exact
    { stepped := by
        rintro α a d rfl ⟨hstate, hcontext⟩ ha
        obtain ⟨hstate', ha'⟩ := ha.step hstate hcontext fun _ _ => hs.front
        exact ⟨⟨hstate', a.step_recalls hcontext fun _ _ => hs.front⟩, ha'⟩
      forgotten := fun _ _ h => ⟨h.1, h.2.forget rfl rfl⟩
      process := fun _ state h => .idle rfl (hoffers.process state h.1)
      dispose := fun _ state h => .idle rfl (hoffers.dispose state h.1)
      diverted := fun _ _ layout row _ _ _ h hlayout hrow => by
        obtain ⟨-, layout', hl, hadmitted⟩ := h.2.current row hrow
        obtain rfl : layout = layout' := Option.some.inj (hlayout.symm.trans hl)
        exact .idle rfl ⟨hadmitted, fun _ => trivial⟩ }

/-- **Row sets stay orderly**, whatever the transforms write, if they offer admitted rows only. -/
theorem Orderly.lasting (hp : p.WellFormed) (hadm : Entry.Admission admits)
    (hoffers : Transform.Offers admits good) {ts : TransformMap σ}
    (hmade : ∀ id r n state, ts.find? id = some r → r.instantiate n = .ok state → good state) :
    Worker.Lasting p ts admits (Shared.Orderly p admits) (Worker.Orderly p admits good) where
  like s s' hrows _ hs := hs.act (d := none) hrows fun _ _ hd => by cases hd
  stepped s x hs hx :=
    ⟨hs.act (x.step_effect s).rowSets fun _ _ hd => hx.given hp hadm hd, hx.step hoffers hs⟩
  injected s i t e ht he hs :=
    hs.act (d := some (.gave i e)) rfl fun _ _ hd => by
      cases hd
      rw [ht]
      exact ⟨he, fun ch hch => by cases hch; trivial⟩
  finished s i hs := hs.act (d := some (.closed i)) rfl fun _ _ hd => by cases hd
  bare _ hrows _ := .of_bare (Or.inl hrows)
  laid _ s' hrows _ _ := .of_bare (Or.inr hrows)
  enrolled k r n state hr hspec hk hi :=
    have hgood := hmade k.id r n state hr hi
    ⟨(Bound.enrolled hspec hk state).2, ⟨hgood, .new _ _ _ _⟩, .idle rfl (hoffers.init state hgood)⟩
  abandoned x hx := ⟨hx.bound.abandon, hx.upheld.holds, trivial⟩
  heard id l x hx := by
    refine ⟨hx.bound.hear id l, ?_⟩
    unfold Worker.hear
    split
    · exact ⟨⟨hx.upheld.holds.1, hx.upheld.holds.2.keep rfl rfl rfl⟩,
        Phase.doing_mono hx.upheld.does fun ha => ha.congr rfl⟩
    · exact hx.upheld

end Worker

/-! ### Rows that are refused -/

/-- The row that is about to be written to outputs. -/
def Activity.writes? : Activity σ α → Option Entry
  | .run (.write e _) => some e
  | .run (.writeTo _ e _) => some e
  | _ => none

/-- The row that is about to be written to outputs. -/
def Phase.writes? (phase : Phase σ) : Option Entry := phase.doing none Activity.writes?

theorem Activity.step_misaligned {d : Activity.Desk σ} {a : Activity σ α} {e : Entry}
    (he : a.writes? = some e) (hm : ¬ e.Aligned) :
    a.deed? d.shared d.context = some (.refused (.layoutMismatch e.row.size e.layout.size)) ∧
      (a.step d).1 = d ∧ (a.step d).2.delivery? = none := by
  obtain ⟨s, c, state⟩ := d
  rcases a with plan | _ | _ | _ | _ | _
  case run =>
    cases plan
    case write e' next =>
      cases he
      simp only [Activity.step, stepPlan, deed?]
      rcases Context.startWrite_cases c e with ⟨-, hw⟩ | ⟨halign, -⟩
      · rw [hw]
        exact ⟨rfl, rfl, rfl⟩
      · exact absurd halign hm
    case writeTo target e' next =>
      cases he
      simp only [Activity.step, stepPlan, deed?]
      rcases Context.startWriteTo_cases c target e with ⟨-, hw⟩ | ⟨halign, -⟩
      · rw [hw]
        exact ⟨rfl, rfl, rfl⟩
      · exact absurd halign hm
    all_goals cases he
  all_goals cases he

/-- **A row that is not aligned** is refused, and nothing is put anywhere, now or later. -/
theorem Worker.step_misaligned [Transform σ] {x : Worker σ} {e : Entry} (he : e ∈ x.phase.writes?)
    (hm : ¬ e.Aligned) (s : Shared) :
    x.deed? s = some (.refused (.layoutMismatch e.row.size e.layout.size)) ∧ (x.step s).1 = s ∧
      (x.step s).2.phase.delivery? = none := by
  obtain ⟨α, a, wrap, ha, hdeed, hstep, hwrap⟩ :=
    exists_performed he (fun _ => rfl) (fun _ => rfl) s
  obtain ⟨hrefused, hdesk, hidle⟩ := Activity.step_misaligned (d := ⟨s, x.context, x.state⟩) ha hm
  rw [hdeed, hstep, perform_shared]
  exact ⟨hrefused, congrArg Activity.Desk.shared hdesk, (hwrap.doing _).trans hidle⟩

/-! ### Rows that are diverted -/

/-- The row that is about to be diverted, with its diagnosis. -/
def Activity.offers? : Activity σ α → Option (Entry × Diagnosis)
  | .run (.divert e why _) => some (e, why)
  | _ => none

/-- The row that is about to be diverted, with its diagnosis. -/
def Phase.offers? (phase : Phase σ) : Option (Entry × Diagnosis) :=
  phase.doing none Activity.offers?

/-- What becomes of a row that is diverted: there is no route, or one error too many, or more errors
than can be counted, or it is on its way with its diagnosis. -/
inductive Context.Diverts (c : Context) (s : Shared) (e : Entry) (why : Diagnosis) :
    Option Deed → Option Delivery → Prop where
  | unhandled (h : c.errors = none) :
    Diverts c s e why (some (.refused (.row why.description why.fields why.codes))) none
  | exceeded (maximum next : UInt64) :
    Diverts c s e why (some (.refused (.route (.ceilingExceeded maximum next)))) none
  | overflows (r : ErrorRoute) (h : r ∈ c.errors)
    (full : 2 ^ 64 ≤ (s.errorCount r.slot).toNat + why.weight.toNat) : Diverts c s e why none none
  | begun (r : ErrorRoute) (h : r ∈ c.errors) :
    Diverts c s e why none (some ⟨e.diagnose r.diversion.handling why, [r.rowSet], .error why⟩)

theorem Activity.step_offers {d : Activity.Desk σ} {a : Activity σ α} {e : Entry} {why : Diagnosis}
    (ho : a.offers? = some (e, why)) (hc : d.context.Recalls admits) :
    d.context.Diverts d.shared e why (a.deed? d.shared d.context) (a.step d).2.delivery? := by
  obtain ⟨s, c, state⟩ := d
  rcases a with plan | _ | _ | _ | _ | _
  case run =>
    cases plan
    case divert e' why' next =>
      cases ho
      have hdelivery := (hc.startDivert s e why).2
      simp only [Activity.step, stepPlan, deed?]
      rcases Context.startDivert_cases c s e why with ⟨hn, h⟩ | ⟨_, maximum, count, -, -, h⟩ |
        ⟨route, hr, hfull, h⟩ | ⟨_, _, -, -, h⟩ <;> rw [h] at hdelivery ⊢
      · exact .unhandled hn
      · exact .exceeded maximum count
      · exact .overflows route hr (ErrorHandling.reserve_broken hfull).2
      · obtain ⟨r, hr, hdel⟩ := hdelivery _ rfl
        rw [hdel]
        exact .begun r hr
    all_goals cases ho
  all_goals cases ho

/-- **A row that is diverted**, aligned or not, is refused for other reasons or delivered as it is. -/
theorem Worker.step_offers [Transform σ] {x : Worker σ} {e : Entry} {why : Diagnosis}
    (ho : x.phase.offers? = some (e, why)) (hc : x.context.Recalls admits) (s : Shared) :
    x.context.Diverts s e why (x.deed? s) (x.step s).2.phase.delivery? := by
  obtain ⟨α, a, wrap, ha, hdeed, hstep, hwrap⟩ :=
    exists_performed ho (fun _ => rfl) (fun _ => rfl) s
  rw [hdeed, hstep, perform_shared]
  dsimp only
  rw [Phase.delivery?, hwrap.doing]
  exact Activity.step_offers (d := ⟨s, x.context, x.state⟩) ha hc

/-! ### Runs -/

namespace Course

/-- What the row sets of a run hold, and what is refused. -/
structure Orderly (p : Pipeline) (ts : TransformMap σ) (events : List Event) [Transform σ]
    (c : Course σ) : Prop where
  /-- The row sets of hops accept aligned rows only, whatever is injected. -/
  hops : ∀ i k t, p.channels[i]? = some (.hop k t) → ∀ e ∈ c.shared.accepted i, e.Aligned
  /-- The error row sets accept rows with the diagnoses of their transforms, aligned or not as they
  were before. -/
  errors : ∀ i k t, p.channels[i]? = some (.errors k t) → ∀ d ∈ c.shared.accepted i,
    ∃ spec h e why, p.transform? k.id = some spec ∧ spec.errorHandling = some h ∧
      d = Entry.diagnose e h why ∧ (d.Aligned ↔ e.Aligned)
  /-- A row that is written to outputs but is not aligned is refused. -/
  refused : ∀ x ∈ c.workers, ∀ e ∈ x.phase.writes?, ¬ e.Aligned →
    x.deed? c.shared = some (.refused (.layoutMismatch e.row.size e.layout.size)) ∧
      (x.step c.shared).1 = c.shared ∧ (x.step c.shared).2.phase.delivery? = none
  /-- A row that is diverted is not refused for that: with its diagnosis it is on its way. -/
  diverted : ∀ x ∈ c.workers, ∀ e why, x.phase.offers? = some (e, why) →
    x.context.Diverts c.shared e why (x.deed? c.shared) (x.step c.shared).2.phase.delivery?
  /-- What is put into a row set is what is on its way. -/
  given : ∀ x ∈ c.workers, ∀ i d, x.deed? c.shared = some (.gave i d) →
    ∃ del ∈ x.phase.delivery?, del.entry = d ∧ i ∈ del.pending
  /-- If the transforms divert aligned rows only, as long as they read no others, and no others are
  injected, there are no others. -/
  all : ∀ good : σ → Prop, Transform.Offers Entry.Aligned good →
    (∀ id r n state, ts.find? id = some r → r.instantiate n = .ok state → good state) →
    (∀ i e, Event.inject i e ∈ events → e.Aligned) → ∀ i, ∀ e ∈ c.shared.accepted i, e.Aligned

variable [Transform σ]

theorem each_orderly {registry : Registry σ} {o : Orchestrator σ} (hooks : Hooks)
    (bindings : Table String) (hnew : Orchestrator.new p registry = .ok o)
    (hadm : Entry.Admission admits) (hoffers : Transform.Offers admits good)
    (hmade : ∀ id r n state, o.transforms.find? id = some r → r.instantiate n = .ok state →
      good state) (events : List Event) (hinjected : ∀ i e, Event.inject i e ∈ events → admits e) :
    ((begin o hooks bindings).run events).world.Each (Shared.Orderly p admits)
      (Worker.Orderly p admits good) := by
  have hp := Pipeline.wellFormed_of_validationErrors (Orchestrator.new_ok hnew).1
  have hlasting := Worker.Orderly.lasting hp hadm hoffers hmade
  refine always hnew hlasting.each (fun w hw => hw.launch fun x hx => ?_) events hinjected
  exact ⟨hx.bound.launch, hx.upheld.holds, trivial⟩

/-- **Rows are as long as their layouts.** In every state of every run, whatever the transforms do, what
goes along a hop is aligned, and what is not is refused; what is diverted is aligned if it was before. -/
theorem rows_aligned {registry : Registry σ} {o : Orchestrator σ} (hooks : Hooks)
    (bindings : Table String) (hnew : Orchestrator.new p registry = .ok o) (events : List Event) :
    ((begin o hooks bindings).run events).Orderly p o.transforms events := by
  have hany := each_orderly hooks bindings hnew Entry.admission_all Transform.offers_all
    (fun _ _ _ _ _ _ => trivial) events fun _ _ _ => trivial
  exact
    { hops := fun i k t hi e he => (hany.shared i e he).2 _ hi
      errors := fun i k t hi d hd => by
        obtain ⟨spec, h, e, why, hspec, hh, -, rfl⟩ := (hany.shared i d hd).2 _ hi
        exact ⟨spec, h, e, why, hspec, hh, rfl, e.aligned_diagnose h why⟩
      refused := fun x _ e he hm => x.step_misaligned he hm _
      diverted := fun x hx e why ho => x.step_offers ho (hany.workers x hx).upheld.holds.2 _
      given := fun x _ i d hd => Worker.delivery_of_gave hd
      all := fun good hoffers hmade hinjected i e he =>
        ((each_orderly hooks bindings hnew Entry.admission_aligned hoffers hmade events
          hinjected).shared i e he).1 }

/-! ### A row that is too short -/

namespace Misaligned

/-- A scripted transform with an output and error handling. -/
def pipeline : Pipeline where
  transforms := [
    { id := "a", type := "script", errorHandling := some { target := "r" } },
    { id := "b", type := "dummy" },
    { id := "r", type := "dummy" }]
  hops := [{ origin := "a", target := "b" }]

/-- A layout of two fields. -/
def layout : Layout := ⟨[⟨"n", .integer, -1, -1⟩, ⟨"m", .integer, -1, -1⟩]⟩

/-- A row of one value. -/
def short : Entry := ⟨layout, ⟨[.integer 1]⟩⟩

/-- A row with two values is written and diverted, and then one with one value. -/
def scripts : Table Script :=
  .ofList [("a", {
    calls := [[
      .put (some layout) (some ⟨[.integer 1, .integer 2]⟩),
      .putError (some layout) (some ⟨[.integer 1, .integer 2]⟩) { count := 1, description := "bad" },
      .put (some layout) (some short.row),
      .putError (some layout) (some short.row) { count := 1, description := "short" }]] })]

/-- The run of the three transforms. -/
def orchestrator : Orchestrator (Builtin ⊕ Scripted) where
  pipeline := pipeline
  transforms := ((Registry.withScripts scripts).resolve pipeline).toOption.getD .empty
  world := { shared := { pipeline := pipeline.name, poll := 50000 } }
  built := .ofList (pipeline.ids.map (·, 1))

theorem new_ok : Orchestrator.new pipeline (.withScripts scripts) = .ok orchestrator := rfl

/-- The scripted transform takes so many steps. -/
def events (n : Nat) : List Event := [.prepare, .start] ++ List.replicate n (.step 0)

/-- The state of the run after that. -/
def after (n : Nat) : Course (Builtin ⊕ Scripted) :=
  (begin orchestrator Hooks.none .empty).run (events n)

end Misaligned

/-- A row has gone along the hop, another one has been diverted, and one that is too short is about to be
refused; in another run everything is aligned. -/
theorem rows_aligned_short :
    ((Misaligned.after 13).workers.toList.filterMap (·.phase.writes?)) = [Misaligned.short] ∧
      ¬ Misaligned.short.Aligned ∧
      ((Misaligned.after 13).shared.accepted 0).length = 1 ∧
      ((Misaligned.after 13).shared.accepted 1).length = 1 ∧
      (Misaligned.after 13).Orderly Misaligned.pipeline Misaligned.orchestrator.transforms
        (Misaligned.events 13) ∧
      ∀ i, ∀ e ∈ Diverted.reached.shared.accepted i, e.Aligned :=
  ⟨by decide +kernel, by decide, by decide +kernel, by decide +kernel,
    rows_aligned Hooks.none .empty Misaligned.new_ok (Misaligned.events 13),
    (rows_aligned Hooks.none .empty Diverted.new_ok Diverted.events).all (fun _ => True)
      (Builtin.offers _) (fun _ _ _ _ _ _ => trivial) fun _ _ h => by
        obtain ⟨-, rfl⟩ : _ = 1 ∧ _ = Diverted.entry := by simpa [Diverted.events] using h
        decide⟩

/-- It is not so that error row sets accept aligned rows only, not even if nothing is injected. -/
theorem exists_misaligned : ¬ ∀ (p : Pipeline) (scripts : Table Script)
    (o : Orchestrator (Builtin ⊕ Scripted)) (hooks : Hooks) (bindings : Table String)
    (events : List Event), Orchestrator.new p (.withScripts scripts) = .ok o →
    (∀ i e, Event.inject i e ∉ events) → ∀ i k t, p.channels[i]? = some (.errors k t) →
    ∀ e ∈ ((begin o hooks bindings).run events).shared.accepted i, e.Aligned := by
  intro h
  have hnone : ∀ i e, Event.inject i e ∉ Misaligned.events 18 := by
    intro i e he
    simp [Misaligned.events] at he
  have hall := h Misaligned.pipeline Misaligned.scripts Misaligned.orchestrator Hooks.none .empty
    (Misaligned.events 18) Misaligned.new_ok hnone 1 ⟨"a", 0⟩ "r" (by decide)
  revert hall
  decide +kernel

end Course

end Rowflow
