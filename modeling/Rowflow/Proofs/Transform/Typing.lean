import Rowflow.Proofs.Row.Conformance
import Rowflow.Proofs.Transform.BuiltinConduct

/-!
# The types of what transforms write

`Plan.Typed` says of a plan that all rows it writes or diverts conform to their layouts as long as
the rows that it reads do, and `Transform.KeepsTypes` says it of all calls of a transform.
`Builtin.keepsTypes` proves it for the built-in transforms: a transform of one field computes the kind
of the field from the layout and the value from the row, and both agree; a source has checked its
values against their kind when it was made (`Builtin.typed_of_ofSpec`).
-/

namespace Rowflow

/-! ### Plans -/

/-- As long as the rows that are read conform to their layouts, the rows that are written and
diverted do, and only good states are saved. -/
def Plan.Typed {σ α : Type} (good : σ → Prop) : Plan σ α → Prop
  | .finish _ => True
  | .halt _ => True
  | .save state next => good state ∧ next.Typed good
  | .look next => ∀ view, (next view).Typed good
  | .read next => (next none).Typed good ∧ ∀ e : Entry, e.Conforms → (next (some e)).Typed good
  | .write e next => e.Conforms ∧ ∀ r, (next r).Typed good
  | .writeTo _ e next => e.Conforms ∧ ∀ r, (next r).Typed good
  | .divert e _ next => e.Conforms ∧ ∀ r, (next r).Typed good
  | .stopAll next => next.Typed good
  | .report _ next => next.Typed good
  | .note _ next => next.Typed good
  | .mark next => next.Typed good
  | .await _ next => next.Typed good
  | .pause _ next => next.Typed good

/-- The calls of a transform in a good state are typed. -/
structure Transform.KeepsTypes {σ : Type} [Transform σ] (good : σ → Prop) : Prop where
  init : ∀ state, good state → (Transform.init state).Typed good
  process : ∀ state, good state → (Transform.process state).Typed good
  dispose : ∀ state, good state → (Transform.dispose state).Typed good

theorem Plan.Typed.embed {σ τ α : Type} {wrap : σ → τ} {good : τ → Prop} {plan : Plan σ α}
    (h : plan.Typed fun state => good (wrap state)) : (plan.embed wrap).Typed good := by
  induction plan
  case finish => trivial
  case halt => trivial
  case save ih => exact ⟨h.1, ih h.2⟩
  case look ih => exact fun view => ih view (h view)
  case read ih => exact ⟨ih none h.1, fun e he => ih (some e) (h.2 e he)⟩
  case write ih => exact ⟨h.1, fun r => ih r (h.2 r)⟩
  case writeTo ih => exact ⟨h.1, fun r => ih r (h.2 r)⟩
  case divert ih => exact ⟨h.1, fun r => ih r (h.2 r)⟩
  all_goals exact ‹_ → _› h

theorem Plan.Silent.typed {σ α : Type} {good : σ → Prop} {plan : Plan σ α} (h : plan.Silent) :
    plan.Typed good := by
  induction h with
  | finish => trivial
  | look next _ ih => exact ih

/-! ### Values and fields -/

theorem Value.fits_of_ofYaml? {y : Yaml} {k : Kind} {v : Value} (h : ofYaml? y k = some v) :
    v.fits k = true := by
  unfold ofYaml? at h
  split at h
  all_goals first
    | (obtain ⟨x, -, rfl⟩ := Option.map_eq_some_iff.mp h; rfl)
    | (cases h; rfl)
    | cases h

/-- The place of a field has the layout of the input with another kind for the field. -/
theorem FieldPlace.output_of_find {field : String} {retype : Kind → Kind} {input : Layout}
    {place : FieldPlace} (h : find field retype input = .ok place) :
    ∃ f, input.field? place.index = some f ∧
      place.output = input.set place.index { f with kind := retype f.kind } := by
  rcases find_cases field retype input with ⟨-, hf⟩ | ⟨i, f, hat, -, -, hf⟩ <;> rw [hf] at h <;>
    cases h
  exact ⟨f, hat, rfl⟩

theorem FieldPlace.conforms_set {field : String} {retype : Kind → Kind} {input : Layout}
    {place : FieldPlace} {row : Row} {v : Value} (h : find field retype input = .ok place)
    (hrow : row.conforms input = true)
    (hv : ∀ f, input.field? place.index = some f → v.fits (retype f.kind) = true) :
    (Entry.mk place.output (row.set place.index v)).Conforms := by
  obtain ⟨f, hf, hout⟩ := output_of_find h
  show (row.set place.index v).conforms place.output = true
  rw [hout]
  exact row.conforms_set hrow place.index (hv f hf)

theorem Row.fits_getD {row : Row} {input : Layout} {i : Nat} {f : Field}
    (h : row.conforms input = true) (hf : input.field? i = some f) :
    ((row.get? i).getD .null).fits f.kind = true := by
  rcases hv : row.get? i with _ | v
  · rfl
  · exact Row.fits_of_conforms h hv hf

/-! ### Transforms of one field -/

theorem typed_rewriteField {σ : Type} {good : σ → Prop} {resolver : FieldResolver}
    {retype : Kind → Kind} {keep : FieldResolver → σ}
    {applyAt : FieldPlace → Row → Except TransformError Entry} (sound : resolver.Sound retype)
    (kept : ∀ r : FieldResolver, r.Sound retype → good (keep r))
    (applied : ∀ input place row out, FieldPlace.find resolver.field retype input = .ok place →
      row.conforms input = true → applyAt place row = .ok out → out.Conforms) :
    Plan.Typed good (rewriteField resolver retype keep applyAt) := by
  rw [rewriteField_eq]
  refine ⟨trivial, fun e he => ?_⟩
  dsimp only
  rcases FieldResolver.resolve_spec sound e.layout with ⟨err, hf, hr⟩ | ⟨place, r', hf, hr, -, hs⟩
  · rw [hr]
    trivial
  · rw [hr]
    refine ⟨kept r' hs, ?_⟩
    rcases ha : applyAt place e.row with err | out
    · trivial
    · exact ⟨applied e.layout place e.row out hf he ha, fun _ => trivial⟩

/-- The product is an integer only if both the field and the factor are. -/
theorem Multiply.retype_cases (t : Multiply) (kind : Kind) :
    (t.retype kind = .integer ∧ kind = .integer ∧ ∃ factor, t.wholeFactor? = some factor) ∨
      t.retype kind = .number := by
  unfold retype
  split
  · rename_i hcond
    obtain ⟨hkind, hfactor⟩ := Bool.and_eq_true_iff.mp hcond
    exact Or.inl ⟨rfl, of_decide_eq_true hkind, Option.isSome_iff_exists.mp hfactor⟩
  · exact Or.inr rfl

/-- The product has the kind that the layout says, if the value had. -/
theorem Multiply.fits_of_multiply {t : Multiply} {value v : Value} {kind : Kind}
    (hvalue : value.fits kind = true) (h : t.multiply value (t.retype kind) = .ok v) :
    v.fits (t.retype kind) = true := by
  unfold multiply at h
  dsimp only at h
  split at h
  · cases h
    rfl
  · rename_i hkind _
    rw [hkind]
    split at h <;> cases h
    rfl
  · rename_i value _ _ _ _ hrest
    rcases t.retype_cases kind with ⟨hto, hfrom, factor, hfactor⟩ | hto
    · cases value
      -- an integer would have been multiplied as one
      case integer => exact absurd hfactor (hrest _ factor rfl hto)
      case number => simp [hfrom, Value.fits, Value.kind?] at hvalue
      all_goals cases h
    · rw [hto]
      split at h <;> cases h
      rfl

theorem ParseInteger.fits_of_parse {field : String} {value v : Value}
    (h : parse field value = .ok v) : v.fits .integer = true := by
  unfold parse at h
  dsimp only at h
  split at h
  · cases h
    rfl
  · cases h
    rfl
  · split at h <;> cases h
    rfl
  · cases h

/-! ### Generated rows -/

namespace GenerateRows

theorem fits_of_convert {kind : Kind} {values : List Yaml} {ws : List Value}
    (h : convert kind values = .ok ws) : ∀ w ∈ ws, w.fits kind = true := by
  induction values generalizing ws with
  | nil =>
    cases h
    exact List.forall_mem_nil _
  | cons y rest ih =>
    rw [convert, List.mapM_cons] at h
    rcases hy : Value.ofYaml? y kind with _ | w
    · rw [hy] at h
      cases h
    · rw [hy] at h
      change (convert kind rest).bind (fun ws' => .ok (w :: ws')) = .ok ws at h
      rcases hrest : convert kind rest with err | ws'
      · rw [hrest] at h
        cases h
      · rw [hrest] at h
        cases h
        exact List.forall_mem_cons.mpr ⟨Value.fits_of_ofYaml? hy, ih hrest⟩

theorem conforms_row {t : GenerateRows} {field : String} {kind : Kind}
    (hlayout : t.layout = ⟨[⟨field, kind, -1, -1⟩]⟩)
    (hvalues : ∀ w ∈ t.values, w.fits kind = true) (n : Nat) : (t.row n).Conforms := by
  refine Row.conforms_iff.mpr ?_
  rw [row, hlayout]
  refine .cons ?_ .nil
  rcases hv : t.values[n % t.values.size]? with _ | v
  · rfl
  · exact hvalues v (Array.mem_of_getElem? hv)

theorem conforms_row_of_ofSpec {spec : TransformSpec} {t : GenerateRows}
    (h : ofSpec spec = .ok t) (n : Nat) : (t.row n).Conforms := by
  unfold ofSpec new at h
  simp only [bind, Except.bind] at h
  split at h
  · cases h
  · split at h
    · cases h
    · rename_i values hvalues
      split at h <;> cases h
      refine conforms_row rfl (fun w hw => ?_) n
      exact fits_of_convert hvalues w (List.mem_toArray.mp hw)

end GenerateRows

/-! ### The built-in transforms -/

namespace Builtin

/-- What a transform has kept is right: the values of a source have their kind, and the place of a
field is the one in its layout. -/
def Typed : Builtin → Prop
  | generateRows t => ∀ n, (t.row n).Conforms
  | multiply t => t.field.Sound t.retype
  | parseInteger t => t.field.Sound fun _ => .integer
  | dummy _ | filterRows _ | writeToLog _ => True

theorem typed_generateRows {t : GenerateRows} (h : Typed (generateRows t)) :
    (Transform.process (generateRows t)).Typed Typed := by
  show ((Transform.process t : Attempt GenerateRows Bool).embed generateRows).Typed Typed
  refine Plan.Typed.embed ?_
  unfold Transform.process instTransformGenerateRows
  dsimp only
  split
  · trivial
  · rename_i entry hnext
    unfold GenerateRows.next? at hnext
    split at hnext <;> cases hnext
    refine ⟨h t.emitted.toNat, fun r => ?_⟩
    cases r
    · trivial
    · exact ⟨h, trivial⟩

/-- **The built-in transforms** compute values of the kinds that they declare. -/
theorem keepsTypes : Transform.KeepsTypes Typed where
  init b _ := (silent_init b).typed
  dispose _ _ := trivial
  process b hb := by
    cases b
    case generateRows => exact typed_generateRows hb
    case dummy => exact ⟨trivial, fun e he => ⟨he, fun r => by cases r <;> trivial⟩⟩
    case multiply t =>
      refine Plan.Typed.embed (typed_rewriteField hb (fun r hr => hr) ?_)
      intro input place row out hf hrow ha
      obtain ⟨f, hfield, hout⟩ := FieldPlace.output_of_find hf
      have hkind : ((place.output.field? place.index).map Field.kind).getD .number =
          t.retype f.kind := by
        rw [hout, Layout.field?_set hfield]
        rfl
      unfold Multiply.applyAt at ha
      dsimp only at ha
      rw [hkind] at ha
      rcases hm : t.multiply ((row.get? place.index).getD .null) (t.retype f.kind) with err | v
      · rw [hm] at ha
        cases ha
      · rw [hm] at ha
        cases ha
        refine FieldPlace.conforms_set hf hrow fun f' hf' => ?_
        obtain rfl : f = f' := Option.some.inj (hfield.symm.trans hf')
        exact Multiply.fits_of_multiply (Row.fits_getD hrow hfield) hm
    case parseInteger t =>
      refine Plan.Typed.embed (typed_rewriteField hb (fun r hr => hr) ?_)
      intro input place row out hf hrow ha
      unfold ParseInteger.applyAt at ha
      rcases hp : ParseInteger.parse t.field.field ((row.get? place.index).getD .null) with err | v
      · rw [hp] at ha
        cases ha
      · rw [hp] at ha
        cases ha
        exact FieldPlace.conforms_set hf hrow fun f _ => ParseInteger.fits_of_parse hp
    case filterRows t =>
      refine ⟨trivial, fun e he => ?_⟩
      dsimp only [bind, ExceptT.bind, ExceptT.mk, ExceptT.bindCont, Plan.bind, Plan.embed]
      rcases t.route e with err | branch
      · trivial
      · rcases branch with _ | target | _
        · exact ⟨he, fun r => by cases r <;> trivial⟩
        · exact ⟨he, fun r => by cases r <;> trivial⟩
        · trivial
    case writeToLog =>
      exact ⟨trivial, fun e he => ⟨trivial, fun _ => ⟨he, fun r => by cases r <;> trivial⟩⟩⟩

/-- A transform that has just been made has made sure of its values. -/
theorem typed_of_ofSpec {spec : TransformSpec} {b : Builtin} (h : ofSpec spec = .ok b) :
    b.Typed := by
  have hready := ready_of_ofSpec h
  unfold ofSpec ofType at h
  split at h
  · obtain ⟨t, ht, rfl⟩ := exists_of_map_ok h
    exact GenerateRows.conforms_row_of_ofSpec ht
  · cases h
    trivial
  · obtain ⟨t, -, rfl⟩ := exists_of_map_ok h
    exact hready.2.2
  · obtain ⟨t, -, rfl⟩ := exists_of_map_ok h
    exact hready.2
  · obtain ⟨t, -, rfl⟩ := exists_of_map_ok h
    trivial
  · obtain ⟨t, -, rfl⟩ := exists_of_map_ok h
    trivial
  · cases h

end Builtin

end Rowflow
