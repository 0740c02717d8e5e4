import Rowflow.Proofs.Transform.Conduct
import Rowflow.Transform.Builtin

/-!
# The conduct of the built-in transforms

What every built-in transform makes of a row depends on nothing but the row and on how the transform
was made: what a transform of one field remembers about layouts is what it would compute anew, and
the numbers that others keep count rows. `Builtin.conduct` says it, and `Builtin.conforms` that the
transforms do it.
-/

namespace Rowflow

/-! ### Remembered places -/

/-- What a resolver remembers is what it would find. -/
def FieldResolver.Sound (r : FieldResolver) (retype : Kind → Kind) : Prop :=
  ∀ layout place, r.known = some (layout, place) → FieldPlace.find r.field retype layout = .ok place

/-- A resolver finds the place of its field and goes on remembering what it would find. -/
theorem FieldResolver.resolve_spec {r : FieldResolver} {retype : Kind → Kind}
    (hr : r.Sound retype) (input : Layout) :
    (∃ err, FieldPlace.find r.field retype input = .error err ∧
      r.resolve retype input = .error err) ∨
    ∃ place r', FieldPlace.find r.field retype input = .ok place ∧
      r.resolve retype input = .ok (place, r') ∧ r'.field = r.field ∧ r'.Sound retype := by
  have hfind : (∃ err, FieldPlace.find r.field retype input = .error err ∧
        (do
          let place ← FieldPlace.find r.field retype input
          return (place, { r with known := some (input, place) }) :
            Except TransformError (FieldPlace × FieldResolver)) = .error err) ∨
      ∃ place r', FieldPlace.find r.field retype input = .ok place ∧
        (do
          let place ← FieldPlace.find r.field retype input
          return (place, { r with known := some (input, place) }) :
            Except TransformError (FieldPlace × FieldResolver)) = .ok (place, r') ∧
        r'.field = r.field ∧ r'.Sound retype := by
    rcases hf : FieldPlace.find r.field retype input with err | place
    · exact Or.inl ⟨err, rfl, rfl⟩
    · refine Or.inr ⟨place, _, rfl, rfl, rfl, ?_⟩
      rintro layout place' ⟨⟩
      exact hf
  unfold resolve
  rcases hk : r.known with _ | ⟨layout, place⟩
  · exact hfind
  · dsimp only
    split
    · rename_i hl
      subst hl
      exact Or.inr ⟨place, r, hr _ _ hk, rfl, rfl, hr⟩
    · exact hfind

theorem FieldPlace.find_cases (field : String) (retype : Kind → Kind) (input : Layout) :
    ((∀ f ∈ input.fields, f.name ≠ field) ∧
      find field retype input = .error (missingField field input)) ∨
    ∃ i f, input.field? i = some f ∧ f.name = field ∧
      (∀ j < i, ∀ g, input.field? j = some g → g.name ≠ field) ∧
      find field retype input = .ok ⟨i, input.set i { f with kind := retype f.kind }⟩ := by
  unfold find
  rcases hi : input.indexOf? field with _ | i
  · refine Or.inl ⟨fun f hf => ?_, rfl⟩
    exact of_decide_eq_false (List.findIdx?_eq_none_iff.mp hi f hf)
  · obtain ⟨hlt, hname, hfirst⟩ := List.findIdx?_eq_some_iff_getElem.mp hi
    have hf : input.field? i = some input.fields[i] := List.getElem?_eq_getElem hlt
    refine Or.inr ⟨i, input.fields[i], hf, of_decide_eq_true hname, fun j hj g hg => ?_, ?_⟩
    · obtain ⟨hlt', rfl⟩ := List.getElem?_eq_some_iff.mp hg
      exact fun h => hfirst j hj (decide_eq_true h)
    · simp only [hf]
      split
      · rename_i hkind
        -- a field that keeps its kind is put in the place of itself
        have hsame : { input.fields[i] with kind := retype input.fields[i].kind } = input.fields[i] := by
          rw [hkind]
        rw [Layout.set, hsame, List.set_getElem_self]
      · rfl

theorem FieldPlace.fatal_of_find {field : String} {retype : Kind → Kind} {input : Layout}
    {err : TransformError} (h : FieldPlace.find field retype input = .error err) : err.IsFatal := by
  rcases find_cases field retype input with ⟨-, hf⟩ | ⟨i, f, -, -, -, hf⟩ <;> rw [hf] at h <;> cases h
  exact ⟨rfl, fun m f c => by simp [missingField]⟩

theorem rewriteField_eq {σ : Type} (resolver : FieldResolver) (retype : Kind → Kind)
    (keep : FieldResolver → σ) (applyAt : FieldPlace → Row → Except TransformError Entry) :
    rewriteField resolver retype keep applyAt = Plan.read fun row =>
      match row with
      | none => .finish (.ok false)
      | some e =>
        match resolver.resolve retype e.layout with
        | .error err => .finish (.error err)
        | .ok (place, found) => .save (keep found) <|
          match applyAt place e.row with
          | .error err => .finish (.error err)
          | .ok out => .write out fun reply => .finish (reply.map fun _ => true) := by
  refine congrArg Plan.read (funext fun row => ?_)
  rcases row with _ | e
  · rfl
  · dsimp only [bind, ExceptT.bind, ExceptT.mk, ExceptT.bindCont, Plan.bind]
    rcases resolver.resolve retype e.layout with err | ⟨place, found⟩
    · rfl
    · refine congrArg (Plan.save (keep found)) ?_
      dsimp only [rewriteField.liftExcept, ExceptT.mk, Plan.bind, ExceptT.bindCont]
      rcases applyAt place e.row with err | out
      · rfl
      · refine congrArg (Plan.write out) (funext fun reply => ?_)
        cases reply <;> rfl

/-! ### Verdicts -/

/-- The error of a value that cannot be rewritten is a bad row. -/
def OnlyBadRows (r : Except TransformError Entry) : Prop :=
  ∀ err, r = .error err → ∃ m f c, err = .row m f c

namespace Multiply

/-- The product of a row, or what is wrong with it. -/
def verdict (t : Multiply) (e : Entry) : Verdict :=
  match FieldPlace.find t.field.field t.retype e.layout with
  | .error err => .fail err
  | .ok place => .ofResult (t.applyAt place e.row)

/-- The kind of the product depends on the factor alone. -/
theorem retype_congr {t t₀ : Multiply} (h : t.factor = t₀.factor) : t.retype = t₀.retype := by
  unfold retype wholeFactor?
  rw [h]

theorem refusal {t : Multiply} {value : Value} {kind : Kind} {err : TransformError}
    (h : t.multiply value kind = .error err) :
    ∃ m c, err = .row m (some t.field.field) (some c) := by
  unfold multiply at h
  dsimp only at h
  split at h
  · cases h
  · split at h <;> cases h
    exact ⟨_, _, rfl⟩
  · split at h <;> cases h
    exact ⟨_, _, rfl⟩

theorem onlyBadRows (t : Multiply) (place : FieldPlace) (row : Row) :
    OnlyBadRows (t.applyAt place row) := by
  intro err h
  unfold applyAt at h
  generalize (row.get? place.index).getD .null = value at h
  generalize ((place.output.field? place.index).map Field.kind).getD .number = kind at h
  rcases hm : t.multiply value kind with err' | v <;> simp only [hm, bind, Except.bind] at h <;>
    cases h
  obtain ⟨m, c, rfl⟩ := refusal hm
  exact ⟨m, _, _, rfl⟩

theorem new_of_ofSpec {spec : TransformSpec} {t : Multiply} (h : ofSpec spec = .ok t) :
    t.factor.isFinite = true ∧ t.field.known = none := by
  unfold ofSpec new at h
  simp only [bind, Except.bind] at h
  split at h
  · cases h
  · split at h <;> cases h
    exact ⟨‹_›, rfl⟩

end Multiply

namespace ParseInteger

/-- The row with its integer, or what is wrong with it. -/
def verdict (t : ParseInteger) (e : Entry) : Verdict :=
  match FieldPlace.find t.field.field (fun _ => .integer) e.layout with
  | .error err => .fail err
  | .ok place => .ofResult (t.applyAt place e.row)

theorem refusal {field : String} {value : Value} {err : TransformError}
    (h : parse field value = .error err) : ∃ m c, err = .row m (some field) (some c) := by
  unfold parse at h
  dsimp only at h
  split at h
  · cases h
  · cases h
  · split at h <;> cases h
    exact ⟨_, _, rfl⟩
  · cases h
    exact ⟨_, _, rfl⟩

theorem onlyBadRows (t : ParseInteger) (place : FieldPlace) (row : Row) :
    OnlyBadRows (t.applyAt place row) := by
  intro err h
  unfold applyAt at h
  rcases hp : parse t.field.field ((row.get? place.index).getD .null) with err' | v <;>
    simp only [hp, bind, Except.bind] at h <;> cases h
  obtain ⟨m, c, rfl⟩ := refusal hp
  exact ⟨m, _, _, rfl⟩

end ParseInteger

namespace FilterRows

/-- Where a row goes. -/
def verdict (t : FilterRows) (e : Entry) : Verdict :=
  match t.route e with
  | .error err => .fail err
  | .ok .outputs => .pass e
  | .ok (.output target) => .send target e
  | .ok .nowhere => .drop

theorem fatal_of_route {t : FilterRows} {e : Entry} {err : TransformError}
    (h : t.route e = .error err) : err.IsFatal := by
  unfold route at h
  split at h <;> cases h
  exact ⟨rfl, fun m f c => by simp [missingField]⟩

/-- A filter that names an output never leaves it to the movement where a row goes. -/
theorem verdict_ne_pass {t : FilterRows} (h : t.isRouting = true) (e out : Entry) :
    t.verdict e ≠ .pass out := by
  have hbranch : ∀ m, t.branch m ≠ .outputs := by
    intro m
    unfold branch
    rw [if_pos h]
    split <;> exact fun h => by cases h
  unfold verdict
  rcases hr : t.route e with err | branch
  · exact fun h => by cases h
  · rcases branch with _ | target | _
    · unfold route at hr
      split at hr
      · cases hr
      · exact absurd (Except.ok.inj hr) (hbranch _)
    · exact fun h => by cases h
    · exact fun h => by cases h

end FilterRows

namespace GenerateRows

/-- The row of the given number. -/
def row (t : GenerateRows) (n : Nat) : Entry :=
  ⟨t.layout, ⟨[(t.values[n % t.values.size]?).getD .null]⟩⟩

/-- All rows, in order. -/
def rows (t : GenerateRows) : List Entry := (List.range t.total.toNat).map t.row

end GenerateRows

/-! ### Roles -/

namespace Builtin

/-- What a built-in transform does with rows. -/
def conduct : Builtin → Conduct
  | generateRows t => .source t.rows
  | dummy _ => .reader .pass
  | multiply t => .reader t.verdict
  | parseInteger t => .reader t.verdict
  | filterRows t => .reader t.verdict
  | writeToLog _ => .reader .pass

/-- The states of a transform made as `made`, after some rows. -/
def Ready (made : Builtin) (feed : List Entry) (now : Builtin) : Prop :=
  match made, now with
  | generateRows t₀, generateRows t => t.layout = t₀.layout ∧ t.values = t₀.values ∧
      t.total = t₀.total ∧ t.emitted.toNat ≤ t₀.total.toNat ∧ feed = t₀.rows.take t.emitted.toNat
  | dummy _, dummy _ => True
  | multiply t₀, multiply t =>
      t.factor = t₀.factor ∧ t.field.field = t₀.field.field ∧ t.field.Sound t₀.retype
  | parseInteger t₀, parseInteger t =>
      t.field.field = t₀.field.field ∧ t.field.Sound fun _ => .integer
  | filterRows t₀, filterRows t => t = t₀
  | writeToLog _, writeToLog _ => True
  | _, _ => False

/-- The role of a transform made as `made`. -/
def role (made : Builtin) : Role Builtin := ⟨made.conduct, made.Ready⟩

theorem opens_rewriteField {σ : Type} {wrap : σ → Builtin} {r : Role Builtin} {feed : List Entry}
    {now : Builtin} {resolver : FieldResolver} {retype : Kind → Kind} {keep : FieldResolver → σ}
    {applyAt : FieldPlace → Row → Except TransformError Entry} {v : Entry → Verdict}
    (kind : r.conduct = .reader v) (sound : resolver.Sound retype)
    (failing : ∀ e err, FieldPlace.find resolver.field retype e.layout = .error err →
      v e = .fail err)
    (found : ∀ e place, FieldPlace.find resolver.field retype e.layout = .ok place →
      v e = .ofResult (applyAt place e.row))
    (rows : ∀ place row, OnlyBadRows (applyAt place row))
    (kept : ∀ r' : FieldResolver, r'.field = resolver.field → r'.Sound retype →
      ∀ feed, r.ready feed (wrap (keep r'))) :
    Plan.Opens r feed now ((rewriteField resolver retype keep applyAt).embed wrap) := by
  rw [rewriteField_eq]
  refine .read v _ kind rfl fun e => ?_
  dsimp only
  rcases FieldResolver.resolve_spec sound e.layout with ⟨err, hf, hr⟩ | ⟨place, r', hf, hr, hfield, hs⟩
  · rw [failing e err hf, hr]
    exact .fail err _ (FieldPlace.fatal_of_find hf)
  · rw [found e place hf, hr]
    refine .save _ _ (wrap (keep r')) _ ?_
    have hready := kept r' hfield hs (feed ++ [e])
    rcases ha : applyAt place e.row with err | out
    · obtain ⟨m, f, c, rfl⟩ := rows place e.row err ha
      exact .reject m f c _ hready
    · exact .pass out _ _ (.finish _ hready) fun _ => rfl

theorem opens_generateRows {t₀ t : GenerateRows} {feed : List Entry}
    (h : Ready (generateRows t₀) feed (generateRows t)) :
    Plan.Opens (role (generateRows t₀)) feed (generateRows t)
      (Transform.process (generateRows t)) := by
  obtain ⟨hlayout, hvalues, htotal, hle, hfeed⟩ := h
  have hlength : t₀.rows.length = t₀.total.toNat := by
    unfold GenerateRows.rows
    rw [List.length_map, List.length_range]
  have hplan : Transform.process (generateRows t) =
      ((Transform.process t : Attempt GenerateRows Bool)).embed generateRows := rfl
  rw [hplan]
  by_cases hlt : t.emitted < t.total
  · have hnext : t.next? = some (t₀.row t.emitted.toNat) := by
      unfold GenerateRows.next? GenerateRows.row
      rw [if_pos hlt, hlayout, hvalues]
    have hlt' : t.emitted.toNat < t₀.total.toNat := by
      rw [← htotal]
      exact UInt64.lt_iff_toNat_lt.mp hlt
    have hrow : t₀.rows[t.emitted.toNat]? = some (t₀.row t.emitted.toNat) := by
      unfold GenerateRows.rows
      rw [List.getElem?_map, List.getElem?_range hlt']
      rfl
    have hsucc : (t.emitted + 1).toNat = t.emitted.toNat + 1 := by
      have := t₀.total.toNat_lt
      rw [UInt64.toNat_add]
      exact Nat.mod_eq_of_lt (by show t.emitted.toNat + 1 < 2 ^ 64; omega)
    have hmore : feed ++ [t₀.row t.emitted.toNat] = t₀.rows.take (t.emitted.toNat + 1) := by
      rw [List.take_add_one, hrow, hfeed]
      rfl
    refine .emit t₀.rows (t₀.row t.emitted.toNat) _ rfl ?_ ?_
    · rw [hmore]
      exact List.take_prefix _ _
    · unfold Transform.process instTransformGenerateRows
      simp only [hnext]
      refine .pass _ _ _ (.save _ _ _ (.finish _ ?_)) fun _ => rfl
      refine ⟨hlayout, hvalues, htotal, ?_, ?_⟩
      · dsimp only
        omega
      · dsimp only
        rw [hsucc]
        exact hmore
  · have hnext : t.next? = none := if_neg hlt
    have hge : t₀.total.toNat ≤ t.emitted.toNat := by
      rw [← htotal]
      exact Nat.le_of_not_lt fun h => hlt (UInt64.lt_iff_toNat_lt.mpr h)
    unfold Transform.process instTransformGenerateRows
    simp only [hnext]
    refine .exhausted t₀.rows rfl ?_
    rw [hfeed, List.take_of_length_le (by omega)]

/-- **The built-in transforms** play their roles. -/
theorem conforms (made : Builtin) : made.role.Conforms where
  quiet _ := rfl
  opens feed now h := by
    cases made <;> cases now
    case generateRows.generateRows => exact opens_generateRows h
    case dummy.dummy =>
      exact .read _ _ rfl rfl fun e => .pass e _ _ (.finish _ trivial) fun _ => rfl
    case multiply.multiply t₀ t =>
      obtain ⟨hfactor, hfield, hsound⟩ := h
      have hretype := Multiply.retype_congr hfactor
      have hmultiply : ∀ place row, t.applyAt place row = t₀.applyAt place row := by
        intro place row
        unfold Multiply.applyAt Multiply.multiply Multiply.wholeFactor?
        rw [hfactor, hfield]
      refine opens_rewriteField (v := t₀.verdict) rfl (by rwa [hretype]) ?_ ?_
        t.onlyBadRows ?_
      · intro e err hf
        rw [hretype, hfield] at hf
        unfold Multiply.verdict
        rw [hf]
      · intro e place hf
        rw [hretype, hfield] at hf
        unfold Multiply.verdict
        rw [hf, hmultiply]
      · intro r' hr hs _
        exact ⟨hfactor, hr.trans hfield, by rwa [hretype] at hs⟩
    case parseInteger.parseInteger t₀ t =>
      obtain ⟨hfield, hsound⟩ := h
      have hparse : ∀ place row, t.applyAt place row = t₀.applyAt place row := by
        intro place row
        unfold ParseInteger.applyAt
        rw [hfield]
      refine opens_rewriteField (v := t₀.verdict) rfl hsound ?_ ?_ t.onlyBadRows ?_
      · intro e err hf
        rw [hfield] at hf
        unfold ParseInteger.verdict
        rw [hf]
      · intro e place hf
        rw [hfield] at hf
        unfold ParseInteger.verdict
        rw [hf, hparse]
      · intro r' hr hs _
        exact ⟨hr.trans hfield, hs⟩
    case filterRows.filterRows t₀ t =>
      obtain rfl : t = t₀ := h
      refine .read t.verdict _ rfl rfl fun e => ?_
      unfold FilterRows.verdict
      dsimp only [bind, ExceptT.bind, ExceptT.mk, ExceptT.bindCont, Plan.bind, Plan.embed]
      rcases hr : t.route e with err | branch
      · exact .fail err _ (FilterRows.fatal_of_route hr)
      · rcases branch with _ | target | _
        · exact .pass e _ _ (.finish _ rfl) fun _ => rfl
        · exact .send target e _ _ (.finish _ rfl) fun _ => rfl
        · exact .drop _ rfl
    case writeToLog.writeToLog =>
      exact .read _ _ rfl rfl fun e => .save _ _ _ _ (.look _ _ _ fun view =>
        .report _ _ _ _ (.pass e _ _ (.finish _ trivial) fun _ => rfl))
    all_goals exact absurd h id

/-- Before any row flows, the built-in transforms do nothing but look around. -/
theorem silent_init (b : Builtin) : (Transform.init b).Silent := by
  cases b
  case filterRows t =>
    refine .look _ fun view => ?_
    dsimp only [Plan.embed]
    split
    · exact .finish _
    · exact .finish _
  all_goals exact .finish _

theorem exists_of_map_ok {α : Type} {f : α → Builtin} {x : Except String α} {b : Builtin}
    (h : f <$> x = .ok b) : ∃ a, x = .ok a ∧ f a = b := by
  rcases x with e | a
  · cases h
  · exact ⟨a, rfl, Except.ok.inj h⟩

theorem ready_of_ofSpec {spec : TransformSpec} {b : Builtin} (h : ofSpec spec = .ok b) :
    b.Ready [] b := by
  unfold ofSpec ofType at h
  split at h
  · obtain ⟨t, ht, rfl⟩ := exists_of_map_ok h
    have hfresh : t.emitted = 0 := by
      unfold GenerateRows.ofSpec GenerateRows.new at ht
      rcases hr : spec.readOptions GenerateRows.readOptions with e | o
      · simp only [hr, bind, Except.bind] at ht
        cases ht
      · simp only [hr, bind, Except.bind] at ht
        rcases hc : GenerateRows.convert (o.kind.getD (GenerateRows.inferKind o.values.head?))
          o.values with e | values
        · rw [hc] at ht
          cases ht
        · rw [hc] at ht
          dsimp only at ht
          split at ht <;> cases ht
          rfl
    refine ⟨rfl, rfl, rfl, ?_, ?_⟩
    · rw [hfresh]
      exact Nat.zero_le _
    · rw [hfresh]
      rfl
  · cases h
    trivial
  · obtain ⟨t, ht, rfl⟩ := exists_of_map_ok h
    have hfresh := (Multiply.new_of_ofSpec ht).2
    exact ⟨rfl, rfl, fun l place hk => by rw [hfresh] at hk; cases hk⟩
  · obtain ⟨t, ht, rfl⟩ := exists_of_map_ok h
    have hfresh : t.field.known = none := by
      unfold ParseInteger.ofSpec at ht
      simp only [bind, Except.bind] at ht
      split at ht
      · cases ht
      · cases ht
        rfl
    exact ⟨rfl, fun l place hk => by rw [hfresh] at hk; cases hk⟩
  · obtain ⟨t, -, rfl⟩ := exists_of_map_ok h
    rfl
  · obtain ⟨t, -, rfl⟩ := exists_of_map_ok h
    trivial
  · cases h

theorem multiply_of_ofSpec {spec : TransformSpec} {t : Multiply}
    (h : ofSpec spec = .ok (multiply t)) : Multiply.ofSpec spec = .ok t := by
  unfold ofSpec ofType at h
  split at h
  case h_3 =>
    obtain ⟨t', ht, hsame⟩ := exists_of_map_ok h
    cases hsame
    exact ht
  all_goals first
    | (obtain ⟨_, -, hsame⟩ := exists_of_map_ok h; cases hsame)
    | cases h

theorem type_of_source {spec : TransformSpec} {b : Builtin} (h : ofSpec spec = .ok b)
    {rows : List Entry} (hc : b.conduct = .source rows) : spec.type = "generate_rows" := by
  unfold ofSpec ofType at h
  split at h
  · assumption
  · cases h
    cases hc
  · obtain ⟨t, -, rfl⟩ := exists_of_map_ok h
    cases hc
  · obtain ⟨t, -, rfl⟩ := exists_of_map_ok h
    cases hc
  · obtain ⟨t, -, rfl⟩ := exists_of_map_ok h
    cases hc
  · obtain ⟨t, -, rfl⟩ := exists_of_map_ok h
    cases hc
  · cases h

end Builtin

end Rowflow
