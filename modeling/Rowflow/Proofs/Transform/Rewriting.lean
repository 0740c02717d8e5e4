import Mathlib.Algebra.Ring.Int.Defs
import Mathlib.Algebra.Ring.Nat
import Rowflow.Proofs.Transform.Typing

/-!
# Transforms of one field

A transform that rewrites one field remembers its place for the layout that came last. A call still
depends on nothing but its own row: in a run of calls (`Builtin.attend`), whatever layouts come,
whatever fails in between and however often what is remembered is lost, every call comes to
`Rewriting.result`, which looks for the field anew (`Builtin.rewrites_rows`). The result is the entry
with another kind and another value in the first field of the name, or an error (`Rewriting.Gives`),
and the product of two integers is exact or refused (`Multiply.multiply_whole`).
-/

namespace Rowflow

/-! ### Calls by themselves -/

/-- What is seen of a call: the row that it has not read, what it has written, and its answer. -/
structure Plan.Seen where
  unread : Option Entry
  written : List Entry
  answer : Except TransformError Bool
  deriving DecidableEq

/-- What is seen of a call that reads its row and then writes the result, or fails with it. -/
def Plan.Seen.ofResult (reply : Except TransformError Unit) :
    Except TransformError Entry → Plan.Seen
  | .ok e => ⟨none, [e], reply.map fun _ => true⟩
  | .error err => ⟨none, [], .error err⟩

/-- A call by itself, with one row to read and outputs that answer `reply`: what is seen of it, and
the state that it leaves. There is none if the call does anything but read, write and save. -/
def Plan.visit {σ : Type} (reply : Except TransformError Unit) :
    Plan σ (Except TransformError Bool) → σ → Option Entry → Option (Plan.Seen × σ)
  | .finish answer, state, row => some (⟨row, [], answer⟩, state)
  | .save saved next, _, row => next.visit reply saved row
  | .read next, state, row => (next row).visit reply state none
  | .write e next, state, row =>
    ((next reply).visit reply state row).map fun (seen, left) =>
      ({ seen with written := e :: seen.written }, left)
  | _, _, _ => none

namespace Builtin

/-- A call, with what is not up to the transform. -/
structure Call where
  /-- The row that there is to read. -/
  entry : Entry
  /-- What the outputs answer when a row is written. -/
  reply : Except TransformError Unit := .ok ()
  /-- Whether what is remembered is lost before, as it is when the layout is taken for another one
  than the equal layout that came last. -/
  anew : Bool := false

/-- The transform with no layout remembered. -/
def forget : Builtin → Builtin
  | multiply t => multiply { t with field.known := none }
  | parseInteger t => parseInteger { t with field.known := none }
  | b => b

/-- The state in which a transform is called. -/
def before (now : Builtin) (c : Call) : Builtin := if c.anew then now.forget else now

/-- A run of calls, each in the state that the one before has left, failed or not. -/
def attend : Builtin → List Call → Option (List Plan.Seen)
  | _, [] => some []
  | now, c :: rest => do
    let (seen, left) ← (Transform.process (now.before c)).visit c.reply (now.before c) (some c.entry)
    return seen :: (← left.attend rest)

end Builtin

/-! ### Rewritten entries -/

/-- What a transform makes of its field: the kind and the value that the field gets. -/
structure Rewriting where
  field : String
  retype : Kind → Kind
  /-- The new value, for the value and the kind of the field. -/
  revalue : Value → Kind → Except TransformError Value

/-- The entry with its field rewritten, or what is wrong with it. -/
def Rewriting.result (w : Rewriting) (e : Entry) : Except TransformError Entry := do
  let place ← FieldPlace.find w.field w.retype e.layout
  let kind := ((e.layout.field? place.index).map Field.kind).getD .number
  let value ← w.revalue ((e.row.get? place.index).getD .null) kind
  return ⟨place.output, e.row.set place.index value⟩

/-- What the transforms of one field make of it. -/
def Builtin.rewriting? : Builtin → Option Rewriting
  | multiply t => some ⟨t.field.field, t.retype, fun value kind => t.multiply value (t.retype kind)⟩
  | parseInteger t =>
    some ⟨t.field.field, fun _ => .integer, fun value _ => ParseInteger.parse t.field.field value⟩
  | _ => none

/-- The first field of a name, at the position `i`, with its value. -/
structure Entry.First (e : Entry) (name : String) (i : Nat) (f : Field) (x : Value) : Prop where
  field : e.layout.field? i = some f
  named : f.name = name
  first : ∀ j < i, ∀ g, e.layout.field? j = some g → g.name ≠ name
  value : e.row.get? i = some x

/-- `out` is the entry `e` with another kind and another value in the field `f`, which stands at the
position `i`. -/
structure Entry.Rewritten (e : Entry) (i : Nat) (f : Field) (kind : Kind) (value : Value)
    (out : Entry) : Prop where
  layout_size : out.layout.size = e.layout.size
  row_size : out.row.size = e.row.size
  field : out.layout.field? i = some { f with kind }
  value : out.row.get? i = some value
  fields : ∀ j, j ≠ i → out.layout.field? j = e.layout.field? j
  values : ∀ j, j ≠ i → out.row.get? j = e.row.get? j

/-- What a rewriting gives for an entry. -/
inductive Rewriting.Gives (w : Rewriting) (e : Entry) : Except TransformError Entry → Prop where
  | missing (absent : ∀ f ∈ e.layout.fields, f.name ≠ w.field) :
      w.Gives e (.error (missingField w.field e.layout))
  | refused (i : Nat) (f : Field) (x : Value) (message code : String)
      (first : e.First w.field i f x)
      (bad : w.revalue x f.kind = .error (.row message (some w.field) (some code))) :
      w.Gives e (.error (.row message (some w.field) (some code)))
  | rewritten (i : Nat) (f : Field) (x value : Value) (out : Entry)
      (first : e.First w.field i f x) (good : w.revalue x f.kind = .ok value)
      (rest : e.Rewritten i f (w.retype f.kind) value out) : w.Gives e (.ok out)

/-- The text of an overflow. -/
def Multiply.overflowText (field : String) (n : Int64) (k : Int) : String :=
  Text.showInt64 n ++ " * " ++ Text.showInt k ++ " overflows field '" ++ field ++ "'"

/-- An integer in an integer field comes to its product with `k`, or is refused because the product is
no integer of 64 bits. -/
def Rewriting.Exact (w : Rewriting) (k : Int) : Prop :=
  ∀ (e : Entry) (i : Nat) (f : Field) (n : Int64), e.row.size = e.layout.size →
    e.First w.field i f (.integer n) → f.kind = .integer →
    (∃ (p : Int64) (out : Entry), p.toInt = n.toInt * k ∧ w.result e = .ok out ∧
      e.Rewritten i f .integer (.integer p) out) ∨
    (n.toInt * k < -2 ^ 63 ∨ 2 ^ 63 ≤ n.toInt * k) ∧
      w.result e = .error
        (.row (Multiply.overflowText w.field n k) (some w.field) (some "MULTIPLY002"))

/-! ### One call -/

/-- A call of a transform of one field reads its row and comes to the result, as long as what is
remembered is what would be found; and so it is in the state that the call leaves. -/
theorem Rewriting.visit {w : Rewriting} {σ : Type} {wrap : σ → Builtin} {resolver : FieldResolver}
    {keep : FieldResolver → σ} {applyAt : FieldPlace → Row → Except TransformError Entry}
    (field : resolver.field = w.field) (sound : resolver.Sound w.retype)
    (applied : ∀ e : Entry, (FieldPlace.find w.field w.retype e.layout).bind
      (fun place => applyAt place e.row) = w.result e)
    (now : Builtin) (reply : Except TransformError Unit) (e : Entry) :
    ∃ left, ((rewriteField resolver w.retype keep applyAt).embed wrap).visit reply now (some e) =
        some (.ofResult reply (w.result e), left) ∧
      (left = now ∨ ∃ r : FieldResolver,
        left = wrap (keep r) ∧ r.field = w.field ∧ r.Sound w.retype) := by
  rw [rewriteField_eq, ← applied e]
  dsimp only [Plan.embed, Plan.visit]
  rcases FieldResolver.resolve_spec sound e.layout with
    ⟨err, hf, hr⟩ | ⟨place, r, hf, hr, hfield, hsound⟩ <;> rw [field] at hf <;> rw [hr, hf]
  · exact ⟨now, rfl, Or.inl rfl⟩
  · refine ⟨wrap (keep r), ?_, Or.inr ⟨r, rfl, hfield.trans field, hsound⟩⟩
    dsimp only [Except.bind]
    rcases applyAt place e.row with err | out <;> rfl

/-- The product belongs to the kind that the output has at the place of the field. -/
theorem Multiply.applyAt_result (t : Multiply) (e : Entry) :
    (FieldPlace.find t.field.field t.retype e.layout).bind (fun place => t.applyAt place e.row) =
      Rewriting.result
        ⟨t.field.field, t.retype, fun value kind => t.multiply value (t.retype kind)⟩ e := by
  unfold Rewriting.result Multiply.applyAt
  rcases FieldPlace.find_cases t.field.field t.retype e.layout with
    ⟨-, hf⟩ | ⟨i, f, hat, -, -, hf⟩ <;> simp only [hf]
  · rfl
  · have hkind := Layout.field?_set hat { f with kind := t.retype f.kind }
    simp only [bind, Except.bind, hat, hkind, Option.map_some, Option.getD_some]

theorem ParseInteger.applyAt_result (t : ParseInteger) (e : Entry) :
    (FieldPlace.find t.field.field (fun _ => .integer) e.layout).bind
      (fun place => t.applyAt place e.row) =
    Rewriting.result
      ⟨t.field.field, fun _ => .integer, fun value _ => parse t.field.field value⟩ e := rfl

namespace Builtin

variable {made now : Builtin} {w : Rewriting}

/-- A transform that is ready makes the same of its field as when it was made. -/
theorem Ready.rewriting? {feed : List Entry} (h : made.Ready feed now) :
    now.rewriting? = made.rewriting? := by
  cases made <;> cases now
  case multiply.multiply =>
    obtain ⟨hfactor, hfield, -⟩ := h
    unfold Builtin.rewriting? Multiply.retype Multiply.multiply Multiply.wholeFactor?
    simp only [hfactor, hfield]
  case parseInteger.parseInteger =>
    unfold Builtin.rewriting?
    simp only [h.1]
  all_goals first
    | rfl
    | exact absurd h id

theorem Ready.before {feed : List Entry} (h : made.Ready feed now) (c : Call) :
    made.Ready feed (now.before c) := by
  unfold Builtin.before
  split
  · cases made <;> cases now
    case multiply.multiply => exact ⟨h.1, h.2.1, fun _ _ hk => by cases hk⟩
    case parseInteger.parseInteger => exact ⟨h.1, fun _ _ hk => by cases hk⟩
    all_goals exact h
  · exact h

/-- **One call** comes to the result for its row, and leaves the transform ready for the next call,
whether it has failed or not. -/
theorem Ready.visit (hw : made.rewriting? = some w) (h : made.Ready [] now) (c : Call) :
    ∃ left, (Transform.process (now.before c)).visit c.reply (now.before c) (some c.entry) =
        some (.ofResult c.reply (w.result c.entry), left) ∧ made.Ready [] left := by
  have hbefore := h.before c
  generalize now.before c = now at hbefore
  have hsame := hbefore.rewriting?.trans hw
  cases made <;> cases now
  case multiply.multiply t₀ t =>
    obtain ⟨hfactor, hfield, hsound⟩ := hbefore
    have hretype := Multiply.retype_congr hfactor
    rw [← hretype] at hsound
    cases hsame
    obtain ⟨left, hvisit, hleft⟩ := Rewriting.visit (w := ⟨t.field.field, t.retype, _⟩) rfl hsound
      t.applyAt_result (multiply t) c.reply c.entry
    refine ⟨left, hvisit, ?_⟩
    rcases hleft with rfl | ⟨r, rfl, hr, hs⟩
    · exact ⟨hfactor, hfield, by rwa [← hretype]⟩
    · exact ⟨hfactor, hr.trans hfield, by rwa [← hretype]⟩
  case parseInteger.parseInteger t₀ t =>
    obtain ⟨hfield, hsound⟩ := hbefore
    cases hsame
    obtain ⟨left, hvisit, hleft⟩ := Rewriting.visit (w := ⟨t.field.field, fun _ => .integer, _⟩) rfl
      hsound t.applyAt_result (parseInteger t) c.reply c.entry
    refine ⟨left, hvisit, ?_⟩
    rcases hleft with rfl | ⟨r, rfl, hr, hs⟩
    · exact ⟨hfield, hsound⟩
    · exact ⟨hr.trans hfield, hs⟩
  all_goals first
    | exact absurd hbefore id
    | cases hw

/-- **A run of calls** comes to the results for its rows. -/
theorem Ready.attend (hw : made.rewriting? = some w) (h : made.Ready [] now) (calls : List Call) :
    now.attend calls = some (calls.map fun c => .ofResult c.reply (w.result c.entry)) := by
  induction calls generalizing now with
  | nil => rfl
  | cons c rest ih =>
    obtain ⟨left, hvisit, hready⟩ := h.visit hw c
    simp only [Builtin.attend, hvisit, ih hready, bind, Option.bind, pure, List.map_cons]

end Builtin

/-! ### What the result is -/

theorem Entry.rewritten_set {e : Entry} {i : Nat} {f : Field} {x : Value}
    (hf : e.layout.field? i = some f) (hx : e.row.get? i = some x) (kind : Kind) (value : Value) :
    e.Rewritten i f kind value ⟨e.layout.set i { f with kind }, e.row.set i value⟩ where
  layout_size := List.length_set
  row_size := List.length_set
  field := Layout.field?_set hf _
  value := List.getElem?_set_self (List.getElem?_eq_some_iff.mp hx).1
  fields _ hj := List.getElem?_set_ne hj.symm
  values _ hj := List.getElem?_set_ne hj.symm

theorem Entry.First.unique {e : Entry} {name : String} {i j : Nat} {f g : Field} {x y : Value}
    (h : e.First name i f x) (h' : e.First name j g y) : i = j ∧ f = g ∧ x = y := by
  have hij : i = j := by
    rcases Nat.lt_trichotomy i j with hlt | heq | hlt
    · exact absurd h.named (h'.first i hlt f h.field)
    · exact heq
    · exact absurd h'.named (h.first j hlt g h'.field)
  subst hij
  exact ⟨rfl, Option.some.inj (h.field.symm.trans h'.field),
    Option.some.inj (h.value.symm.trans h'.value)⟩

namespace Rewriting

variable {w : Rewriting} {e : Entry}

/-- In a row that is as long as its layout, the field is missing, or it has a value and the result is
made of it. -/
theorem result_cases (fit : e.row.size = e.layout.size) :
    ((∀ f ∈ e.layout.fields, f.name ≠ w.field) ∧
      w.result e = .error (missingField w.field e.layout)) ∨
    ∃ i f x, e.First w.field i f x ∧ w.result e = (w.revalue x f.kind).map fun value =>
      ⟨e.layout.set i { f with kind := w.retype f.kind }, e.row.set i value⟩ := by
  unfold result
  rcases FieldPlace.find_cases w.field w.retype e.layout with
    ⟨habsent, hf⟩ | ⟨i, f, hat, hname, hfirst, hf⟩ <;> simp only [hf]
  · exact Or.inl ⟨habsent, rfl⟩
  · have hlt : i < e.row.size := by
      rw [fit]
      exact (List.getElem?_eq_some_iff.mp hat).1
    have hvalue : e.row.get? i = some e.row.values[i] := List.getElem?_eq_getElem hlt
    refine Or.inr ⟨i, f, e.row.values[i], ⟨hat, hname, hfirst, hvalue⟩, ?_⟩
    simp only [bind, Except.bind, hat, hvalue, Option.map_some, Option.getD_some]
    cases w.revalue e.row.values[i] f.kind <;> rfl

theorem result_of_first (fit : e.row.size = e.layout.size) {i : Nat} {f : Field} {x : Value}
    (h : e.First w.field i f x) : w.result e = (w.revalue x f.kind).map fun value =>
      ⟨e.layout.set i { f with kind := w.retype f.kind }, e.row.set i value⟩ := by
  rcases w.result_cases fit with ⟨habsent, -⟩ | ⟨j, g, y, hfirst, hresult⟩
  · exact absurd h.named (habsent f (List.mem_of_getElem? h.field))
  · obtain ⟨rfl, rfl, rfl⟩ := h.unique hfirst
    exact hresult

/-- **What a rewriting gives**, if its errors are bad rows. -/
theorem gives (refusal : ∀ x kind err, w.revalue x kind = .error err →
      ∃ m c, err = .row m (some w.field) (some c))
    (fit : e.row.size = e.layout.size) : w.Gives e (w.result e) := by
  rcases w.result_cases fit with ⟨habsent, hr⟩ | ⟨i, f, x, hfirst, hr⟩ <;> rw [hr]
  · exact .missing habsent
  · rcases hv : w.revalue x f.kind with err | value
    · obtain ⟨m, c, rfl⟩ := refusal x f.kind err hv
      exact .refused i f x m c hfirst hv
    · exact .rewritten i f x value _ hfirst hv
        (e.rewritten_set hfirst.field hfirst.value (w.retype f.kind) value)

end Rewriting

/-! ### Whole factors -/

theorem Text.int64OfInt?_cases (n : Int) :
    (∃ m : Int64, m.toInt = n ∧ int64OfInt? n = some m) ∨
      (n < -2 ^ 63 ∨ 2 ^ 63 ≤ n) ∧ int64OfInt? n = none := by
  unfold int64OfInt?
  rw [Int64.toInt_minValue, Int64.toInt_maxValue]
  split
  · exact Or.inl ⟨.ofInt n, Int64.toInt_ofInt_of_le (by omega) (by omega), rfl⟩
  · exact Or.inr ⟨by omega, rfl⟩

theorem Binary64.toInt?_of_units {x : Binary64} {k : Int} (finite : x.isFinite = true)
    (h : x.units? = some (k * 2 ^ 1074)) : x.toInt? = some k := by
  have hone : (unitsInOne : Int) = 2 ^ 1074 := by
    rw [unitsInOne, Nat.one_shiftLeft]
    exact Int.natCast_pow 2 1074
  have hpos : 0 < unitsInOne := by
    rw [unitsInOne, Nat.one_shiftLeft]
    exact Nat.two_pow_pos 1074
  have hnumber : x.isNaN = false := by
    have := of_decide_eq_true finite
    exact decide_eq_false (by omega)
  rw [← hone, units?, if_neg (by rw [hnumber]; exact Bool.false_ne_true)] at h
  rw [toInt?, if_pos finite]
  generalize unitsInOne = u at h hpos
  generalize magnitudeUnits x.magnitudeBits = n at h
  have hunits := Option.some.inj h
  have hn : n = k.natAbs * u := by
    have := congrArg Int.natAbs hunits
    rw [Int.natAbs_mul, Int.natAbs_natCast] at this
    split at this <;> omega
  -- the sign of the number is that of the integer
  have hsign : ∀ m : Int, m * u = k * u → m = k :=
    fun m hm => Int.eq_of_mul_eq_mul_right (by omega) hm
  subst hn
  dsimp only
  rw [if_pos (Nat.mul_mod_left k.natAbs u), Nat.mul_div_cancel k.natAbs hpos]
  refine congrArg some (hsign _ ?_)
  rw [← hunits]
  split
  · rw [Int.neg_mul]
    rfl
  · rfl

namespace Multiply

variable {t : Multiply} {k : Int}

theorem wholeFactor?_of_units (finite : t.factor.isFinite = true)
    (h : t.factor.units? = some (k * 2 ^ 1074)) (small : k.natAbs < 2 ^ 63) :
    ∃ factor : Int64, factor.toInt = k ∧ t.wholeFactor? = some factor := by
  refine ⟨.ofInt k, Int64.toInt_ofInt_of_le (by omega) (by omega), ?_⟩
  unfold wholeFactor?
  rw [Binary64.toInt?_of_units finite h]
  dsimp only
  rw [Int64.toInt_maxValue, if_pos (by omega)]

/-- **The product** of an integer with a whole factor is exact, or it is refused because it is no
integer of 64 bits. -/
theorem multiply_whole (finite : t.factor.isFinite = true)
    (h : t.factor.units? = some (k * 2 ^ 1074)) (small : k.natAbs < 2 ^ 63) (n : Int64) :
    t.retype .integer = .integer ∧
      ((∃ p : Int64, p.toInt = n.toInt * k ∧
          t.multiply (.integer n) .integer = .ok (.integer p)) ∨
        (n.toInt * k < -2 ^ 63 ∨ 2 ^ 63 ≤ n.toInt * k) ∧
          t.multiply (.integer n) .integer =
            .error (.row (overflowText t.field.field n k) (some t.field.field)
              (some "MULTIPLY002"))) := by
  obtain ⟨factor, rfl, hw⟩ := wholeFactor?_of_units finite h small
  refine ⟨by simp [retype, hw], ?_⟩
  simp only [multiply, hw]
  rcases Text.int64OfInt?_cases (n.toInt * factor.toInt) with ⟨p, hp, hsome⟩ | ⟨hout, hnone⟩
  · rw [hsome]
    exact Or.inl ⟨p, hp, rfl⟩
  · rw [hnone]
    exact Or.inr ⟨hout, rfl⟩

end Multiply

/-! ### The transforms -/

namespace Builtin

variable {spec : TransformSpec} {b : Builtin} {w : Rewriting}

theorem refusal_of_rewriting (hw : b.rewriting? = some w) (x : Value) (kind : Kind)
    (err : TransformError) (h : w.revalue x kind = .error err) :
    ∃ m c, err = .row m (some w.field) (some c) := by
  cases b <;> cases hw
  · exact Multiply.refusal h
  · exact ParseInteger.refusal h

/-- What becomes of a row in a pipeline is its result. -/
theorem verdict_of_rewriting (hw : b.rewriting? = some w) (e : Entry) :
    b.conduct.verdict e = .ofResult (w.result e) := by
  cases b <;> cases hw
  case multiply t =>
    show t.verdict e = _
    rw [← t.applyAt_result e, Multiply.verdict]
    rcases FieldPlace.find_cases t.field.field t.retype e.layout with
      ⟨-, hf⟩ | ⟨i, f, -, -, -, hf⟩ <;> rw [hf] <;> rfl
  case parseInteger t =>
    show t.verdict e = _
    rw [← t.applyAt_result e, ParseInteger.verdict]
    rcases FieldPlace.find_cases t.field.field (fun _ => .integer) e.layout with
      ⟨-, hf⟩ | ⟨i, f, -, -, -, hf⟩ <;> rw [hf] <;> rfl

theorem exact_of_rewriting {t : Multiply} {k : Int} (hw : (multiply t).rewriting? = some w)
    (finite : t.factor.isFinite = true) (h : t.factor.units? = some (k * 2 ^ 1074))
    (small : k.natAbs < 2 ^ 63) : w.Exact k := by
  intro e i f n fit hfirst hkind
  rw [w.result_of_first fit hfirst, hkind]
  cases hw
  obtain ⟨hretype, hproduct⟩ := Multiply.multiply_whole finite h small n
  dsimp only at hfirst ⊢
  rw [hretype]
  rcases hproduct with ⟨p, hp, hm⟩ | ⟨hout, hm⟩ <;> rw [hm]
  · exact Or.inl ⟨p, _, hp, rfl, e.rewritten_set hfirst.field hfirst.value .integer _⟩
  · exact Or.inr ⟨hout, rfl⟩

/-- **Transforms of one field** are functions of single rows. In every run of calls, each call comes
to the result for its own row, as if no layout had ever been remembered, and that is what becomes of
the row in a pipeline; the result is the entry with the first field of the name rewritten, a bad row,
or the failure to find the field; and an integer times a whole number is exact or refused. -/
theorem rewrites_rows (made : ofSpec spec = .ok b) (rewrites : b.rewriting? = some w) :
    (∀ calls : List Call,
      b.attend calls = some (calls.map fun c => .ofResult c.reply (w.result c.entry))) ∧
    (∀ e : Entry, b.conduct.verdict e = .ofResult (w.result e)) ∧
    (∀ e : Entry, e.row.size = e.layout.size → w.Gives e (w.result e)) ∧
    ∀ (t : Multiply) (k : Int), b = multiply t → t.factor.units? = some (k * 2 ^ 1074) →
      k.natAbs < 2 ^ 63 → w.Exact k := by
  refine ⟨(ready_of_ofSpec made).attend rewrites, verdict_of_rewriting rewrites,
    fun e fit => w.gives (refusal_of_rewriting rewrites) fit, ?_⟩
  rintro t k rfl hunits small
  have hfinite := (Multiply.new_of_ofSpec (multiply_of_ofSpec made)).1
  exact exact_of_rewriting rewrites hfinite hunits small

end Builtin

/-! Tripling fields of changing layouts. -/

namespace Tripling

def spec : TransformSpec where
  id := "triple"
  type := "multiply"
  options := ⟨[("factor", .float ⟨0x4008000000000000⟩), ("field", .string "v")]⟩

def multiply : Multiply := ⟨⟨0x4008000000000000⟩, { field := "v" }⟩

def rewriting : Rewriting where
  field := "v"
  retype := multiply.retype
  revalue value kind := multiply.multiply value (multiply.retype kind)

/-- A layout with two fields of one name. -/
def twice : Layout := ⟨[⟨"v", .integer, 4, -1⟩, ⟨"v", .string, -1, -1⟩]⟩

/-- A layout without the field. -/
def without : Layout := ⟨[⟨"w", .integer, -1, -1⟩]⟩

/-- A layout in which the field comes later. -/
def later : Layout := ⟨[⟨"w", .string, -1, -1⟩, ⟨"v", .integer, -1, -1⟩]⟩

def calls : List Builtin.Call :=
  [{ entry := ⟨twice, ⟨[.integer 5, .null]⟩⟩ },
   { entry := ⟨without, ⟨[.integer 1]⟩⟩ },
   { entry := ⟨later, ⟨[.null, .integer Int64.maxValue]⟩⟩ },
   { entry := ⟨twice, ⟨[.integer (-7), .string "x"]⟩⟩, reply := .error (.fatal "gone") },
   { entry := ⟨twice, ⟨[.null, .null]⟩⟩, anew := true }]

end Tripling

theorem Builtin.rewrites_rows_tripled :
    Builtin.ofSpec Tripling.spec = .ok (.multiply Tripling.multiply) ∧
    (Builtin.multiply Tripling.multiply).rewriting? = some Tripling.rewriting ∧
    (Builtin.multiply Tripling.multiply).attend Tripling.calls = some
      [⟨none, [⟨Tripling.twice, ⟨[.integer 15, .null]⟩⟩], .ok true⟩,
       ⟨none, [], .error (missingField "v" Tripling.without)⟩,
       ⟨none, [], .error (.row "9223372036854775807 * 3 overflows field 'v'" (some "v")
          (some "MULTIPLY002"))⟩,
       ⟨none, [⟨Tripling.twice, ⟨[.integer (-21), .string "x"]⟩⟩], .error (.fatal "gone")⟩,
       ⟨none, [⟨Tripling.twice, ⟨[.null, .null]⟩⟩], .ok true⟩] ∧
    Tripling.rewriting.Gives ⟨Tripling.twice, ⟨[.integer 5, .null]⟩⟩
      (.ok ⟨Tripling.twice, ⟨[.integer 15, .null]⟩⟩) ∧
    Tripling.rewriting.Exact 3 := by
  have made : Builtin.ofSpec Tripling.spec = .ok (.multiply Tripling.multiply) := rfl
  have h := Builtin.rewrites_rows made (w := Tripling.rewriting) rfl
  exact ⟨made, rfl, (h.1 Tripling.calls).trans (by decide +kernel),
    h.2.2.1 ⟨Tripling.twice, ⟨[.integer 5, .null]⟩⟩ rfl,
    h.2.2.2 Tripling.multiply 3 rfl (by decide +kernel) (by decide)⟩

end Rowflow
