import Rowflow.Proofs.Transform.Rewriting

/-!
# Conditions on a field

How the comparisons of filters hang together that differ in nothing but the operator
(`FilterOperator.Coherent`): of less, equal and greater at most one holds, the others are made of these
three, and none holds just where the value and the constant do not stand in any order
(`Value.Incomparable`). A comparison is refused exactly if the options have no constant for it
(`FilterRows.new_eq_error_iff`).
-/

namespace Rowflow

/-! ### Numbers -/

namespace Binary64

theorem units?_eq_none_iff (x : Binary64) : x.units? = none ↔ x.isNaN = true := by
  unfold units?
  split <;> simp_all

/-- Only a number that is none compares with nothing. -/
theorem compare?_eq_none_iff (x y : Binary64) :
    compare? x y = none ↔ x.isNaN = true ∨ y.isNaN = true := by
  rw [← units?_eq_none_iff, ← units?_eq_none_iff, compare?]
  rcases x.units? with _ | m <;> rcases y.units? with _ | n <;> simp

theorem isNaN_ofParts (negative : Bool) {magnitude : Nat} (h : magnitude ≤ infiniteBits) :
    (ofParts negative magnitude).isNaN = false := by
  have hlarge : infiniteBits < signWeight := by decide
  have hbits : (ofParts negative magnitude).magnitudeBits = magnitude := by
    unfold magnitudeBits ofParts
    rw [UInt64.toNat_ofNat', show signWeight = 2 ^ 63 by decide]
    rw [show signWeight = 2 ^ 63 by decide] at hlarge
    split <;> omega
  rw [isNaN, hbits, decide_eq_false_iff_not]
  omega

theorem isNaN_ofInt (n : Int) : (ofInt n).isNaN = false :=
  isNaN_ofParts _ (Nat.min_le_right _ _)

end Binary64

/-! ### Values -/

namespace Value

/-- A number that is none. -/
def isNaN : Value → Bool
  | .number x => x.isNaN
  | _ => false

/-- An integer or another number. -/
def isNumeric : Value → Bool
  | .integer _ | .number _ => true
  | _ => false

/-- An integer can be seen as a number, like a number itself, and nothing else can. -/
theorem asNumber?_cases (v : Value) :
    (v.isNumeric = true ∧ v ≠ .null ∧ ∃ x, v.asNumber? = some x ∧ x.isNaN = v.isNaN) ∨
      v.isNumeric = false ∧ v.asNumber? = none := by
  cases v
  case integer n => exact Or.inl ⟨rfl, nofun, _, rfl, Binary64.isNaN_ofInt n.toInt⟩
  case number x => exact Or.inl ⟨rfl, nofun, x, rfl, rfl⟩
  all_goals exact Or.inr ⟨rfl, rfl⟩

/-- Values that do not stand in any order: one of them is null, one of them is no number, or their
kinds are neither equal nor both numeric. -/
def Incomparable (v w : Value) : Prop :=
  v = .null ∨ w = .null ∨ v.isNaN = true ∨ w.isNaN = true ∨
    v.kind? ≠ w.kind? ∧ ¬ (v.isNumeric = true ∧ w.isNumeric = true)

end Value

namespace FilterRows

theorem compareValues_of_kind_ne {v w : Value} (h : v.kind? ≠ w.kind?) :
    compareValues v w =
      v.asNumber?.bind fun x => w.asNumber?.bind fun y => Binary64.compare? x y := by
  cases v <;> cases w <;> first | exact absurd rfl h | rfl

/-- A value and a constant are compared unless they are incomparable; there are no binary constants. -/
theorem compareValues_eq_none_iff (v : Value) {c : Value} (hc : ∀ bytes, c ≠ .binary bytes) :
    compareValues v c = none ↔ v.Incomparable c := by
  by_cases hk : v.kind? = c.kind?
  · rcases v with _ | a | m | x | s | _ <;> rcases c with _ | b | n | y | t | bytes <;> try cases hk
    · exact iff_of_true rfl (Or.inl rfl)
    · simp [compareValues, Value.Incomparable, Value.isNaN, Value.kind?]
    · simp [compareValues, Value.Incomparable, Value.isNaN, Value.kind?]
    · simp [compareValues, Value.Incomparable, Value.isNaN, Value.kind?, Value.asNumber?,
        Binary64.compare?_eq_none_iff]
    · simp [compareValues, Value.Incomparable, Value.isNaN, Value.kind?]
    · exact absurd rfl (hc bytes)
  · rw [compareValues_of_kind_ne hk, Value.Incomparable]
    rcases v.asNumber?_cases with ⟨hv, hvn, x, hx, hxn⟩ | ⟨hv, hx⟩
    · rcases c.asNumber?_cases with ⟨hw, hwn, y, hy, hyn⟩ | ⟨hw, hy⟩
      · simp [hx, hy, hv, hw, hvn, hwn, hxn, hyn, Binary64.compare?_eq_none_iff]
      · simp [hx, hy, hw, hk]
    · simp [hx, hv, hk]

end FilterRows

/-! ### Making a filter -/

/-- The option values that a constant can be: numbers, texts and truth values. -/
inductive Yaml.IsPlain : Yaml → Prop where
  /-- An integer is no less than the least one of 64 bits. -/
  | integer (n : Int) (least : -2 ^ 63 ≤ n) : IsPlain (.integer n)
  | float (x : Binary64) : IsPlain (.float x)
  | string (s : String) : IsPlain (.string s)
  | bool (b : Bool) : IsPlain (.bool b)

/-- The operators that compare with a constant. -/
def FilterOperator.comparisons : List FilterOperator := [.eq, .ne, .gt, .lt, .ge, .le]

theorem FilterOperator.mem_comparisons (op : FilterOperator) :
    op ∈ comparisons ↔ op.needsConstant = true := by
  cases op <;> decide

namespace FilterRows

/-- A plain option value stands for a constant, which is not binary, and no other one does. -/
theorem constantOf_cases (y : Yaml) :
    (y.IsPlain ∧ ∃ c, constantOf y = .ok c ∧ ∀ bytes, c ≠ .binary bytes) ∨
      ¬ y.IsPlain ∧ ∃ text, constantOf y = .error text := by
  rcases y with _ | b | n | x | s | _ | _ | _
  case bool => exact Or.inl ⟨.bool b, _, rfl, nofun⟩
  case float => exact Or.inl ⟨.float x, _, rfl, nofun⟩
  case string => exact Or.inl ⟨.string s, _, rfl, nofun⟩
  case integer =>
    by_cases hlarge : n ≤ Int64.maxValue.toInt
    · rcases Text.int64OfInt?_cases n with ⟨m, rfl, hm⟩ | ⟨hout, hnone⟩
      · refine Or.inl ⟨.integer _ m.le_toInt, .integer m, ?_, nofun⟩
        simp [constantOf, if_pos hlarge, Value.ofYaml?, hm]
      · refine Or.inr ⟨?_, _, by simp [constantOf, if_pos hlarge, Value.ofYaml?, hnone]; rfl⟩
        rintro ⟨_, hleast⟩
        rw [Int64.toInt_maxValue] at hlarge
        omega
    · have hconstant : constantOf (.integer n) = .ok (.number (.ofInt n)) := by
        simp [constantOf, if_neg hlarge, Value.ofYaml?]
      rw [Int64.toInt_maxValue] at hlarge
      exact Or.inl ⟨.integer n (by omega), _, hconstant, nofun⟩
  all_goals exact Or.inr ⟨nofun, _, rfl⟩

theorem new_comparison {o : FilterOptions} (h : o.op ∈ FilterOperator.comparisons) :
    (∃ y c, o.value = some y ∧ y.IsPlain ∧ constantOf y = .ok c ∧ (∀ bytes, c ≠ .binary bytes) ∧
      new o = .ok ⟨o, some c⟩) ∨
    (¬ ∃ y, o.value = some y ∧ y.IsPlain) ∧ ∃ text, new o = .error text := by
  unfold new
  rw [if_pos ((FilterOperator.mem_comparisons _).mp h)]
  rcases hv : o.value with _ | y
  · exact Or.inr ⟨nofun, _, rfl⟩
  · rcases constantOf_cases y with ⟨hy, c, hc, hbytes⟩ | ⟨hy, text, htext⟩
    · exact Or.inl ⟨y, c, rfl, hy, hc, hbytes, by dsimp only; rw [hc]; rfl⟩
    · refine Or.inr ⟨?_, text, by dsimp only; rw [htext]; rfl⟩
      rintro ⟨_, ⟨⟩, hplain⟩
      exact hy hplain

theorem new_of_not_comparison {o : FilterOptions} (h : o.op ∉ FilterOperator.comparisons) :
    new o = .ok ⟨o, none⟩ := by
  unfold new
  rw [if_neg (by rwa [← FilterOperator.mem_comparisons])]

/-- **Refused filters.** -/
theorem new_eq_error_iff (o : FilterOptions) : (∃ text, new o = .error text) ↔
    o.op ∈ FilterOperator.comparisons ∧ ¬ ∃ y, o.value = some y ∧ y.IsPlain := by
  by_cases h : o.op ∈ FilterOperator.comparisons
  · rcases new_comparison h with ⟨y, c, hv, hy, -, -, hnew⟩ | ⟨hnone, herr⟩
    · refine iff_of_false ?_ fun hno => hno.2 ⟨y, hv, hy⟩
      rintro ⟨text, htext⟩
      rw [hnew] at htext
      cases htext
    · exact iff_of_true herr ⟨h, hnone⟩
  · refine iff_of_false ?_ fun hno => h hno.1
    rintro ⟨text, htext⟩
    rw [new_of_not_comparison h] at htext
    cases htext

theorem options_of_new {o : FilterOptions} {t : FilterRows} (h : new o = .ok t) : t.options = o := by
  by_cases hop : o.op ∈ FilterOperator.comparisons
  · rcases new_comparison hop with ⟨y, c, -, -, -, -, hnew⟩ | ⟨-, text, htext⟩
    · cases hnew.symm.trans h
      rfl
    · cases htext.symm.trans h
  · cases (new_of_not_comparison hop).symm.trans h
    rfl

end FilterRows

/-! ### Conditions -/

/-- How the comparisons hang together, where `m` says which of them hold of a value and a constant. -/
structure FilterOperator.Coherent (v c : Value) (m : FilterOperator → Bool) : Prop where
  eq_lt : ¬ (m .eq = true ∧ m .lt = true)
  eq_gt : ¬ (m .eq = true ∧ m .gt = true)
  lt_gt : ¬ (m .lt = true ∧ m .gt = true)
  ne : m .ne = (m .lt || m .gt)
  le : m .le = (m .lt || m .eq)
  ge : m .ge = (m .gt || m .eq)
  /-- None holds just where there is nothing to compare. -/
  none : (∀ op ∈ comparisons, m op = false) ↔ v.Incomparable c

/-- Comparisons that ask for nothing but the order are coherent. -/
theorem FilterOperator.Coherent.of_holds {v c : Value} {m : FilterOperator → Bool}
    {x : Option Ordering} (hnone : x = .none ↔ v.Incomparable c)
    (hholds : ∀ op ∈ comparisons, m op = op.holds x) : Coherent v c m := by
  simp only [comparisons, List.forall_mem_cons] at hholds
  obtain ⟨heq, hne, hgt, hlt, hge, hle, -⟩ := hholds
  constructor
  case none =>
    rw [← hnone]
    simp only [comparisons, List.forall_mem_cons, heq, hne, hgt, hlt, hge, hle]
    rcases x with _ | _ | _ | _ <;> simp [holds]
  all_goals
    simp only [heq, hne, hgt, hlt, hge, hle]
    rcases x with _ | _ | _ | _ <;> decide

namespace FilterRows

variable {o : FilterOptions} {f : FilterOperator → FilterRows}

theorem exists_constant (h : ∀ op ∈ FilterOperator.comparisons, new { o with op } = .ok (f op)) :
    ∃ y c, o.value = some y ∧ constantOf y = .ok c ∧ ∀ v,
      (compareValues v c = none ↔ v.Incomparable c) ∧
      ∀ op ∈ FilterOperator.comparisons, (f op).accepts v = op.holds (compareValues v c) := by
  have heq : FilterOperator.eq ∈ FilterOperator.comparisons := by decide
  rcases new_comparison (o := { o with op := .eq }) heq with
    ⟨y, c, hy, -, hc, hbytes, -⟩ | ⟨-, text, herr⟩
  · refine ⟨y, c, hy, hc, fun v => ⟨compareValues_eq_none_iff v hbytes, fun op hop => ?_⟩⟩
    rcases new_comparison (o := { o with op }) hop with
      ⟨y', c', hy', -, hc', -, hnew⟩ | ⟨-, text, herr⟩
    · cases hy.symm.trans hy'
      cases hc.symm.trans hc'
      rw [← Except.ok.inj (hnew.symm.trans (h op hop))]
      cases op <;> first | rfl | exact absurd hop (by decide)
    · cases herr.symm.trans (h op hop)
  · cases herr.symm.trans (h .eq heq)

theorem accepts_null (h : ∀ op ∉ FilterOperator.comparisons, new { o with op } = .ok (f op))
    (v : Value) : ((f .isNull).accepts v = true ↔ v = .null) ∧
      (f .notNull).accepts v = !(f .isNull).accepts v := by
  have hmade : ∀ op ∉ FilterOperator.comparisons, f op = ⟨{ o with op }, none⟩ := fun op hop =>
    (Except.ok.inj ((new_of_not_comparison hop).symm.trans (h op hop))).symm
  rw [hmade .isNull (by decide), hmade .notNull (by decide)]
  cases v <;> simp [accepts, Value.isNull]

end FilterRows

end Rowflow
