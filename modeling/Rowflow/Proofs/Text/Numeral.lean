import Mathlib.Data.List.Induction
import Mathlib.Data.List.TakeWhile
import Mathlib.Tactic.Common
import Rowflow.Proofs.Transform.Rewriting

/-!
# Integers as texts

`Text.Numeral` is the grammar of integers: an optional sign and one or more ASCII digits, which denote
an integer. A text spells an integer if it is a numeral with white space around it (`Text.Spells`).
Reading accepts exactly the texts that spell an integer of 64 bits, whether a field or an option value
is read (`readInt64?_eq_some_iff`), and every integer is written as a text that spells it
(`spells_showInt`). Main statement: `ParseInteger.reads_numerals`.
-/

namespace Rowflow

namespace Text

/-! ### The grammar -/

/-- The ASCII digit of a number below ten. -/
structure IsDigit (c : Char) (d : Nat) : Prop where
  lt : d < 10
  code : c.toNat = '0'.toNat + d

/-- One or more digits and the number that they denote. -/
inductive Digits : List Char → Nat → Prop where
  | one (c : Char) (d : Nat) (digit : IsDigit c d) : Digits [c] d
  | snoc (cs : List Char) (n : Nat) (c : Char) (d : Nat) (rest : Digits cs n) (digit : IsDigit c d) :
      Digits (cs ++ [c]) (10 * n + d)

/-- An optional sign, then one or more digits, and the integer that they denote. -/
inductive Numeral : List Char → Int → Prop where
  | bare (cs : List Char) (n : Nat) (digits : Digits cs n) : Numeral cs n
  | plus (cs : List Char) (n : Nat) (digits : Digits cs n) : Numeral ('+' :: cs) n
  | minus (cs : List Char) (n : Nat) (digits : Digits cs n) : Numeral ('-' :: cs) (-n)

/-- The text is a numeral with white space around it. -/
def Spells (s : String) (n : Int) : Prop :=
  ∃ before cs after, s.toList = before ++ cs ++ after ∧ (∀ c ∈ before ++ after, isBlank c = true) ∧
    Numeral cs n

/-! ### Digits -/

theorem isDigit_iff {c : Char} : c.isDigit = true ↔ ∃ d, IsDigit c d := by
  have hzero : '0'.toNat = 48 := rfl
  have hnine : '9'.toNat = 57 := rfl
  rw [Char.isDigit_iff_toNat]
  constructor
  · rintro ⟨hlow, hhigh⟩
    exact ⟨c.toNat - '0'.toNat, by omega, by omega⟩
  · rintro ⟨d, hlt, hcode⟩
    omega

theorem IsDigit.not_isBlank {c : Char} {d : Nat} (h : IsDigit c d) : isBlank c = false := by
  obtain ⟨hlt, hcode⟩ := h
  have hzero : '0'.toNat = 48 := rfl
  rw [hzero] at hcode
  unfold isBlank
  rw [hcode]
  simp
  omega

theorem Digits.ne_nil {cs : List Char} {n : Nat} (h : Digits cs n) : cs ≠ [] := by
  cases h with
  | one => exact List.cons_ne_nil _ _
  | snoc => exact List.append_ne_nil_of_right_ne_nil _ (List.cons_ne_nil _ _)

theorem Digits.digit {cs : List Char} {n : Nat} (h : Digits cs n) : ∀ c ∈ cs, ∃ d, IsDigit c d := by
  induction h with
  | one c d digit =>
    intro x hx
    rw [List.mem_singleton.mp hx]
    exact ⟨d, digit⟩
  | snoc cs n c d _ digit ih =>
    intro x hx
    rcases List.mem_append.mp hx with hx | hx
    · exact ih x hx
    · rw [List.mem_singleton.mp hx]
      exact ⟨d, digit⟩

theorem Digits.ofDigitChars {cs : List Char} {n : Nat} (h : Digits cs n) :
    Nat.ofDigitChars 10 cs 0 = n := by
  induction h with
  | one c d digit =>
    have := digit.code
    rw [Nat.ofDigitChars_cons, Nat.ofDigitChars_nil]
    omega
  | snoc cs n c d _ digit ih =>
    have := digit.code
    rw [Nat.ofDigitChars_append, ih, Nat.ofDigitChars_cons, Nat.ofDigitChars_nil]
    omega

theorem digits_of_isDigit {cs : List Char} (hne : cs ≠ []) (h : ∀ c ∈ cs, c.isDigit = true) :
    Digits cs (Nat.ofDigitChars 10 cs 0) := by
  induction cs using List.reverseRecOn with
  | nil => exact absurd rfl hne
  | append_singleton cs c ih =>
    obtain ⟨d, hd⟩ := isDigit_iff.mp (h c (by simp))
    have hcode := hd.code
    rw [Nat.ofDigitChars_append, Nat.ofDigitChars_cons, Nat.ofDigitChars_nil,
      show c.toNat - '0'.toNat = d by omega]
    rcases cs with _ | ⟨x, cs⟩
    · rw [Nat.ofDigitChars_nil, Nat.mul_zero, Nat.zero_add]
      exact .one c d hd
    · exact .snoc _ _ c d (ih (List.cons_ne_nil _ _) fun y hy => h y (List.mem_append_left _ hy)) hd

theorem readNat?_eq_some_iff {cs : List Char} {n : Nat} : readNat? cs = some n ↔ Digits cs n := by
  unfold readNat?
  constructor
  · intro h
    split at h
    case isTrue hcs =>
      rw [← Option.some.inj h]
      exact digits_of_isDigit hcs.1 (List.all_eq_true.mp hcs.2)
    case isFalse => cases h
  · intro h
    have hall : cs.all Char.isDigit = true :=
      List.all_eq_true.mpr fun c hc => isDigit_iff.mpr (h.digit c hc)
    rw [if_pos ⟨h.ne_nil, hall⟩, h.ofDigitChars]

/-! ### Signs -/

theorem Digits.ne_sign {c : Char} {cs : List Char} {n : Nat} (h : Digits (c :: cs) n) :
    c ≠ '+' ∧ c ≠ '-' := by
  obtain ⟨d, -, hcode⟩ := h.digit c List.mem_cons_self
  have hzero : '0'.toNat = 48 := rfl
  constructor
  · rintro rfl
    have : '+'.toNat = 43 := rfl
    omega
  · rintro rfl
    have : '-'.toNat = 45 := rfl
    omega

theorem readInt?_eq_some_iff {cs : List Char} {n : Int} : readInt? cs = some n ↔ Numeral cs n := by
  constructor
  · intro h
    unfold readInt? at h
    split at h
    · obtain ⟨m, hm, rfl⟩ := Option.map_eq_some_iff.mp h
      exact .plus _ m (readNat?_eq_some_iff.mp hm)
    · obtain ⟨m, hm, rfl⟩ := Option.map_eq_some_iff.mp h
      exact .minus _ m (readNat?_eq_some_iff.mp hm)
    · obtain ⟨m, hm, rfl⟩ := Option.map_eq_some_iff.mp h
      exact .bare _ m (readNat?_eq_some_iff.mp hm)
  · intro h
    cases h with
    | plus cs m digits => rw [readInt?, readNat?_eq_some_iff.mpr digits]; rfl
    | minus cs m digits => rw [readInt?, readNat?_eq_some_iff.mpr digits]; rfl
    | bare cs m digits =>
      unfold readInt?
      split
      · exact absurd rfl digits.ne_sign.1
      · exact absurd rfl digits.ne_sign.2
      · rw [readNat?_eq_some_iff.mpr digits]
        rfl

/-! ### White space -/

theorem Numeral.not_isBlank {cs : List Char} {n : Int} (h : Numeral cs n) :
    ∀ c ∈ cs, isBlank c = false := by
  have hdigits : ∀ {cs n}, Digits cs n → ∀ c ∈ cs, isBlank c = false := by
    intro cs n hd c hc
    obtain ⟨d, hd⟩ := hd.digit c hc
    exact hd.not_isBlank
  cases h with
  | bare _ _ digits => exact hdigits digits
  | plus _ _ digits => exact List.forall_mem_cons.mpr ⟨rfl, hdigits digits⟩
  | minus _ _ digits => exact List.forall_mem_cons.mpr ⟨rfl, hdigits digits⟩

theorem dropWhile_of_not_isBlank {cs : List Char} (h : ∀ c ∈ cs, isBlank c = false) :
    cs.dropWhile isBlank = cs := by
  cases cs with
  | nil => rfl
  | cons c cs => exact List.dropWhile_cons_of_neg (by rw [h c List.mem_cons_self]; decide)

theorem trim_append {before cs after : List Char} (hblank : ∀ c ∈ before ++ after, isBlank c = true)
    (h : ∀ c ∈ cs, isBlank c = false) : trim (before ++ cs ++ after) = cs := by
  have hbefore : ∀ c ∈ before, isBlank c = true := fun c hc => hblank c (List.mem_append_left _ hc)
  have hafter : ∀ c ∈ after.reverse, isBlank c = true := fun c hc =>
    hblank c (List.mem_append_right _ (List.mem_reverse.mp hc))
  unfold trim
  rw [List.append_assoc, List.dropWhile_append_of_pos hbefore]
  rcases cs with _ | ⟨c, cs⟩
  · rw [List.nil_append, List.reverse_eq_nil_iff, List.dropWhile_eq_nil_iff]
    intro c hc
    have hsuffix := List.dropWhile_suffix isBlank (l := after)
    exact hblank c (List.mem_append_right _ (hsuffix.subset (List.mem_reverse.mp hc)))
  · have hdrop : (c :: cs ++ after).dropWhile isBlank = c :: cs ++ after :=
      List.dropWhile_cons_of_neg (by rw [h c List.mem_cons_self]; decide)
    rw [hdrop, List.reverse_append, List.dropWhile_append_of_pos hafter,
      dropWhile_of_not_isBlank fun x hx => h x (List.mem_reverse.mp hx), List.reverse_reverse]

theorem exists_trim (cs : List Char) :
    ∃ before after, cs = before ++ trim cs ++ after ∧ ∀ c ∈ before ++ after, isBlank c = true := by
  let rest := cs.dropWhile isBlank
  refine ⟨cs.takeWhile isBlank, (rest.reverse.takeWhile isBlank).reverse, ?_, fun c hc => ?_⟩
  · have hrest : rest = trim cs ++ (rest.reverse.takeWhile isBlank).reverse := by
      unfold trim
      rw [← List.reverse_append, List.takeWhile_append_dropWhile, List.reverse_reverse]
    rw [List.append_assoc, ← hrest, List.takeWhile_append_dropWhile]
  · rcases List.mem_append.mp hc with hc | hc
    · exact List.mem_takeWhile_imp hc
    · exact List.mem_takeWhile_imp (List.mem_reverse.mp hc)

theorem numeral_trim_iff {s : String} {n : Int} : Numeral (trim s.toList) n ↔ Spells s n := by
  constructor
  · intro h
    obtain ⟨before, after, hs, hblank⟩ := exists_trim s.toList
    exact ⟨before, _, after, hs, hblank, h⟩
  · rintro ⟨before, cs, after, hs, hblank, h⟩
    rwa [hs, trim_append hblank h.not_isBlank]

/-! ### Reading and writing -/

theorem int64OfInt?_toInt (i : Int64) : int64OfInt? i.toInt = some i := by
  rcases int64OfInt?_cases i.toInt with ⟨m, hm, hsome⟩ | ⟨hout, -⟩
  · rw [hsome, Int64.toInt_inj.mp hm]
  · have := i.le_toInt
    have := i.toInt_lt
    omega

/-- **Reading** accepts the texts that spell an integer of 64 bits. -/
theorem readInt64?_eq_some_iff {s : String} {i : Int64} :
    readInt64? s = some i ↔ Spells s i.toInt := by
  rw [← numeral_trim_iff, ← readInt?_eq_some_iff]
  unfold readInt64?
  constructor
  · intro h
    obtain ⟨n, hn, hi⟩ := Option.bind_eq_some_iff.mp h
    rcases int64OfInt?_cases n with ⟨m, rfl, hsome⟩ | ⟨-, hnone⟩
    · rw [hsome] at hi
      rw [hn, Option.some.inj hi]
    · rw [hnone] at hi
      cases hi
  · intro h
    rw [h, Option.bind_some, int64OfInt?_toInt]

theorem numeral_showInt (n : Int) : Numeral (showInt n).toList n := by
  have hnat (n : Nat) : Digits (showNat n).toList n := by
    have := digits_of_isDigit Nat.toDigits_ne_nil
      fun c hc => Nat.isDigit_of_mem_toDigits (b := 10) (n := n) (by decide) (by decide) hc
    rwa [Nat.ofDigitChars_toDigits (by decide) (by decide),
      ← String.toList_ofList (l := Nat.toDigits 10 n)] at this
  cases n with
  | ofNat n => exact .bare _ n (hnat n)
  | negSucc n =>
    have htext : (showInt (.negSucc n)).toList = '-' :: (showNat (n + 1)).toList := by
      rw [showInt, String.toList_append]
      rfl
    rw [htext]
    exact .minus _ (n + 1) (hnat (n + 1))

/-- **Writing** gives a text that spells the integer, with or without white space around it. -/
theorem spells_showInt (n : Int) {before after : List Char}
    (hblank : ∀ c ∈ before ++ after, isBlank c = true) :
    Spells (String.ofList (before ++ (showInt n).toList ++ after)) n :=
  ⟨before, _, after, String.toList_ofList, hblank, numeral_showInt n⟩

/-- Which integers of 64 bits there are. -/
theorem exists_toInt_iff {n : Int} : (∃ i : Int64, i.toInt = n) ↔ -2 ^ 63 ≤ n ∧ n < 2 ^ 63 := by
  constructor
  · rintro ⟨i, rfl⟩
    exact ⟨i.le_toInt, i.toInt_lt⟩
  · rintro ⟨hlow, hhigh⟩
    exact ⟨.ofInt n, Int64.toInt_ofInt_of_le (by omega) (by omega)⟩

end Text

/-! ### Fields and option values -/

namespace ParseInteger

/-- The text of a field that spells no integer of 64 bits. -/
def refusalText (field s : String) : String :=
  "value '" ++ s ++ "' of field '" ++ field ++ "' is not an integer"

/-- A text is read, or it is a bad row that names the field. -/
theorem parse_string (field s : String) : parse field (.string s) =
    match Text.readInt64? s with
    | some i => .ok (.integer i)
    | none => .error (.row (refusalText field s) (some field) (some "PARSE001")) := by
  have htext : refusalText field s =
      "value '" ++ s ++ "' of field '" ++ field ++ "' is not " ++ "an integer" := by
    have hend : "' is not an integer" = "' is not " ++ "an integer" := by decide
    rw [refusalText, hend, ← String.append_assoc]
  rw [htext]
  rfl

theorem parse_string_eq_ok_iff {field s : String} {i : Int64} :
    parse field (.string s) = .ok (.integer i) ↔ Text.Spells s i.toInt := by
  rw [← Text.readInt64?_eq_some_iff, parse_string]
  rcases Text.readInt64? s with _ | j <;> simp

theorem ofYaml?_string_integer (field s : String) :
    Value.ofYaml? (.string s) .integer = (parse field (.string s)).toOption := by
  rw [parse_string, Value.ofYaml?]
  rcases Text.readInt64? s with _ | i <;> rfl

/-- **Texts of integers.** A text is read as an integer exactly if, apart from the white space around
it, it is an optional sign followed by digits that denote an integer of 64 bits; any other text is a bad
row that names the field. Option values are read in the same way, and the texts that integers are shown
and converted as are read back, whatever white space is around them. -/
theorem reads_numerals (field : String) :
    (∀ (s : String) (n : Int),
      (∃ i : Int64, i.toInt = n ∧ parse field (.string s) = .ok (.integer i)) ↔
        Text.Spells s n ∧ -2 ^ 63 ≤ n ∧ n < 2 ^ 63) ∧
    (∀ s : String, (¬ ∃ n, Text.Spells s n ∧ -2 ^ 63 ≤ n ∧ n < 2 ^ 63) →
      parse field (.string s) =
        .error (.row (refusalText field s) (some field) (some "PARSE001"))) ∧
    (∀ s : String, Value.ofYaml? (.string s) .integer = (parse field (.string s)).toOption) ∧
    ∀ i : Int64, Value.ofYaml? (.integer i.toInt) .string = some (.string (Value.integer i).render) ∧
      ∀ before after : List Char, (∀ c ∈ before ++ after, Text.isBlank c = true) →
        let s := String.ofList (before ++ (Value.integer i).render.toList ++ after)
        parse field (.string s) = .ok (.integer i) ∧
          Value.ofYaml? (.string s) .integer = some (.integer i) := by
  have hreads : ∀ (s : String) (n : Int),
      (∃ i : Int64, i.toInt = n ∧ parse field (.string s) = .ok (.integer i)) ↔
        Text.Spells s n ∧ -2 ^ 63 ≤ n ∧ n < 2 ^ 63 := by
    intro s n
    rw [← Text.exists_toInt_iff]
    constructor
    · rintro ⟨i, rfl, hi⟩
      exact ⟨parse_string_eq_ok_iff.mp hi, i, rfl⟩
    · rintro ⟨hs, i, rfl⟩
      exact ⟨i, rfl, parse_string_eq_ok_iff.mpr hs⟩
  refine ⟨hreads, fun s hnone => ?_, ofYaml?_string_integer field, fun i => ⟨rfl, ?_⟩⟩
  · rcases hi : Text.readInt64? s with _ | i
    · rw [parse_string, hi]
    · have hparse : parse field (.string s) = .ok (.integer i) := by rw [parse_string, hi]
      exact absurd ⟨i.toInt, (hreads s i.toInt).mp ⟨i, rfl, hparse⟩⟩ hnone
  · intro before after hblank s
    have hparse : parse field (.string s) = .ok (.integer i) :=
      parse_string_eq_ok_iff.mpr (Text.spells_showInt i.toInt hblank)
    exact ⟨hparse, by rw [ofYaml?_string_integer field, hparse]; rfl⟩

theorem reads_numerals_extreme :
    -- a sign, leading zeros and white space that is not ASCII
    Text.Spells "\u00a0+0042\t" 42 ∧
    parse "n" (.string "\u00a0+0042\t") = .ok (.integer 42) ∧
    -- the first integer that is too large
    (¬ ∃ n, Text.Spells "9223372036854775808" n ∧ -2 ^ 63 ≤ n ∧ n < 2 ^ 63) ∧
    parse "n" (.string "9223372036854775808") = .error
      (.row "value '9223372036854775808' of field 'n' is not an integer" (some "n") (some "PARSE001")) ∧
    -- the least integer
    (∀ c ∈ [' '] ++ ['\u3000'], Text.isBlank c = true) ∧
    parse "n" (.string " -9223372036854775808\u3000") = .ok (.integer Int64.minValue) := by
  obtain ⟨hreads, hrefuses, -, hwritten⟩ := reads_numerals "n"
  have hsigned : parse "n" (.string "\u00a0+0042\t") = .ok (.integer 42) := by decide +kernel
  have hlarge : ¬ ∃ n, Text.Spells "9223372036854775808" n ∧ -2 ^ 63 ≤ n ∧ n < 2 ^ 63 := by
    rintro ⟨n, hn⟩
    obtain ⟨i, -, hi⟩ := (hreads _ n).mpr hn
    have hrefused : (parse "n" (.string "9223372036854775808")).isOk = false := by decide +kernel
    rw [hi] at hrefused
    cases hrefused
  have hblank : ∀ c ∈ [' '] ++ ['\u3000'], Text.isBlank c = true :=
    List.forall_mem_cons.mpr ⟨by decide, List.forall_mem_singleton.mpr (by decide)⟩
  exact ⟨((hreads _ 42).mp ⟨42, rfl, hsigned⟩).1, hsigned, hlarge, hrefuses _ hlarge, hblank,
    ((hwritten Int64.minValue).2 [' '] ['\u3000'] hblank).1⟩

end ParseInteger

end Rowflow
