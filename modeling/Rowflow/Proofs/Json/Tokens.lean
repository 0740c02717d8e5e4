import Mathlib.Data.List.Basic
import Mathlib.Data.List.TakeDrop
import Mathlib.Data.List.TakeWhile
import Mathlib.Tactic.Common
import Rowflow.Json.Parse

/-!
# Strings and numbers in JSON

What is written for a string is read as the string (`parseString_flatMap`), and the numeral of an
integer that fits into 64 bits as the integer (`parseNumber_showInt`). A number that has been read
from a text is read in the same way if more follows that cannot belong to a number
(`parseNumber_append`).
-/

namespace Rowflow.Json

/-! ### Strings -/

/-- A control character has four hexadecimal digits, which are read as its number. -/
theorem hex4_control : ∀ n < 0x20, hex4 n = ['0', '0', Nat.digitChar (n / 16), Nat.digitChar (n % 16)] ∧
    hexQuad? '0' '0' (Nat.digitChar (n / 16)) (Nat.digitChar (n % 16)) = some n := by
  decide

theorem parseString_control {c : Char} (h : c.toNat < 0x20) (rest : List Char) :
    parseString ('\\' :: 'u' :: hex4 c.toNat ++ rest) =
      (parseString rest).map fun (cs, rest) => (c :: cs, rest) := by
  obtain ⟨hdigits, hread⟩ := hex4_control c.toNat h
  have hlow : (decide (c.toNat < 0xD800) || decide (0xE000 ≤ c.toNat)) = true := by
    rw [decide_eq_true (by omega)]
    rfl
  rw [hdigits]
  simp only [List.cons_append, List.nil_append]
  rw [parseString, hread]
  dsimp only
  rw [if_pos hlow, Char.ofNat_toNat]

theorem parseString_plain {c : Char} (hquote : c ≠ '"') (hslash : c ≠ '\\') (h : ¬ c.toNat < 0x20)
    (rest : List Char) :
    parseString (c :: rest) = (parseString rest).map fun (cs, rest) => (c :: cs, rest) := by
  rw [parseString.eq_5 c rest hquote (fun _ _ _ _ _ h _ => hslash h) fun _ _ h _ => hslash h]
  exact if_neg (by simp [h, hslash])

theorem parseString_escapeChar (c : Char) (rest : List Char) :
    parseString (escapeChar c ++ rest) = (parseString rest).map fun (cs, rest) => (c :: cs, rest) := by
  unfold escapeChar
  split_ifs with hquote hslash hn hr ht hb hf hcontrol
  · rw [hquote]; rfl
  · rw [hslash]; rfl
  · rw [hn]; rfl
  · rw [hr]; rfl
  · rw [ht]; rfl
  · rw [hb]; rfl
  · rw [hf]; rfl
  · exact parseString_control hcontrol rest
  · exact parseString_plain hquote hslash hcontrol rest

/-- **A string** is read as it was written. -/
theorem parseString_flatMap (cs rest : List Char) :
    parseString (cs.flatMap escapeChar ++ '"' :: rest) = some (cs, rest) := by
  induction cs with
  | nil => rfl
  | cons c cs ih =>
    rw [List.flatMap_cons, List.append_assoc, parseString_escapeChar, ih]
    rfl

/-! ### What follows a number -/

/-- A text does not go on with anything that can belong to a number. -/
def Ends (t : List Char) : Prop := ∀ c ∈ t.head?, c.isDigit = false ∧ c ≠ '.' ∧ c ≠ 'e' ∧ c ≠ 'E'

variable {t : List Char}

theorem Ends.ne_cons (ht : Ends t) {c : Char} (hc : c = '.' ∨ c = 'e' ∨ c = 'E') {rest : List Char} :
    t ≠ c :: rest := by
  rintro rfl
  obtain ⟨-, hpoint, he, hE⟩ := ht c rfl
  tauto

theorem span_append (ht : Ends t) (cs : List Char) : (cs ++ t).span Char.isDigit =
    ((cs.span Char.isDigit).1, (cs.span Char.isDigit).2 ++ t) := by
  rw [List.span_eq_takeWhile_dropWhile, List.span_eq_takeWhile_dropWhile]
  induction cs with
  | nil =>
    rcases t with _ | ⟨c, t⟩
    · rfl
    · obtain ⟨hdigit, -⟩ := ht c rfl
      simp [hdigit]
  | cons c cs ih =>
    by_cases hc : c.isDigit
    · simp only [List.cons_append, List.takeWhile_cons_of_pos hc, List.dropWhile_cons_of_pos hc]
      rw [Prod.mk.injEq] at ih ⊢
      exact ⟨congrArg _ ih.1, ih.2⟩
    · simp only [List.cons_append, List.takeWhile_cons_of_neg hc, List.dropWhile_cons_of_neg hc]

/-- A reader takes its part from the front of a text, whatever follows. -/
def Local {α : Type} (read : List Char → Option (α × List Char)) : Prop :=
  ∀ {cs v rest t}, read cs = some (v, rest) → Ends t → read (cs ++ t) = some (v, rest ++ t)

theorem local_parseDigits : Local parseDigits := by
  intro cs v rest t h ht
  unfold parseDigits at h ⊢
  rw [span_append ht]
  dsimp only at h ⊢
  split at h
  case isTrue => cases h
  case isFalse hne =>
    cases h
    rw [if_neg hne]

theorem Local.map {α β : Type} {read : List Char → Option (α × List Char)} (h : Local read)
    (f : α → β) : Local fun cs => (read cs).map fun (v, rest) => (f v, rest) := by
  intro cs w rest t hread ht
  obtain ⟨⟨v, rest'⟩, hv, hw⟩ := Option.map_eq_some_iff.mp hread
  cases hw
  dsimp only
  rw [h hv ht]
  rfl

theorem local_parseWhole : Local parseWhole := by
  intro cs v rest t h ht
  unfold parseWhole at h ⊢
  obtain ⟨⟨digits, rest'⟩, hdigits, hv⟩ := Option.bind_eq_some_iff.mp h
  refine Option.bind_eq_some_iff.mpr ⟨_, local_parseDigits hdigits ht, ?_⟩
  dsimp only at hv ⊢
  split at hv
  case isTrue => cases hv
  case isFalse hzero =>
    cases hv
    exact if_neg hzero

theorem local_parseFraction : Local parseFraction := by
  intro cs v rest t h ht
  unfold parseFraction at h
  split at h
  · exact (local_parseDigits.map some) h ht
  · rename_i hpoint
    cases h
    refine parseFraction.eq_2 _ fun cs' heq => ?_
    rcases cs with _ | ⟨c, cs⟩
    · exact ht.ne_cons (Or.inl rfl) heq
    · exact hpoint cs (by rw [(List.cons.inj heq).1])

theorem local_parseSignedDigits : Local parseSignedDigits := by
  intro cs v rest t h ht
  unfold parseSignedDigits at h
  split at h
  · exact (local_parseDigits.map fun digits => -(Nat.ofDigitChars 10 digits 0 : Int)) h ht
  · exact (local_parseDigits.map fun digits => (Nat.ofDigitChars 10 digits 0 : Int)) h ht
  · rename_i hminus hplus
    rcases cs with _ | ⟨c, cs⟩
    · cases h
    · rw [List.cons_append, parseSignedDigits.eq_3 _ (fun _ heq => hminus cs (by rw [(List.cons.inj heq).1]))
        fun _ heq => hplus cs (by rw [(List.cons.inj heq).1])]
      exact (local_parseDigits.map fun digits => (Nat.ofDigitChars 10 digits 0 : Int)) h ht

theorem local_parseExponent : Local parseExponent := by
  intro cs v rest t h ht
  unfold parseExponent at h
  split at h
  · exact (local_parseSignedDigits.map some) h ht
  · exact (local_parseSignedDigits.map some) h ht
  · rename_i he hE
    cases h
    refine parseExponent.eq_3 _ (fun cs' heq => ?_) fun cs' heq => ?_
    all_goals rcases cs with _ | ⟨c, cs⟩
    · exact ht.ne_cons (Or.inr (Or.inl rfl)) heq
    · exact he cs (by rw [(List.cons.inj heq).1])
    · exact ht.ne_cons (Or.inr (Or.inr rfl)) heq
    · exact hE cs (by rw [(List.cons.inj heq).1])

theorem local_parseUnsigned (negative : Bool) : Local (parseUnsigned negative) := by
  intro cs v rest t h ht
  unfold parseUnsigned at h ⊢
  obtain ⟨⟨whole, rest₁⟩, hwhole, h⟩ := Option.bind_eq_some_iff.mp h
  obtain ⟨⟨fraction, rest₂⟩, hfraction, h⟩ := Option.bind_eq_some_iff.mp h
  obtain ⟨⟨exponent, rest₃⟩, hexponent, h⟩ := Option.bind_eq_some_iff.mp h
  obtain ⟨value, hvalue, h⟩ := Option.bind_eq_some_iff.mp h
  cases h
  refine Option.bind_eq_some_iff.mpr ⟨_, local_parseWhole hwhole ht, ?_⟩
  refine Option.bind_eq_some_iff.mpr ⟨_, local_parseFraction hfraction ht, ?_⟩
  refine Option.bind_eq_some_iff.mpr ⟨_, local_parseExponent hexponent ht, ?_⟩
  exact Option.bind_eq_some_iff.mpr ⟨_, hvalue, rfl⟩

theorem parseDigits_ne_nil {cs : List Char} {p : List Char × List Char} (h : parseDigits cs = some p) :
    ∃ c cs', cs = c :: cs' ∧ c.isDigit = true := by
  unfold parseDigits at h
  rw [List.span_eq_takeWhile_dropWhile] at h
  rcases cs with _ | ⟨c, cs⟩
  · cases h
  · refine ⟨c, cs, rfl, ?_⟩
    by_contra hc
    rw [List.takeWhile_cons_of_neg hc] at h
    cases h

theorem parseNumber_head {cs : List Char} {p : Json × List Char} (h : parseNumber cs = some p) :
    ∃ c cs', cs = c :: cs' ∧ (c = '-' ∨ c.isDigit = true) := by
  unfold parseNumber at h
  split at h
  · exact ⟨_, _, rfl, Or.inl rfl⟩
  · obtain ⟨_, hwhole, -⟩ := Option.bind_eq_some_iff.mp h
    obtain ⟨_, hdigits, -⟩ := Option.bind_eq_some_iff.mp hwhole
    obtain ⟨c, cs', hcs, hc⟩ := parseDigits_ne_nil hdigits
    exact ⟨c, cs', hcs, Or.inr hc⟩

/-- **A number** is read in the same way if more follows that cannot belong to it. -/
theorem parseNumber_append {cs rest : List Char} {v : Json} (h : parseNumber cs = some (v, rest))
    (ht : Ends t) : parseNumber (cs ++ t) = some (v, rest ++ t) := by
  obtain ⟨c, cs', rfl, hc⟩ := parseNumber_head h
  by_cases hminus : c = '-'
  · rw [hminus] at h ⊢
    exact local_parseUnsigned true h ht
  · have hbare : ∀ cs, parseNumber (c :: cs) = parseUnsigned false (c :: cs) := fun cs =>
      parseNumber.eq_2 _ fun _ heq => hminus (List.cons.inj heq).1
    rw [hbare] at h
    rw [List.cons_append, hbare]
    exact local_parseUnsigned false h ht

/-! ### Integers -/

theorem le_ofDigitChars (cs : List Char) (n : Nat) : n ≤ Nat.ofDigitChars 10 cs n := by
  induction cs generalizing n with
  | nil => exact Nat.le_refl _
  | cons c cs ih =>
    rw [Nat.ofDigitChars_cons]
    exact Nat.le_trans (by omega) (ih _)

/-- No digit is left over if all of them together fit. -/
theorem extendSignificand_eq {cs : List Char} {n : Nat} (h : Nat.ofDigitChars 10 cs n ≤ maxWord) :
    extendSignificand n cs = (Nat.ofDigitChars 10 cs n, []) := by
  induction cs generalizing n with
  | nil => rfl
  | cons c cs ih =>
    rw [Nat.ofDigitChars_cons, Nat.mul_comm] at h
    rw [extendSignificand, if_pos (Nat.le_trans (le_ofDigitChars cs _) h), ih h, Nat.ofDigitChars_cons,
      Nat.mul_comm n]

theorem head?_toDigits {n : Nat} (h : n ≠ 0) : (Nat.toDigits 10 n).head? ≠ some '0' := by
  induction n using Nat.strongRecOn with
  | ind n ih =>
    rw [Nat.toDigits_eq_if (by decide)]
    split
    case isTrue => exact fun hhead => h (Nat.digitChar_eq_zero.mp (Option.some.inj hhead))
    case isFalse hn =>
      rw [List.head?_append_of_ne_nil _ Nat.toDigits_ne_nil]
      exact ih (n / 10) (by omega) (by omega)

theorem parseWhole_toDigits (n : Nat) :
    parseWhole (Nat.toDigits 10 n) = some (Nat.toDigits 10 n, []) := by
  have hall : ∀ c ∈ Nat.toDigits 10 n, c.isDigit = true := fun c hc =>
    Nat.isDigit_of_mem_toDigits (by decide) (by decide) hc
  have hdigits : parseDigits (Nat.toDigits 10 n) = some (Nat.toDigits 10 n, []) := by
    unfold parseDigits
    rw [List.span_eq_takeWhile_dropWhile, List.takeWhile_eq_self_iff.mpr hall,
      List.dropWhile_eq_nil_iff.mpr hall]
    exact if_neg (by simp)
  refine Option.bind_eq_some_iff.mpr ⟨_, hdigits, if_neg ?_⟩
  simp only [Bool.and_eq_true, decide_eq_true_eq, not_and]
  intro hlength hzero
  by_cases hn : n = 0
  · subst hn
    exact hlength rfl
  · exact head?_toDigits hn hzero

theorem parseUnsigned_toDigits (negative : Bool) {n : Nat} {v : Json}
    (hv : NumberParts.value? ⟨negative, Nat.toDigits 10 n, none, none⟩ = some v) :
    parseUnsigned negative (Nat.toDigits 10 n) = some (v, []) :=
  Option.bind_eq_some_iff.mpr ⟨_, parseWhole_toDigits n,
    Option.bind_eq_some_iff.mpr ⟨_, rfl, Option.bind_eq_some_iff.mpr ⟨_, rfl,
      Option.bind_eq_some_iff.mpr ⟨v, hv, rfl⟩⟩⟩⟩

theorem extendSignificand_toDigits {n : Nat} (h : n < UInt64.size) :
    extendSignificand 0 (Nat.toDigits 10 n) = (n, []) := by
  have hn : Nat.ofDigitChars 10 (Nat.toDigits 10 n) 0 = n :=
    Nat.ofDigitChars_toDigits (by decide) (by decide)
  have hfits : Nat.ofDigitChars 10 (Nat.toDigits 10 n) 0 ≤ maxWord := by
    rw [hn]
    exact Nat.le_sub_one_of_lt h
  rw [extendSignificand_eq hfits, hn]

/-- **An integer** that fits into 64 bits, with or without a sign, is read as it was written. -/
theorem parseNumber_showInt {n : Int} (hlow : Int64.minValue.toInt ≤ n) (hhigh : n < UInt64.size) :
    parseNumber (Text.showInt n).toList = some (.integer n, []) := by
  rcases n with n | n
  · have htext : (Text.showInt (.ofNat n)).toList = Nat.toDigits 10 n := String.toList_ofList
    have hbare : parseNumber (Nat.toDigits 10 n) = parseUnsigned false (Nat.toDigits 10 n) := by
      refine parseNumber.eq_2 _ fun cs hminus => ?_
      have hdigit : '-'.isDigit = true := Nat.isDigit_of_mem_toDigits (b := 10) (n := n) (by decide)
        (by decide) (hminus ▸ List.mem_cons_self)
      exact absurd hdigit (by decide)
    rw [htext, hbare]
    refine parseUnsigned_toDigits false ?_
    unfold NumberParts.value?
    rw [extendSignificand_toDigits (Int.ofNat_lt.mp hhigh)]
    rfl
  · have htext : (Text.showInt (.negSucc n)).toList = '-' :: Nat.toDigits 10 (n + 1) := by
      rw [Text.showInt, String.toList_append]
      exact congrArg _ String.toList_ofList
    have hmin : Int64.minValue.toInt = -(Int64.maxValue.toInt + 1) := by decide
    have hmax : Int64.maxValue.toInt + 1 < UInt64.size := by decide
    rw [htext]
    refine parseUnsigned_toDigits true ?_
    unfold NumberParts.value?
    rw [extendSignificand_toDigits (by omega)]
    dsimp only
    rw [if_neg (by decide), if_neg]
    · rfl
    · simp only [Bool.or_eq_true, decide_eq_true_eq, not_or]
      omega

end Rowflow.Json
