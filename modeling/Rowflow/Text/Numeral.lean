import Rowflow.Text.Blank

/-!
# Decimal numerals of integers

A numeral is an optional sign followed by one or more ASCII digits. Reading refuses everything else
and, for machine integers, every number outside their range; writing gives the numeral without
leading zeros and with a sign only below zero.
-/

namespace Rowflow.Text

/-! ### Reading -/

/-- The number a non-empty run of ASCII digits denotes. -/
def readNat? (cs : List Char) : Option Nat :=
  if cs ≠ [] ∧ cs.all Char.isDigit then some (Nat.ofDigitChars 10 cs 0) else none

/-- The number an optionally signed run of digits denotes. -/
def readInt? : List Char → Option Int
  | '+' :: cs => (readNat? cs).map Int.ofNat
  | '-' :: cs => (readNat? cs).map fun n => -Int.ofNat n
  | cs => (readNat? cs).map Int.ofNat

/-- The 64-bit signed integer with this value, if there is one. -/
def int64OfInt? (n : Int) : Option Int64 :=
  if Int64.minValue.toInt ≤ n ∧ n ≤ Int64.maxValue.toInt then some (Int64.ofInt n) else none

/-- The 64-bit signed integer that a numeral, white space around it ignored, denotes. -/
def readInt64? (s : String) : Option Int64 :=
  (readInt? (trim s.toList)).bind int64OfInt?

/-! ### Writing -/

/-- The numeral of a natural number. -/
def showNat (n : Nat) : String := String.ofList (Nat.toDigits 10 n)

/-- The numeral of an integer. -/
def showInt : Int → String
  | .ofNat n => showNat n
  | .negSucc n => "-" ++ showNat (n + 1)

/-- The numeral of a 64-bit signed integer. -/
def showInt64 (n : Int64) : String := showInt n.toInt

end Rowflow.Text
