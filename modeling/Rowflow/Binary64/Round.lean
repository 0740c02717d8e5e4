import Rowflow.Binary64.Basic

/-!
# Rounding to a 64-bit floating-point number

`roundRatio` is the number nearest to a fraction of natural numbers, a tie going to the even
significand and a value too large becoming infinite. Conversion of integers, products, quotients and
the reading of decimals are their exact results followed by this one rounding.
-/

namespace Rowflow.Binary64

/-- The natural number nearest to `n / d`, a half going to the even neighbour. -/
def roundDiv (n d : Nat) : Nat :=
  let q := n / d
  let r := n % d
  if 2 * r < d then q
  else if d < 2 * r then q + 1
  else if q % 2 = 0 then q else q + 1

/-- The magnitude nearest to `n / d` units. Below `2 ^ 53` units the grid has step one, above it the
step doubles with each further binary digit; since a significand of `2 ^ 53` is the first one of the
next step, adding the significand to the shifted exponent gives the bits in every case. -/
def magnitudeOfUnits (n d : Nat) : Nat :=
  let k := Nat.log2 (n / d) - 52
  min (k * binade + roundDiv n (d <<< k)) infiniteBits

/-- The number nearest to `n / d`. -/
def roundRatio (negative : Bool) (n d : Nat) : Binary64 :=
  ofParts negative (magnitudeOfUnits (n * unitsInOne) d)

/-! ### Operations -/

/-- The number nearest to an integer. -/
def ofInt (n : Int) : Binary64 := roundRatio (n < 0) n.natAbs 1

/-- The number nearest to `digits * 10 ^ exponent`. The exponent is first brought into the range in
which the result is neither surely zero nor surely infinite. -/
def ofDecimal (negative : Bool) (digits : Nat) (exponent : Int) : Binary64 :=
  if digits = 0 then zero negative
  else
    let size : Int := (Nat.log2 digits : Int) / 3 + exponent
    if 400 < exponent then infinity negative
    else if size < -800 then zero negative
    else if 0 ≤ exponent then roundRatio negative (digits * Nat.pow 10 exponent.toNat) 1
    else roundRatio negative digits (Nat.pow 10 (-exponent).toNat)

/-- The product. -/
def mul (x y : Binary64) : Binary64 :=
  let negative := x.isNegative != y.isNegative
  if x.isNaN || y.isNaN then nan
  else if x.isInfinite then if y.magnitudeBits = 0 then nan else infinity negative
  else if y.isInfinite then if x.magnitudeBits = 0 then nan else infinity negative
  else
    ofParts negative
      (magnitudeOfUnits
        (magnitudeUnits x.magnitudeBits * magnitudeUnits y.magnitudeBits) unitsInOne)

/-- The quotient. -/
def div (x y : Binary64) : Binary64 :=
  let negative := x.isNegative != y.isNegative
  if x.isNaN || y.isNaN then nan
  else if x.isInfinite then if y.isInfinite then nan else infinity negative
  else if y.isInfinite then zero negative
  else if y.magnitudeBits = 0 then if x.magnitudeBits = 0 then nan else infinity negative
  else
    ofParts negative
      (magnitudeOfUnits
        (magnitudeUnits x.magnitudeBits * unitsInOne) (magnitudeUnits y.magnitudeBits))

/-- The integer a number equals, if it is whole. -/
def toInt? (x : Binary64) : Option Int :=
  if x.isFinite then
    let n := magnitudeUnits x.magnitudeBits
    if n % unitsInOne = 0 then
      some (if x.isNegative then -Int.ofNat (n / unitsInOne) else Int.ofNat (n / unitsInOne))
    else none
  else none

end Rowflow.Binary64
