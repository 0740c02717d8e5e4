/-!
# Binary floating-point numbers of 64 bits

A number is its 64 bits: sign, eleven bits of exponent, fifty-two bits of fraction. Every finite
number is a whole multiple of `2 ^ -1074`, and `units?` is that multiple, with the infinities one
step beyond the largest finite magnitude. The order of the numbers is the order of their units; only
a number that is none (`isNaN`) has no units, and it compares with nothing.
-/

namespace Rowflow

/-- A floating-point number of 64 bits. -/
structure Binary64 where
  bits : UInt64
  deriving DecidableEq, Inhabited

namespace Binary64

/-! ### The parts of a number -/

/-- What the sign bit adds to the bits: `2 ^ 63`. -/
def signWeight : Nat := 0x8000000000000000

/-- How many magnitudes share an exponent: `2 ^ 52`, which is also the first significand that has
the leading digit. -/
def binade : Nat := 0x10000000000000

/-- The number one in units: `2 ^ 1074`. -/
def unitsInOne : Nat := 1 <<< 1074

/-- The sign bit. -/
def isNegative (x : Binary64) : Bool := signWeight ≤ x.bits.toNat

/-- The bits below the sign. -/
def magnitudeBits (x : Binary64) : Nat := x.bits.toNat % signWeight

/-- The bits of an infinite magnitude. -/
def infiniteBits : Nat := 2047 * binade

/-- Neither finite nor infinite. -/
def isNaN (x : Binary64) : Bool := infiniteBits < x.magnitudeBits

/-- Infinite, of either sign. -/
def isInfinite (x : Binary64) : Bool := x.magnitudeBits = infiniteBits

/-- Finite, of either sign. -/
def isFinite (x : Binary64) : Bool := x.magnitudeBits < infiniteBits

/-- The significand `m` and the exponent `k` of a finite magnitude `m * 2 ^ k` units. -/
def significand (magnitude : Nat) : Nat × Nat :=
  let field := magnitude / binade
  let fraction := magnitude % binade
  if field = 0 then (fraction, 0) else (fraction + binade, field - 1)

/-- A magnitude as a multiple of `2 ^ -1074`; the infinite one comes out as `2 ^ 2098`. -/
def magnitudeUnits (magnitude : Nat) : Nat :=
  let (m, k) := significand magnitude
  m <<< k

/-- The number as a multiple of `2 ^ -1074`. -/
def units? (x : Binary64) : Option Int :=
  if x.isNaN then none
  else
    let n : Int := magnitudeUnits x.magnitudeBits
    some (if x.isNegative then -n else n)

/-! ### Named numbers -/

/-- The number with a sign and a magnitude. -/
def ofParts (negative : Bool) (magnitude : Nat) : Binary64 :=
  ⟨.ofNat (magnitude + if negative then signWeight else 0)⟩

/-- Zero with a sign. -/
def zero (negative : Bool) : Binary64 := ofParts negative 0

/-- Infinity with a sign. -/
def infinity (negative : Bool) : Binary64 := ofParts negative infiniteBits

/-- The number that is none. -/
def nan : Binary64 := ofParts false (infiniteBits + binade / 2)

/-- The same magnitude with the other sign. -/
def negate (x : Binary64) : Binary64 := ofParts (!x.isNegative) x.magnitudeBits

/-! ### Order -/

/-- How two numbers stand to each other, unless one of them is no number. -/
def compare? (x y : Binary64) : Option Ordering := do
  let m ← x.units?
  let n ← y.units?
  return compare m n

/-- Equality of values: the two zeros are equal, and no number equals nothing. -/
def equals (x y : Binary64) : Bool := compare? x y = some .eq

end Binary64

end Rowflow
