import Rowflow.Binary64.Basic

/-!
# The shortest decimal that reads back

The reals that round to a finite number form an interval around it, whose ends belong to it exactly
if the significand is even. `shortest` finds the decimal with the fewest digits in the interval; of
two with the same number of digits it takes the one nearer to the number, and the direction of an
exact tie is the caller's choice.
-/

namespace Rowflow.Binary64

/-- A decimal number: `digits` is the numeral of a natural number, and its first digit stands for
`10 ^ exponent`. -/
structure Decimal where
  digits : List Char
  exponent : Int
  deriving DecidableEq, Repr, Inhabited

/-- Which of two equally near decimals is taken. -/
inductive Tie
  | toEven
  | up
  deriving DecidableEq, Repr

/-- A positive number as a fraction with the fractions halfway to its neighbours: the number is
`value / denominator`, and the interval reaches from `low` to `high` over the same denominator. -/
structure Interval where
  value : Nat
  low : Nat
  high : Nat
  denominator : Nat
  closed : Bool

/-- The interval of the reals that round to a finite magnitude other than zero. The neighbour below
the first significand of a binade is only half a step away. -/
def interval (magnitude : Nat) : Interval :=
  let (m, k) := significand magnitude
  let step := 1 <<< k
  let below := if m = binade && k ≠ 0 then step else 2 * step
  ⟨4 * m * step, 4 * m * step - below, 4 * m * step + 2 * step, 4 * unitsInOne, m % 2 = 0⟩

/-- Whether `n` steps of `10 ^ e` lie in the interval. -/
def Interval.holds (i : Interval) (n : Nat) (e : Int) : Bool :=
  let top := if 0 ≤ e then n * Nat.pow 10 e.toNat * i.denominator else n * i.denominator
  let scale := if 0 ≤ e then 1 else Nat.pow 10 (-e).toNat
  if i.closed then i.low * scale ≤ top && top ≤ i.high * scale
  else i.low * scale < top && top < i.high * scale

/-- The multiples of `10 ^ e` next to the number, from below and from above, and how their distances
compare (`lt`: the lower one is nearer). -/
def Interval.neighbours (i : Interval) (e : Int) : Nat × Ordering :=
  let n := if 0 ≤ e then i.value else i.value * Nat.pow 10 (-e).toNat
  let d := if 0 ≤ e then i.denominator * Nat.pow 10 e.toNat else i.denominator
  (n / d, compare (2 * (n % d)) d)

/-- The multiple of `10 ^ e` in the interval that is nearest to the number, if there is one. -/
def Interval.best (i : Interval) (tie : Tie) (e : Int) : Option Nat :=
  let (n, nearer) := i.neighbours e
  let low := n ≠ 0 && i.holds n e
  let high := i.holds (n + 1) e
  if low && high then
    match nearer with
    | .lt => some n
    | .gt => some (n + 1)
    | .eq => match tie with
      | .up => some (n + 1)
      | .toEven => some (if n % 2 = 0 then n else n + 1)
  else if low then some n
  else if high then some (n + 1)
  else none

/-- The position of the first decimal digit: the largest `e` with `10 ^ e` at most the number. The
estimate from the binary exponent is one too small at worst. -/
def Interval.leading (i : Interval) : Int :=
  let guess : Int :=
    (((Nat.log2 i.value : Int) - (Nat.log2 i.denominator : Int)) * 30103) / 100000 - 1
  let reaches (e : Int) : Bool :=
    if 0 ≤ e then Nat.pow 10 e.toNat * i.denominator ≤ i.value
    else i.denominator ≤ i.value * Nat.pow 10 (-e).toNat
  if reaches (guess + 2) then guess + 2 else if reaches (guess + 1) then guess + 1 else guess

/-- The digits of a natural number without trailing zeros. -/
def significantDigits (n : Nat) : List Char :=
  ((Nat.toDigits 10 n).reverse.dropWhile (· = '0')).reverse

/-- The decimal `n * 10 ^ e`. -/
def Decimal.ofScaled (n : Nat) (e : Int) : Decimal :=
  ⟨significantDigits n, e + (Nat.toDigits 10 n).length - 1⟩

/-- Tries grids of one digit, two digits and so on. -/
def Interval.search (i : Interval) (tie : Tie) (leading : Int) : Nat → Nat → Decimal
  | 0, count => Decimal.ofScaled (i.neighbours (leading + 1 - count)).1 (leading + 1 - count)
  | fuel + 1, count =>
    match i.best tie (leading + 1 - count) with
    | some n => Decimal.ofScaled n (leading + 1 - count)
    | none => search i tie leading fuel (count + 1)

/-- The shortest decimal that reads back as a finite magnitude other than zero. Seventeen digits
always suffice. -/
def shortest (tie : Tie) (magnitude : Nat) : Decimal :=
  let i := interval magnitude
  i.search tie i.leading 17 1

end Rowflow.Binary64
