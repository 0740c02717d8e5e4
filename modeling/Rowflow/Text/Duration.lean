import Rowflow.Text.Numeral

/-!
# Spans of time

A span of time is a number of nanoseconds. It is written in the largest of the units `s`, `ms`, `µs`
and `ns` of which it holds at least one, with the decimals it needs and no more.
-/

namespace Rowflow

/-- A span of time in nanoseconds. -/
structure Duration where
  nanos : Nat
  deriving DecidableEq, Repr, Inhabited

namespace Duration

/-- A number of milliseconds. -/
def ofMillis (n : Nat) : Duration := ⟨n * 1000000⟩

/-- Seconds and the nanoseconds beyond them. -/
def ofParts (seconds nanos : Nat) : Duration := ⟨seconds * 1000000000 + nanos⟩

/-- The whole milliseconds of a span, as a 64-bit number. -/
def toMillis (d : Duration) : UInt64 := .ofNat (d.nanos / 1000000)

/-- The number `whole + part / 10 ^ places` with the decimals it needs. -/
def showDecimal (whole part places : Nat) : String :=
  let digits := Nat.toDigits 10 part
  let padded := List.replicate (places - digits.length) '0' ++ digits
  let kept := (padded.reverse.dropWhile (· = '0')).reverse
  if kept.isEmpty then Text.showNat whole
  else Text.showNat whole ++ "." ++ String.ofList kept

/-- The span in its largest unit. -/
protected def render (d : Duration) : String :=
  if 1000000000 ≤ d.nanos then
    showDecimal (d.nanos / 1000000000) (d.nanos % 1000000000) 9 ++ "s"
  else if 1000000 ≤ d.nanos then
    showDecimal (d.nanos / 1000000) (d.nanos % 1000000) 6 ++ "ms"
  else if 1000 ≤ d.nanos then
    showDecimal (d.nanos / 1000) (d.nanos % 1000) 3 ++ "µs"
  else Text.showNat d.nanos ++ "ns"

end Duration

end Rowflow
