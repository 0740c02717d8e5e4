import Rowflow.Binary64.Text
import Rowflow.Toml.Basic
import Rowflow.Toml.Text

/-!
# Numbers and dates of TOML

Digits may be separated by single underscores. Integers are decimal without leading zeros or,
without a sign, hexadecimal, octal or binary; they have 64 bits. A floating-point number has a
fraction or an exponent. Dates and times are checked against the calendar and written in one form.
-/

namespace Rowflow.Toml

/-! ### Digits -/

/-- Digits at the front that single underscores may separate, after those that are given in reverse.
An underscore must stand between two digits. -/
def separated? (isDigit : Char → Bool) (acc : List Char) : List Char → Read (List Char)
  | '_' :: c :: cs =>
    if isDigit c && !acc.isEmpty then separated? isDigit (c :: acc) cs else none
  | c :: cs =>
    if isDigit c then separated? isDigit (c :: acc) cs
    else if acc.isEmpty || c = '_' then none
    else some (acc.reverse, c :: cs)
  | [] => if acc.isEmpty then none else some (acc.reverse, [])

/-- A sign at the front: whether it is a minus, and the rest. -/
def sign (cs : List Char) : Bool × List Char :=
  match cs with
  | '+' :: cs => (false, cs)
  | '-' :: cs => (true, cs)
  | cs => (false, cs)

/-- Decimal digits without leading zeros: a zero stands alone. -/
def whole? : List Char → Read (List Char)
  | '0' :: cs => some (['0'], cs)
  | cs => separated? Char.isDigit [] cs

/-! ### Integers -/

/-- The integer, if it has 64 bits. -/
def ofInt? (n : Int) : Option Toml :=
  if Int64.minValue.toInt ≤ n && n ≤ Int64.maxValue.toInt then some (.integer n) else none

/-- The number that digits denote in a radix. -/
def radixValue (radix : Nat) (digits : List Char) : Nat :=
  digits.foldl (fun n c => n * radix + (Text.hexDigit? c).getD 0) 0

/-- An integer of another radix than ten, after its prefix. -/
def radixInteger? (radix : Nat) (cs : List Char) : Read Toml :=
  let isDigit (c : Char) : Bool :=
    match Text.hexDigit? c with
    | some d => d < radix
    | none => false
  match separated? isDigit [] cs with
  | some (digits, rest) => (ofInt? (radixValue radix digits)).map (·, rest)
  | none => none

/-- An integer. -/
def integer? : List Char → Read Toml
  | '0' :: 'x' :: cs => radixInteger? 16 cs
  | '0' :: 'o' :: cs => radixInteger? 8 cs
  | '0' :: 'b' :: cs => radixInteger? 2 cs
  | cs =>
    let (negative, cs) := sign cs
    match whole? cs with
    | some (digits, rest) =>
      let n : Int := Nat.ofDigitChars 10 digits 0
      (ofInt? (if negative then -n else n)).map (·, rest)
    | none => none

/-! ### Floating-point numbers -/

/-- The fraction at the front, if there is one; no digits if there is none. -/
def fraction? : List Char → Read (List Char)
  | '.' :: cs => separated? Char.isDigit [] cs
  | cs => some ([], cs)

/-- The exponent at the front, if there is one. -/
def exponent? (cs : List Char) : Read (Option Int) :=
  match cs with
  | c :: rest =>
    if c = 'e' || c = 'E' then
      let (negative, rest) := sign rest
      (separated? Char.isDigit [] rest).map fun (digits, rest) =>
        let n : Int := Nat.ofDigitChars 10 digits 0
        (some (if negative then -n else n), rest)
    else some (none, cs)
  | [] => some (none, [])

/-- One of the names of infinity and of no number, with an optional sign. -/
def namedFloat? (cs : List Char) : Read Toml :=
  let (negative, cs) := sign cs
  match cs with
  | 'i' :: 'n' :: 'f' :: rest => some (.float (.infinity negative), rest)
  | 'n' :: 'a' :: 'n' :: rest => some (.float .nan, rest)
  | _ => none

/-- A floating-point number or, without fraction and exponent, an integer. A number that is too
large is refused, unless it is negative. -/
def number? (cs : List Char) : Option (Toml × List Char) := do
  if let some r := namedFloat? cs then return r
  let (negative, unsigned) := sign cs
  let (whole, rest) ← whole? unsigned
  let (fraction, rest) ← fraction? rest
  let (exponent, rest) ← exponent? rest
  if fraction.isEmpty && exponent.isNone then integer? cs
  else
    let x : Binary64 := .ofDecimal negative (Nat.ofDigitChars 10 (whole ++ fraction) 0)
      (exponent.getD 0 - fraction.length)
    if x.isInfinite && !negative then none else return (.float x, rest)

/-! ### Dates and times -/

/-- A number of exactly so many digits between two bounds. -/
def fixed? (digits low high : Nat) (cs : List Char) : Read Nat :=
  let front := cs.take digits
  let n := Nat.ofDigitChars 10 front 0
  if front.length = digits && front.all Char.isDigit && low ≤ n && n ≤ high then
    some (n, cs.drop digits)
  else none

/-- The rest behind a character. -/
def after? (c : Char) : List Char → Option (List Char)
  | d :: cs => if c = d then some cs else none
  | [] => none

/-- The number of days of a month. -/
def daysOfMonth (year month : Nat) : Nat :=
  if month = 2 then if year % 4 = 0 && (year % 100 ≠ 0 || year % 400 = 0) then 29 else 28
  else if [4, 6, 9, 11].contains month then 30
  else 31

/-- A number with zeros in front up to a number of digits. -/
def padded (digits n : Nat) : List Char :=
  let text := Nat.toDigits 10 n
  List.replicate (digits - text.length) '0' ++ text

/-- A date. -/
def date? (cs : List Char) : Option (List Char × List Char) := do
  let (year, rest) ← fixed? 4 0 9999 cs
  let (month, rest) ← fixed? 2 1 12 (← after? '-' rest)
  let (day, rest) ← fixed? 2 1 (daysOfMonth year month) (← after? '-' rest)
  return (padded 4 year ++ '-' :: padded 2 month ++ '-' :: padded 2 day, rest)

/-- The fraction of a second, of which nine digits count and zeros at the end do not. -/
def secondFraction? : List Char → Option (List Char × List Char)
  | '.' :: cs =>
    let digits := cs.takeWhile Char.isDigit
    let shown := ((digits.take 9).reverse.dropWhile (· = '0')).reverse
    if digits.isEmpty then none
    else some (if shown.isEmpty then [] else '.' :: shown, cs.drop digits.length)
  | cs => some ([], cs)

/-- A time. -/
def time? (cs : List Char) : Option (List Char × List Char) := do
  let (hour, rest) ← fixed? 2 0 23 cs
  let (minute, rest) ← fixed? 2 0 59 (← after? ':' rest)
  let (second, rest) ← fixed? 2 0 60 (← after? ':' rest)
  let (fraction, rest) ← secondFraction? rest
  return (padded 2 hour ++ ':' :: padded 2 minute ++ ':' :: padded 2 second ++ fraction, rest)

/-- The offset of a time from universal time, if there is one. -/
def offset? (cs : List Char) : Option (List Char × List Char) := do
  match cs with
  | 'Z' :: rest | 'z' :: rest => return (['Z'], rest)
  | '+' :: _ | '-' :: _ =>
    let (negative, rest) := sign cs
    let (hour, rest) ← fixed? 2 0 23 rest
    let (minute, rest) ← fixed? 2 0 59 (← after? ':' rest)
    let mark := if negative && hour + minute ≠ 0 then '-' else '+'
    return (mark :: padded 2 hour ++ ':' :: padded 2 minute, rest)
  | _ => return ([], cs)

/-- The time behind a date, if there is one. -/
def timeOfDate? (cs : List Char) : Option (List Char × List Char) := do
  match cs with
  | 'T' :: rest | 't' :: rest | ' ' :: rest =>
    let (time, rest) ← time? rest
    let (offset, rest) ← offset? rest
    return ('T' :: time ++ offset, rest)
  | _ => none

/-- A date, a time or both. -/
def datetime? (cs : List Char) : Read Toml :=
  match date? cs with
  | some (date, rest) =>
    let (time, rest) := (timeOfDate? rest).getD ([], rest)
    some (.datetime (String.ofList (date ++ time)), rest)
  | none => (time? cs).map fun (time, rest) => (.datetime (String.ofList time), rest)

end Rowflow.Toml
