import Rowflow.Json.Basic
import Rowflow.Text.Hexadecimal

/-!
# Reading JSON text

`Json.parse?` reads one value with white space around it and nothing else. A number without fraction
and exponent that fits into 64 bits is an integer; every other number is the significand of its
leading digits that fit into 64 bits, scaled by powers of ten, each operation rounded. A number too
large to be finite is refused.
-/

namespace Rowflow.Json

/-! ### Blanks and strings -/

/-- Drops the white space of JSON. -/
def skipBlanks (cs : List Char) : List Char :=
  cs.dropWhile fun c => c = ' ' || c = '\n' || c = '\r' || c = '\t'

/-- Four hexadecimal digits. -/
def hexQuad? (a b c d : Char) : Option Nat := do
  return ((← Text.hexDigit? a) * 16 + (← Text.hexDigit? b)) * 256 + (← Text.hexDigit? c) * 16 +
    (← Text.hexDigit? d)

/-- The character of an escape of one letter. -/
def simpleEscape? : Char → Option Char
  | '"' => some '"'
  | '\\' => some '\\'
  | '/' => some '/'
  | 'b' => some '\x08'
  | 'f' => some '\x0c'
  | 'n' => some '\n'
  | 'r' => some '\r'
  | 't' => some '\t'
  | _ => none

/-- The characters up to the closing quote and the text after it. Two escapes of surrogates make one
character; a surrogate alone and a bare control character are refused. -/
def parseString : List Char → Option (List Char × List Char)
  | [] => none
  | '"' :: rest => some ([], rest)
  | '\\' :: 'u' :: a :: b :: c :: d :: rest =>
    match hexQuad? a b c d with
    | none => none
    | some n =>
      if n < 0xD800 || 0xE000 ≤ n then
        (parseString rest).map fun (cs, rest) => (Char.ofNat n :: cs, rest)
      else if 0xDC00 ≤ n then none
      else
        match rest with
        | '\\' :: 'u' :: a' :: b' :: c' :: d' :: rest' =>
          match hexQuad? a' b' c' d' with
          | some m =>
            if 0xDC00 ≤ m && m < 0xE000 then
              (parseString rest').map fun (cs, rest) =>
                (Char.ofNat (0x10000 + (n - 0xD800) * 0x400 + (m - 0xDC00)) :: cs, rest)
            else none
          | none => none
        | _ => none
  | '\\' :: c :: rest =>
    match simpleEscape? c with
    | some e => (parseString rest).map fun (cs, rest) => (e :: cs, rest)
    | none => none
  | c :: rest =>
    if c.toNat < 0x20 || c = '\\' then none
    else (parseString rest).map fun (cs, rest) => (c :: cs, rest)

/-! ### Numbers -/

/-- The largest number of 64 bits. -/
def maxWord : Nat := UInt64.size - 1

/-- Appends digits to a significand while it fits into 64 bits; also the digits left over. -/
def extendSignificand (significand : Nat) : List Char → Nat × List Char
  | [] => (significand, [])
  | c :: cs =>
    let next := significand * 10 + (c.toNat - '0'.toNat)
    if next ≤ maxWord then extendSignificand next cs else (significand, c :: cs)

/-- A power of ten. -/
def powerOfTen (e : Nat) : Binary64 := .ofDecimal false 1 e

/-- `x * 10 ^ exponent` in steps of at most `10 ^ 308`; a result that is not finite is refused. -/
def scale? (x : Binary64) (exponent : Int) : Option Binary64 :=
  if 0 ≤ exponent then
    if x.magnitudeBits = 0 then some x
    else if 308 < exponent then none
    else
      let y := x.mul (powerOfTen exponent.toNat)
      if y.isFinite then some y else none
  else if -308 ≤ exponent then some (x.div (powerOfTen (-exponent).toNat))
  else if x.magnitudeBits = 0 then some x
  else scale? (x.div (powerOfTen 308)) (exponent + 308)
  termination_by (-exponent).toNat
  decreasing_by omega

/-- The parts of a number: the digits before the point, those after it and the exponent. -/
structure NumberParts where
  negative : Bool
  whole : List Char
  fraction : Option (List Char)
  exponent : Option Int

/-- The value of a number. -/
def NumberParts.value? (p : NumberParts) : Option Json :=
  let (significand, dropped) := extendSignificand 0 p.whole
  match p.fraction, p.exponent, dropped with
  | none, none, [] =>
    if !p.negative then some (.integer significand)
    else if significand = 0 || Int64.maxValue.toInt + 1 < significand then
      some (.number (Binary64.ofInt significand).negate)
    else some (.integer (-significand))
  | fraction, exponent, dropped =>
    let digits := fraction.getD []
    let (significand, ignored) := extendSignificand significand digits
    let shift : Int := dropped.length - (digits.length - ignored.length)
    let power := exponent.getD 0
    let sign (x : Binary64) : Json := .number (if p.negative then x.negate else x)
    if Int32.maxValue.toInt < power ∧ significand ≠ 0 then none
    else if Int32.maxValue.toInt < power ∨ power ≤ Int32.minValue.toInt then
      some (sign (.zero false))
    else (scale? (.ofInt significand) (shift + power)).map sign

/-- A digit run that may not be empty. -/
def parseDigits (cs : List Char) : Option (List Char × List Char) :=
  let (digits, rest) := cs.span Char.isDigit
  if digits.isEmpty then none else some (digits, rest)

/-- The digits before the point: a leading zero stands alone. -/
def parseWhole (cs : List Char) : Option (List Char × List Char) := do
  let (digits, rest) ← parseDigits cs
  if digits.length ≠ 1 && digits.head? = some '0' then none else some (digits, rest)

/-- The digits after the point, if there is one. -/
def parseFraction : List Char → Option (Option (List Char) × List Char)
  | '.' :: cs => (parseDigits cs).map fun (digits, rest) => (some digits, rest)
  | cs => some (none, cs)

/-- An exponent after its letter. -/
def parseSignedDigits : List Char → Option (Int × List Char)
  | '-' :: cs => (parseDigits cs).map fun (digits, rest) => (-(Nat.ofDigitChars 10 digits 0), rest)
  | '+' :: cs => (parseDigits cs).map fun (digits, rest) => (Nat.ofDigitChars 10 digits 0, rest)
  | cs => (parseDigits cs).map fun (digits, rest) => (Nat.ofDigitChars 10 digits 0, rest)

/-- The exponent, if there is one. -/
def parseExponent : List Char → Option (Option Int × List Char)
  | 'e' :: cs => (parseSignedDigits cs).map fun (n, rest) => (some n, rest)
  | 'E' :: cs => (parseSignedDigits cs).map fun (n, rest) => (some n, rest)
  | cs => some (none, cs)

/-- An unsigned number after its sign. -/
def parseUnsigned (negative : Bool) (cs : List Char) : Option (Json × List Char) := do
  let (whole, rest) ← parseWhole cs
  let (fraction, rest) ← parseFraction rest
  let (exponent, rest) ← parseExponent rest
  let value ← NumberParts.value? ⟨negative, whole, fraction, exponent⟩
  return (value, rest)

/-- A number. -/
def parseNumber : List Char → Option (Json × List Char)
  | '-' :: cs => parseUnsigned true cs
  | cs => parseUnsigned false cs

/-! ### Values -/

mutual

/-- A value without blanks before it. The first argument bounds the nesting. -/
def parseValue : Nat → List Char → Option (Json × List Char)
  | 0, _ => none
  | fuel + 1, cs =>
    match cs with
    | 'n' :: 'u' :: 'l' :: 'l' :: rest => some (.null, rest)
    | 't' :: 'r' :: 'u' :: 'e' :: rest => some (.bool true, rest)
    | 'f' :: 'a' :: 'l' :: 's' :: 'e' :: rest => some (.bool false, rest)
    | '"' :: rest => (parseString rest).map fun (s, rest) => (.string (String.ofList s), rest)
    | '[' :: rest =>
      match skipBlanks rest with
      | ']' :: rest => some (.array [], rest)
      | rest => (parseItems fuel rest).map fun (items, rest) => (.array items, rest)
    | '\x7b' :: rest =>
      match skipBlanks rest with
      | '\x7d' :: rest => some (.object [], rest)
      | rest => (parseMembers fuel rest).map fun (members, rest) => (.object members, rest)
    | cs => parseNumber cs

/-- The items of an array, from the first one to the closing bracket. -/
def parseItems : Nat → List Char → Option (List Json × List Char)
  | 0, _ => none
  | fuel + 1, cs =>
    match parseValue fuel cs with
    | none => none
    | some (v, rest) =>
      match skipBlanks rest with
      | ']' :: rest => some ([v], rest)
      | ',' :: rest => (parseItems fuel (skipBlanks rest)).map fun (vs, rest) => (v :: vs, rest)
      | _ => none

/-- The members of an object, from the first one to the closing brace. -/
def parseMembers : Nat → List Char → Option (List (String × Json) × List Char)
  | 0, _ => none
  | fuel + 1, cs =>
    match cs with
    | '"' :: rest =>
      match parseString rest with
      | none => none
      | some (key, rest) =>
        match skipBlanks rest with
        | ':' :: rest =>
          match parseValue fuel (skipBlanks rest) with
          | none => none
          | some (v, rest) =>
            match skipBlanks rest with
            | '\x7d' :: rest => some ([(String.ofList key, v)], rest)
            | ',' :: rest =>
              (parseMembers fuel (skipBlanks rest)).map fun (vs, rest) =>
                ((String.ofList key, v) :: vs, rest)
            | _ => none
        | _ => none
    | _ => none

end

/-- The value that a text holds. -/
def parse? (s : String) : Option Json :=
  let cs := s.toList
  match parseValue (cs.length + 1) (skipBlanks cs) with
  | some (v, rest) => if skipBlanks rest = [] then some v else none
  | none => none

end Rowflow.Json
