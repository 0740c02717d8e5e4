import Rowflow.Binary64.Round
import Rowflow.Binary64.Shortest
import Rowflow.Text.Numeral

/-!
# Floating-point numbers as text

A `Style` holds the decisions of a written form: which exponents are written without an exponent
part, whether whole numbers keep a fraction, and the names of the values that are not finite. There
are three of them, for people, for JSON and for YAML. Reading accepts an optional sign and then a
decimal with optional fraction and exponent or one of the names of infinity and of no number, in
either case of letters.
-/

namespace Rowflow.Binary64

/-! ### Writing -/

/-- The decisions of a written form. -/
structure Style where
  /-- The exponents of the first digit for which no exponent part is written. -/
  isPlain : Int → Bool
  /-- Whether a whole number written without exponent ends in `.0`. -/
  keepsFraction : Bool
  /-- What stands between the `e` and a positive exponent. -/
  plus : String
  /-- Which of two equally near shortest decimals is written. -/
  tie : Tie
  /-- The text of positive infinity; the negative one has a minus before it. -/
  infinity : String
  /-- The text of no number. -/
  nan : String
  /-- Whether infinity and no number have a sign of their own. -/
  signed : Bool

/-- The form for people: never an exponent. -/
def Style.display : Style := ⟨fun _ => true, false, "", .up, "inf", "NaN", true⟩

/-- The form in JSON, where what is not finite is null. -/
def Style.json : Style := ⟨fun e => -5 ≤ e && e < 16, true, "+", .toEven, "null", "null", false⟩

/-- The form in YAML. -/
def Style.yaml : Style := ⟨fun e => -5 ≤ e && e < 16, true, "", .toEven, ".inf", ".nan", true⟩

/-- A decimal without exponent part. -/
def Decimal.plain (d : Decimal) (keepsFraction : Bool) : String :=
  if d.exponent < 0 then
    String.ofList ('0' :: '.' :: List.replicate (-d.exponent - 1).toNat '0' ++ d.digits)
  else
    let whole := d.exponent.toNat + 1
    if d.digits.length ≤ whole then
      String.ofList (d.digits ++ List.replicate (whole - d.digits.length) '0') ++
        (if keepsFraction then ".0" else "")
    else String.ofList (d.digits.take whole ++ '.' :: d.digits.drop whole)

/-- A decimal with exponent part. -/
def Decimal.scientific (d : Decimal) (plus : String) : String :=
  let mantissa :=
    match d.digits with
    | [] => []
    | [c] => [c]
    | c :: rest => c :: '.' :: rest
  String.ofList mantissa ++ "e" ++ (if 0 ≤ d.exponent then plus else "") ++ Text.showInt d.exponent

/-- The written form of a magnitude that is finite. -/
def renderMagnitude (style : Style) (magnitude : Nat) : String :=
  let d := if magnitude = 0 then ⟨['0'], 0⟩ else shortest style.tie magnitude
  if style.isPlain d.exponent then d.plain style.keepsFraction else d.scientific style.plus

/-- The written form of a number. -/
def render (style : Style) (x : Binary64) : String :=
  if x.isNaN then style.nan
  else if x.isInfinite then (if x.isNegative && style.signed then "-" else "") ++ style.infinity
  else (if x.isNegative then "-" else "") ++ renderMagnitude style x.magnitudeBits

/-! ### Reading -/

/-- The digits at the front and what follows them. -/
def spanDigits (cs : List Char) : List Char × List Char := cs.span Char.isDigit

/-- The exponent part, `0` if there is none; nothing may follow it. -/
def readExponent? : List Char → Option Int
  | [] => some 0
  | c :: cs => if c = 'e' || c = 'E' then Text.readInt? cs else none

/-- The number of an unsigned decimal: digits on at least one side of the point, then perhaps an
exponent part. -/
def readDecimal? (negative : Bool) (cs : List Char) : Option Binary64 := do
  let (whole, rest) := spanDigits cs
  let (fraction, rest) :=
    match rest with
    | '.' :: rest => spanDigits rest
    | _ => ([], rest)
  if whole.isEmpty && fraction.isEmpty then none
  else
    let exponent ← readExponent? rest
    return ofDecimal negative (Nat.ofDigitChars 10 (whole ++ fraction) 0)
      (exponent - fraction.length)

/-- The number of an unsigned text. -/
def readUnsigned? (negative : Bool) (cs : List Char) : Option Binary64 :=
  let lower := cs.map Char.toLower
  if lower = "inf".toList || lower = "infinity".toList then some (infinity negative)
  else if lower = "nan".toList then some (if negative then nan.negate else nan)
  else readDecimal? negative cs

/-- The number that a text denotes. -/
def read? (s : String) : Option Binary64 :=
  match s.toList with
  | '+' :: cs => readUnsigned? false cs
  | '-' :: cs => readUnsigned? true cs
  | cs => readUnsigned? false cs

end Rowflow.Binary64
