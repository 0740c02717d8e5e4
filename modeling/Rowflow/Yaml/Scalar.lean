import Rowflow.Text.Hexadecimal
import Rowflow.Yaml.Basic

/-!
# What a bare scalar means

A bare scalar is null, a Boolean, an integer, a number or, failing these, a text. Integers may be
hexadecimal, octal or binary; decimal digits after a leading zero make a text. An integer that fits
into 128 bits but not into 64 is refused, and a larger one is read as a floating-point number. A
floating-point number that would not be finite is a text, unless it is one of the names of infinity
and of no number.
-/

namespace Rowflow.Yaml

/-! ### The kinds of scalars -/

/-- Whether a text is one of the names of null. -/
def isNullName (s : String) : Bool := ["null", "Null", "NULL", "~"].contains s

/-- Whether a bare scalar stands for nothing. -/
def isNullText (s : String) : Bool := s.isEmpty || isNullName s

/-- The Boolean of a name. -/
def readBool? (s : String) : Option Bool :=
  if ["true", "True", "TRUE"].contains s then some true
  else if ["false", "False", "FALSE"].contains s then some false
  else none

/-- The number a non-empty run of digits denotes in a radix. -/
def readRadix? (radix : Nat) (cs : List Char) : Option Nat :=
  if cs.isEmpty then none
  else
    cs.foldlM (fun n c => do
      let d ← Text.hexDigit? c
      if d < radix then some (n * radix + d) else none) 0

/-- The number of unsigned digits after a prefix that tells their radix. -/
def readPrefixed? : List Char → Option Nat
  | '0' :: 'x' :: cs => readRadix? 16 cs
  | '0' :: 'o' :: cs => readRadix? 8 cs
  | '0' :: 'b' :: cs => readRadix? 2 cs
  | '0' :: _ :: _ => none
  | cs => readRadix? 10 cs

/-- The integer that an optionally signed text denotes. -/
def readInteger? : List Char → Option Int
  | '+' :: cs => (readPrefixed? cs).map Int.ofNat
  | '-' :: cs => (readPrefixed? cs).map fun n => -Int.ofNat n
  | cs => (readPrefixed? cs).map Int.ofNat

/-- Whether a text is a decimal numeral with a zero in front of other digits. -/
def isZeroPadded (cs : List Char) : Bool :=
  let digits :=
    match cs with
    | '+' :: cs | '-' :: cs => cs
    | cs => cs
  match digits with
  | '0' :: c :: cs => (c :: cs).all Char.isDigit
  | _ => false

/-- The floating-point number that a text denotes. -/
def readFloat? (s : String) : Option Binary64 :=
  if [".inf", ".Inf", ".INF", "+.inf", "+.Inf", "+.INF"].contains s then some (.infinity false)
  else if ["-.inf", "-.Inf", "-.INF"].contains s then some (.infinity true)
  else if [".nan", ".NaN", ".NAN"].contains s then some .nan
  else (Binary64.read? s).filter Binary64.isFinite

/-! ### Resolution -/

/-- Whether a YAML value can hold an integer. -/
def holdsInteger (n : Int) : Bool := Int64.minValue.toInt ≤ n && n < UInt64.size

/-- Whether an integer is too large for a YAML value but still read as an integer: it has 128 bits,
with a sign or without. -/
def isWideInteger (n : Int) : Bool :=
  !holdsInteger n && Int64.minValue.toInt * UInt64.size ≤ n && n < UInt64.size * UInt64.size

/-- What an integer that was asked for means; `none` if it is refused. -/
def ofInteger? (s : String) : Option Yaml :=
  match readInteger? s.toList with
  | some n => if holdsInteger n then some (.integer n) else none
  | none => none

/-- What a bare scalar means; `none` if it is refused. -/
def ofPlain? (s : String) : Option Yaml :=
  if isNullText s then some .null
  else
    match readBool? s with
    | some b => some (.bool b)
    | none =>
      match readInteger? s.toList with
      | some n =>
        if holdsInteger n then some (.integer n)
        else if isWideInteger n then none
        else some (((readFloat? s).map Yaml.float).getD (.string s))
      | none =>
        if isZeroPadded s.toList then some (.string s)
        else some (((readFloat? s).map Yaml.float).getD (.string s))

/-- What a scalar with the given tag means; `none` if it is refused. The tags of the core schema
force a kind, every other one makes a text. -/
def ofTagged? (tag s : String) : Option Yaml :=
  if tag = "tag:yaml.org,2002:bool" then (readBool? s).map .bool
  else if tag = "tag:yaml.org,2002:int" then ofInteger? s
  else if tag = "tag:yaml.org,2002:float" then (readFloat? s).map .float
  else if tag = "tag:yaml.org,2002:null" then if isNullName s then some .null else none
  else some (.string s)

end Rowflow.Yaml
