import Rowflow.Text.Hexadecimal
import Rowflow.Yaml.Syntax.Character

/-!
# Tokens of a YAML text

The marks, names and scalars of which a text consists; where a collection is told by indentation
alone, its start and its end are tokens too. Anchors, tags and directives are read here, since they
stand within a line.
-/

namespace Rowflow.Yaml.Syntax

/-- How the text of a scalar is written. -/
inductive Style where
  | plain
  | quoted
  | literal
  | folded
  deriving DecidableEq, Repr

/-- A token. -/
inductive Token where
  | version (major minor : Nat)
  /-- A handle of tags and what it stands for. -/
  | handle (handle meaning : String)
  | documentStart
  | documentEnd
  | blockSequence
  | blockMapping
  | blockEnd
  | flowSequence
  | flowSequenceEnd
  | flowMapping
  | flowMappingEnd
  | blockEntry
  | flowEntry
  | key
  | value
  | alias (name : String)
  | anchor (name : String)
  /-- A tag: its handle and the rest; without handle the rest is the whole tag. -/
  | tag (handle rest : String)
  | scalar (style : Style) (text : String)
  deriving DecidableEq, Repr

/-! ### Anchors -/

/-- Whether the name of an anchor may end before this text. -/
def endsName : List Char → Bool
  | [] => true
  | c :: _ => isSpace c || isBreak c || ['?', ':', ',', ']', '\x7d', '%', '@', '\x60'].contains c

/-- The name of an anchor or of an alias, at the place of its mark. -/
def anchorName? (p : Place) : Option (String × Place) :=
  let name := (p.rest.drop 1).takeWhile isWord
  let after := p.skip (1 + name.length)
  if name.isEmpty || !endsName after.rest then none else some (String.ofList name, after)

/-! ### Tags -/

/-- Whether a character may stand in a tag; some only in one between angle brackets. -/
def isTagChar (verbatim : Bool) (c : Char) : Bool :=
  isWord c ||
    [';', '/', '?', ':', '@', '&', '=', '+', '$', '.', '%', '!', '~', '*', '\'', '(',
      ')'].contains c ||
    (verbatim && [',', '[', ']'].contains c)

/-- The octet of an escape. -/
def octet? (a b : Char) : Option Nat := do
  return (← Text.hexDigit? a) * 16 + (← Text.hexDigit? b)

/-- The number of octets after a leading one, and the bits that it carries itself. -/
def leadingOctet? (n : Nat) : Option (Nat × Nat) :=
  if n < 0x80 then some (0, n)
  else if n < 0xC0 then none
  else if n < 0xE0 then some (1, n % 0x20)
  else if n < 0xF0 then some (2, n % 0x10)
  else if n < 0xF8 then some (3, n % 8)
  else none

/-- The text of a tag with its escapes resolved: an escape is a percent sign with two digits, and as
many of them as a character has octets stand for that character. -/
def unescapeTag? (missing code : Nat) (acc : List Char) : List Char → Option String
  | [] => if missing = 0 then some (String.ofList acc.reverse) else none
  | '%' :: a :: b :: cs =>
    match octet? a b with
    | none => none
    | some n =>
      if missing = 0 then
        match leadingOctet? n with
        | none => none
        | some (0, bits) => unescapeTag? 0 0 (Char.ofNat bits :: acc) cs
        | some (more, bits) => unescapeTag? more bits acc cs
      else if n < 0x80 || 0xC0 ≤ n then none
      else if missing = 1 then
        match Text.charOfCode? (code * 64 + n % 64) with
        | some c => unescapeTag? 0 0 (c :: acc) cs
        | none => none
      else unescapeTag? (missing - 1) (code * 64 + n % 64) acc cs
  | c :: cs => if missing = 0 && c ≠ '%' then unescapeTag? 0 0 (c :: acc) cs else none

/-- The characters of a tag at the front, as they are written. -/
def tagChars (verbatim : Bool) (cs : List Char) : List Char := cs.takeWhile (isTagChar verbatim)

/-- A handle at the front: `!`, `!!` or a name between two exclamation marks. -/
def tagHandle? : List Char → Option (List Char)
  | '!' :: cs =>
    let name := cs.takeWhile isWord
    match cs.drop name.length with
    | '!' :: _ => some ('!' :: name ++ ['!'])
    | _ => some ['!']
  | _ => none

/-- A tag, with the place behind it. -/
def tag? (p : Place) : Option (Token × Place) :=
  match p.rest with
  | '!' :: '<' :: cs => do
    let chars := tagChars true cs
    let after := p.skip (2 + chars.length)
    match chars, after.rest with
    | _ :: _, '>' :: _ => return (.tag "" (← unescapeTag? 0 0 [] chars), after.skip 1)
    | _, _ => none
  | cs => do
    let handle ← tagHandle? cs
    let chars := tagChars false (cs.drop handle.length)
    let text ← unescapeTag? 0 0 [] chars
    let after := p.skip (handle.length + chars.length)
    if handle.length = 1 then
      return (if chars.isEmpty then .tag "" "!" else .tag "!" text, after)
    else if chars.isEmpty then none
    else return (.tag (String.ofList handle) text, after)

/-! ### Directives -/

/-- A number of a version, of at most nine digits. -/
def versionNumber? (cs : List Char) : Option (Nat × List Char) :=
  let digits := cs.takeWhile Char.isDigit
  if digits.isEmpty || 9 < digits.length then none
  else some (Nat.ofDigitChars 10 digits 0, cs.drop digits.length)

/-- A version: two numbers with a point between them. -/
def version? (cs : List Char) : Option (Token × List Char) := do
  let (major, rest) ← versionNumber? cs
  match rest with
  | '.' :: rest =>
    let (minor, rest) ← versionNumber? rest
    return (.version major minor, rest)
  | _ => none

/-- A handle and what it stands for. -/
def handle? (cs : List Char) : Option (Token × List Char) := do
  let handle ← tagHandle? cs
  match cs.drop handle.length with
  | c :: rest =>
    let rest := rest.dropWhile isSpace
    let chars := tagChars true rest
    let after := rest.drop chars.length
    if !isSpace c || chars.isEmpty || !atGap after then none
    else return (.handle (String.ofList handle) (← unescapeTag? 0 0 [] chars), after)
  | [] => none

/-- A directive after its percent sign. -/
def directive? (cs : List Char) : Option (Token × List Char) :=
  let name := cs.takeWhile isWord
  let rest := cs.drop name.length
  if !atGap rest then none
  else
    let rest := rest.dropWhile isSpace
    if name = "YAML".toList then version? rest
    else if name = "TAG".toList then handle? rest
    else none

end Rowflow.Yaml.Syntax
