import Rowflow.Text.Hexadecimal
import Rowflow.Yaml.Syntax.Character

/-!
# The text of a scalar

A scalar stands bare, between single or double quotes, or as a block of lines after `|` or `>`. Its
words may be spread over lines; each of the readers goes through the characters once and folds what
stands between two words: a single line end becomes a space, several become one less, and the spaces
around them vanish. A block keeps the line ends after `|` and folds them after `>` between lines
that do not start with a space.
-/

namespace Rowflow.Yaml.Syntax

/-! ### Between two words -/

/-- What stands between two words; lists are in reverse. -/
inductive Gap where
  | none
  | spaces (chars : List Char)
  /-- Line ends: the first one, unless it was escaped, and the others. -/
  | lines (first : Option Char) (others : List Char)

namespace Gap

/-- Whether there is nothing. -/
def isNone : Gap → Bool
  | .none => true
  | _ => false

/-- Whether a line has ended. -/
def isBroken : Gap → Bool
  | .lines _ _ => true
  | _ => false

/-- The gap with a space after it. -/
def addSpace (c : Char) : Gap → Gap
  | .none => .spaces [c]
  | .spaces cs => .spaces (c :: cs)
  | g => g

/-- The gap with a line end after it. -/
def addBreak (c : Char) : Gap → Gap
  | .lines first others => .lines first (c :: others)
  | _ => .lines (some c) []

/-- What a gap leaves in the text, in reverse. -/
def folded : Gap → List Char
  | .none => []
  | .spaces cs => cs
  | .lines (some '\n') [] => [' ']
  | .lines (some '\n') others => others
  | .lines first others => others ++ first.toList

end Gap

/-- The text of a scalar, the place behind it, and whether a line has ended after its last word. -/
structure ScalarText where
  text : String
  place : Place
  brokeLine : Bool

/-! ### Bare scalars -/

/-- Whether a colon that the given text follows is refused in a flow collection. -/
def isDoubtfulColon : List Char → Bool
  | [] => false
  | c :: _ => [',', '?', '[', ']', '\x7b', '\x7d'].contains c

/-- Whether the character ends a bare scalar, given what follows. -/
def endsPlain (inFlow : Bool) (c : Char) (cs : List Char) : Bool :=
  (c = ':' && atGap cs) || (inFlow && [',', '[', ']', '\x7b', '\x7d'].contains c)

/-- A bare scalar whose following lines start at the column `floor` at least. -/
def plainText? (inFlow : Bool) (floor : Nat) (acc : List Char) (gap : Gap) (line column : Nat) :
    List Char → Option ScalarText
  | [] => some ⟨String.ofList acc.reverse, ⟨[], line, column⟩, gap.isBroken⟩
  | c :: cs =>
    if isSpace c then
      if gap.isBroken && column < floor && c = '\t' then none
      else plainText? inFlow floor acc (gap.addSpace c) line (column + 1) cs
    else if isBreak c then plainText? inFlow floor acc (gap.addBreak c) (line + 1) 0 cs
    else if !gap.isNone &&
        ((!inFlow && column < floor) || c = '#' || (column = 0 && isMark (c :: cs))) then
      some ⟨String.ofList acc.reverse, ⟨c :: cs, line, column⟩, gap.isBroken⟩
    else if inFlow && c = ':' && isDoubtfulColon cs then none
    else if endsPlain inFlow c cs then
      some ⟨String.ofList acc.reverse, ⟨c :: cs, line, column⟩, gap.isBroken⟩
    else plainText? inFlow floor (c :: (gap.folded ++ acc)) .none line (column + 1) cs

/-! ### Quoted scalars -/

/-- A scalar between single quotes, after the first one. -/
def singleQuoted? (acc : List Char) (gap : Gap) (line column : Nat) : List Char → Option ScalarText
  | [] => none
  | c :: cs =>
    if isSpace c then singleQuoted? acc (gap.addSpace c) line (column + 1) cs
    else if isBreak c then singleQuoted? acc (gap.addBreak c) (line + 1) 0 cs
    else if column = 0 && isMark (c :: cs) then none
    else if c = '\'' then
      match cs with
      | '\'' :: cs => singleQuoted? ('\'' :: (gap.folded ++ acc)) .none line (column + 2) cs
      | cs =>
        some ⟨String.ofList (gap.folded ++ acc).reverse, ⟨cs, line, column + 1⟩, false⟩
    else singleQuoted? (c :: (gap.folded ++ acc)) .none line (column + 1) cs

/-- The character of an escape of one letter. -/
def escaped? : Char → Option Char
  | '0' => some '\x00'
  | 'a' => some '\x07'
  | 'b' => some '\x08'
  | 't' => some '\t'
  | '\t' => some '\t'
  | 'n' => some '\n'
  | 'v' => some '\x0b'
  | 'f' => some '\x0c'
  | 'r' => some '\r'
  | 'e' => some '\x1b'
  | ' ' => some ' '
  | '"' => some '"'
  | '/' => some '/'
  | '\\' => some '\\'
  | 'N' => some '\x85'
  | '_' => some '\xa0'
  | 'L' => some '\u2028'
  | 'P' => some '\u2029'
  | _ => none

/-- The number of hexadecimal digits after the letter of an escape. -/
def escapeLength? : Char → Option Nat
  | 'x' => some 2
  | 'u' => some 4
  | 'U' => some 8
  | _ => none

/-- What the next character of a double-quoted scalar belongs to. -/
inductive QuoteState where
  | text
  | escape
  /-- A number of digits more of the code of a character. -/
  | code (missing : Nat) (value : Nat)

/-- A scalar between double quotes, after the first one. -/
def doubleQuoted? (state : QuoteState) (acc : List Char) (gap : Gap) (line column : Nat) :
    List Char → Option ScalarText
  | [] => none
  | c :: cs =>
    match state with
    | .escape =>
      if isBreak c then doubleQuoted? .text acc (.lines none []) (line + 1) 0 cs
      else
        match escaped? c, escapeLength? c with
        | some e, _ => doubleQuoted? .text (e :: acc) .none line (column + 1) cs
        | none, some n => doubleQuoted? (.code n 0) acc .none line (column + 1) cs
        | none, none => none
    | .code missing value =>
      match Text.hexDigit? c with
      | none => none
      | some d =>
        if missing ≤ 1 then
          match Text.charOfCode? (value * 16 + d) with
          | some e => doubleQuoted? .text (e :: acc) .none line (column + 1) cs
          | none => none
        else doubleQuoted? (.code (missing - 1) (value * 16 + d)) acc .none line (column + 1) cs
    | .text =>
      if isSpace c then doubleQuoted? .text acc (gap.addSpace c) line (column + 1) cs
      else if isBreak c then doubleQuoted? .text acc (gap.addBreak c) (line + 1) 0 cs
      else if column = 0 && isMark (c :: cs) then none
      else if c = '"' then
        some ⟨String.ofList (gap.folded ++ acc).reverse, ⟨cs, line, column + 1⟩, false⟩
      else if c = '\\' then doubleQuoted? .escape (gap.folded ++ acc) .none line (column + 1) cs
      else doubleQuoted? .text (c :: (gap.folded ++ acc)) .none line (column + 1) cs

/-! ### Blocks -/

/-- Which line ends stay at the end of a block. -/
inductive Chomping where
  | strip
  | clip
  | keep

/-- The sign of a chomping. -/
def Chomping.ofChar? : Char → Option Chomping
  | '-' => some .strip
  | '+' => some .keep
  | _ => none

/-- A digit of an indentation. -/
def indentation? (c : Char) : Option Nat :=
  if '1' ≤ c && c ≤ '9' then some (c.toNat - '0'.toNat) else none

/-- The signs after the letter of a block, in either order: chomping and indentation. -/
def blockSigns (cs : List Char) : Chomping × Option Nat × List Char :=
  match cs with
  | [] => (.clip, none, [])
  | c :: rest =>
    match Chomping.ofChar? c, indentation? c, rest with
    | some chomping, _, d :: rest' =>
      match indentation? d with
      | some n => (chomping, some n, rest')
      | none => (chomping, none, rest)
    | some chomping, _, [] => (chomping, none, [])
    | none, some n, d :: rest' =>
      match Chomping.ofChar? d with
      | some chomping => (chomping, some n, rest')
      | none => (.clip, some n, rest)
    | none, some n, [] => (.clip, some n, [])
    | none, none, _ => (.clip, none, cs)

/-- Goes past the rest of a line that holds at most a comment, up to its end. -/
def skipComment? (cs : List Char) : Option (List Char) :=
  match cs.dropWhile isSpace with
  | [] => some []
  | c :: rest =>
    if c = '#' then some (rest.dropWhile fun c => !isBreak c)
    else if isBreak c then some (c :: rest)
    else none

/-- The empty lines before a block whose indentation is not given: their ends in reverse, the widest
column of spaces, and the place of the first other line. -/
def leadingLines? (breaks : List Char) (widest line column : Nat) :
    List Char → Option (List Char × Nat × Place)
  | [] => some (breaks, max widest column, ⟨[], line, column⟩)
  | c :: cs =>
    if c = ' ' then leadingLines? breaks widest line (column + 1) cs
    else if c = '\t' then none
    else if isBreak c then leadingLines? (c :: breaks) (max widest column) (line + 1) 0 cs
    else some (breaks, max widest column, ⟨c :: cs, line, column⟩)

/-- What has been read of a block; lists are in reverse. -/
structure Block where
  text : List Char
  /-- The end of the last line that is not empty. -/
  ending : Option Char
  /-- The ends of the empty lines after it. -/
  empty : List Char
  /-- Whether the last line that is not empty starts with a space. -/
  indented : Bool

namespace Block

/-- The block with the first character of its next line. -/
def startLine (b : Block) (literal : Bool) (c : Char) : Block where
  text :=
    let joint :=
      if !literal && b.ending = some '\n' && !b.indented && !isSpace c then
        if b.empty.isEmpty then [' '] else []
      else b.ending.toList
    c :: (b.empty ++ joint ++ b.text)
  ending := none
  empty := []
  indented := isSpace c

/-- The text of a finished block. -/
def chomp (b : Block) : Chomping → String
  | .strip => String.ofList b.text.reverse
  | .clip => String.ofList (b.ending.toList ++ b.text).reverse
  | .keep => String.ofList (b.empty ++ b.ending.toList ++ b.text).reverse

end Block

/-- Reads the lines of a block that are indented by `indent` columns. -/
def blockLines? (literal : Bool) (indent : Nat) (b : Block) (inLine : Bool) (line column : Nat) :
    List Char → Option (Block × Place)
  | [] => some (b, ⟨[], line, column⟩)
  | c :: cs =>
    if inLine then
      if isBreak c then
        blockLines? literal indent { b with ending := some c } false (line + 1) 0 cs
      else blockLines? literal indent { b with text := c :: b.text } true line (column + 1) cs
    else if isBreak c then
      blockLines? literal indent { b with empty := c :: b.empty } false (line + 1) 0 cs
    else if column < indent && c = ' ' then
      blockLines? literal indent b false line (column + 1) cs
    else if column < indent && c = '\t' then none
    else if column = indent then
      blockLines? literal indent (b.startLine literal c) true line (column + 1) cs
    else some (b, ⟨c :: cs, line, column⟩)

/-- A block, after its letter, in a collection whose parts start at the column `floor` at least; an
indentation that is given counts from the column before that one. -/
def blockText? (literal : Bool) (floor : Nat) (p : Place) : Option ScalarText := do
  let (chomping, indentation, rest) := blockSigns p.rest
  let rest ← skipComment? rest
  let (line, rest) :=
    match rest with
    | [] => (p.line, [])
    | _ :: cs => (p.line + 1, cs)
  let (breaks, indent, place) ←
    match indentation with
    | some n => pure ([], floor - 1 + n, (⟨rest, line, 0⟩ : Place))
    | none => do
      let (breaks, widest, place) ← leadingLines? [] 0 line 0 rest
      pure (breaks, max 1 (max widest floor), place)
  let (b, place) ←
    blockLines? literal indent ⟨[], none, breaks, false⟩ false place.line place.column place.rest
  return ⟨b.chomp chomping, place, true⟩

end Rowflow.Yaml.Syntax
