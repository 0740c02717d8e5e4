/-!
# Characters of a YAML text

Which characters a text may hold, which of them separate words and lines, and the place in a text up
to which it has been read. Every way of ending a line except the two Unicode separators is made a
line feed before reading starts.
-/

namespace Rowflow.Yaml.Syntax

/-- Whether a text may hold a character. -/
def isPermitted (c : Char) : Bool :=
  let n := c.toNat
  n == 9 || n == 0xA || n == 0xD || (0x20 ≤ n && n ≤ 0x7E) || n == 0x85 ||
    (0xA0 ≤ n && n ≤ 0xFFFD) || 0x10000 ≤ n

/-- Whether a character separates words within a line. -/
def isSpace (c : Char) : Bool := c = ' ' || c = '\t'

/-- Whether a character ends a line. -/
def isBreak (c : Char) : Bool := c = '\n' || c = '\u2028' || c = '\u2029'

/-- Whether a character may stand in the name of an anchor. -/
def isWord (c : Char) : Bool := c.isAlphanum || c = '_' || c = '-'

/-- Whether a word ends here: at a space, at the end of a line or at the end of the text. -/
def atGap : List Char → Bool
  | [] => true
  | c :: _ => isSpace c || isBreak c

/-- Whether the text goes on with the mark of the start or of the end of a document. -/
def isMark : List Char → Bool
  | '-' :: '-' :: '-' :: cs => atGap cs
  | '.' :: '.' :: '.' :: cs => atGap cs
  | _ => false

/-- Appends a text in reverse, its line ends made line feeds. -/
def unifyBreaks (acc : List Char) : List Char → List Char
  | [] => acc.reverse
  | '\r' :: '\n' :: cs => unifyBreaks ('\n' :: acc) cs
  | c :: cs => unifyBreaks ((if c = '\r' || c = '\x85' then '\n' else c) :: acc) cs

/-- A place in a text. -/
structure Place where
  /-- The text from here on. -/
  rest : List Char
  line : Nat
  column : Nat

/-- The place a number of characters further on the same line. -/
def Place.skip (p : Place) (n : Nat) : Place := ⟨p.rest.drop n, p.line, p.column + n⟩

/-- The place where reading starts, if the text holds permitted characters only. A byte order mark
at the front is passed over and takes up a column. -/
def Place.start? (s : String) : Option Place :=
  if s.toList.all isPermitted then
    match unifyBreaks [] s.toList with
    | '\uFEFF' :: cs => some ⟨cs, 0, 1⟩
    | cs => some ⟨cs, 0, 0⟩
  else none

end Rowflow.Yaml.Syntax
