import Rowflow.Yaml.Syntax.ScalarText
import Rowflow.Yaml.Syntax.Token

/-!
# The tokens of a text

`tokens?` splits a text into tokens. What makes this more than cutting: a collection outside
brackets is told by its column, and that something is the key of a mapping shows only at the colon
behind it. So the place of the last thing that may turn out to be a key is remembered, and the
tokens before a key are put in when its colon comes. Such a key lies on one line and is at most 1024
characters long.
-/

namespace Rowflow.Yaml.Syntax

/-- A place at which a key may have started. -/
structure KeyStart where
  /-- The number of tokens before it. -/
  index : Nat
  line : Nat
  column : Nat
  /-- Whether nothing but a key may stand there. -/
  required : Bool

/-- How far a text has been split. -/
structure Splitting where
  place : Place
  tokens : Array Token := #[]
  /-- The columns of the open collections outside brackets, the innermost first. -/
  columns : List Nat := []
  /-- Where a key may have started, within the innermost brackets. -/
  key : Option KeyStart := none
  /-- The same for the brackets around them, the innermost first. -/
  outerKeys : List (Option KeyStart) := []
  /-- Whether a key may start here. -/
  keyAllowed : Bool := true

namespace Splitting

/-- Whether the place is between brackets. -/
def inFlow (s : Splitting) : Bool := !s.outerKeys.isEmpty

/-- The least column of what belongs to the innermost open collection. -/
def floor (s : Splitting) : Nat :=
  match s.columns with
  | [] => 0
  | c :: _ => c + 1

/-- Appends a token and goes on at a place. -/
def push (s : Splitting) (t : Token) (place : Place) : Splitting :=
  { s with tokens := s.tokens.push t, place := place }

/-- Appends a mark of one character. -/
def mark (s : Splitting) (t : Token) : Splitting := s.push t (s.place.skip 1)

/-! ### Columns -/

/-- Ends the collections that start behind a column; without one, all of them. -/
def closeBlocks (s : Splitting) (column : Option Nat) : Splitting :=
  if s.inFlow then s
  else
    let isInner (c : Nat) : Bool :=
      match column with
      | some k => k < c
      | none => true
    let (inner, outer) := s.columns.span isInner
    { s with
      tokens := inner.foldl (fun ts _ => ts.push .blockEnd) s.tokens
      columns := outer }

/-- Starts a collection at a column, unless the innermost one starts there or further on. -/
def openBlock (s : Splitting) (column index : Nat) (t : Token) : Splitting :=
  if s.inFlow || column < s.floor then s
  else { s with tokens := s.tokens.insertIdxIfInBounds index t, columns := column :: s.columns }

/-! ### Keys -/

/-- Forgets where a key may have started; a required one must not be missed. -/
def dropKey (s : Splitting) : Option Splitting :=
  match s.key with
  | some k => if k.required then none else some { s with key := none }
  | none => some s

/-- Remembers that a key may start here. -/
def saveKey (s : Splitting) : Option Splitting :=
  if s.keyAllowed then do
    let required := !s.inFlow && s.columns.head? = some s.place.column
    let s ← s.dropKey
    return { s with key := some ⟨s.tokens.size, s.place.line, s.place.column, required⟩ }
  else some s

/-- Allows a key to start next, or forbids it. -/
def allowKey (s : Splitting) (allowed : Bool) : Splitting := { s with keyAllowed := allowed }

/-- The key that a colon here ends, if there is one; a required one must not be missed. -/
def finishedKey? (s : Splitting) : Option (Option KeyStart) :=
  match s.key with
  | none => some none
  | some k =>
    if k.line = s.place.line && s.place.column ≤ k.column + 1024 then some (some k)
    else if k.required then none
    else some none

/-! ### Marks -/

/-- A mark that belongs to a collection outside brackets wherever a key may start. -/
def entryMark (s : Splitting) (collection t : Token) (keyInFlow : Bool) : Option Splitting := do
  if !s.inFlow && !s.keyAllowed then none
  else
    let s ← (s.openBlock s.place.column s.tokens.size collection).dropKey
    return (s.mark t).allowKey (keyInFlow || !s.inFlow)

/-- The colon before a value. -/
def valueMark (s : Splitting) : Option Splitting := do
  match ← s.finishedKey? with
  | some k =>
    let s := { s with key := none, tokens := s.tokens.insertIdxIfInBounds k.index .key }
    return ((s.openBlock k.column k.index .blockMapping).mark .value).allowKey false
  | none =>
    if !s.inFlow && !s.keyAllowed then none
    else
      let s := s.openBlock s.place.column s.tokens.size .blockMapping
      return (s.mark .value).allowKey (!s.inFlow)

/-- An opening bracket. -/
def openFlow (s : Splitting) (t : Token) : Option Splitting := do
  let ⟨place, tokens, columns, key, outerKeys, _⟩ ← s.saveKey
  return ⟨place.skip 1, tokens.push t, columns, none, key :: outerKeys, true⟩

/-- A closing bracket. -/
def closeFlow (s : Splitting) (t : Token) : Option Splitting := do
  let s ← s.dropKey
  match s.outerKeys with
  | [] => none
  | key :: outer => return { s.mark t with key := key, outerKeys := outer, keyAllowed := false }

/-- What belongs to no collection: directives and the marks of documents. -/
def betweenDocuments (s : Splitting) : Option Splitting :=
  ((s.closeBlocks none).dropKey).map (·.allowKey false)

/-! ### Words -/

/-- A word that may start a key. -/
def word (s : Splitting) (t : Token) (place : Place) : Option Splitting := do
  return ((← s.saveKey).push t place).allowKey false

/-- A scalar that may be a key. -/
def scalar (s : Splitting) (style : Style) (t : ScalarText) : Option Splitting := do
  return (← s.word (.scalar style t.text) t.place).allowKey t.brokeLine

/-- A scalar of several lines. -/
def block (s : Splitting) (literal : Bool) : Option Splitting := do
  let s ← s.dropKey
  let t ← blockText? literal s.floor (s.place.skip 1)
  return (s.push (.scalar (if literal then .literal else .folded) t.text) t.place).allowKey true

/-- A tag; a space must follow, or a comma between brackets. -/
def tagWord (s : Splitting) : Option Splitting := do
  let (t, place) ← tag? s.place
  if atGap place.rest || (s.inFlow && place.rest.head? = some ',') then s.word t place else none

/-- A directive up to the end of its line. -/
def directive (s : Splitting) : Option Splitting := do
  let s ← s.betweenDocuments
  let (t, rest) ← directive? (s.place.rest.drop 1)
  let rest ← skipComment? rest
  return s.push t ⟨rest.drop 1, s.place.line + 1, 0⟩

/-- Whether a bare scalar may start with a character, given what follows. -/
def startsPlain (inFlow : Bool) (c : Char) (cs : List Char) : Bool :=
  if c = '-' then
    match cs with
    | d :: _ => !isSpace d
    | [] => true
  else if c = '?' || c = ':' then !inFlow && !atGap cs
  else
    !isSpace c &&
      !(['#', ',', '[', ']', '\x7b', '\x7d', '&', '*', '!', '|', '>', '\'', '"', '%', '@',
        '\x60'].contains c)

/-! ### Splitting -/

/-- Goes past spaces, comments and line ends. Tabs count as spaces where no key may start. -/
def skipGap (inFlow inComment keyAllowed : Bool) (line column : Nat) :
    List Char → Place × Bool
  | [] => (⟨[], line, column⟩, keyAllowed)
  | c :: cs =>
    if isBreak c then skipGap inFlow false (keyAllowed || !inFlow) (line + 1) 0 cs
    else if inComment || c = ' ' || (c = '\t' && (inFlow || !keyAllowed)) then
      skipGap inFlow inComment keyAllowed line (column + 1) cs
    else if c = '#' then skipGap inFlow true keyAllowed line (column + 1) cs
    else (⟨c :: cs, line, column⟩, keyAllowed)

/-- The next token, which starts with the given character. -/
def next (s : Splitting) (c : Char) (cs : List Char) : Option Splitting :=
  if s.place.column = 0 && c = '%' then s.directive
  else if s.place.column = 0 && isMark (c :: cs) then do
    let s ← s.betweenDocuments
    return s.push (if c = '-' then .documentStart else .documentEnd) (s.place.skip 3)
  else if c = '[' then s.openFlow .flowSequence
  else if c = '\x7b' then s.openFlow .flowMapping
  else if c = ']' then s.closeFlow .flowSequenceEnd
  else if c = '\x7d' then s.closeFlow .flowMappingEnd
  else if c = ',' then do return ((← s.dropKey).mark .flowEntry).allowKey true
  else if c = '-' && atGap cs then s.entryMark .blockSequence .blockEntry true
  else if c = '?' && (s.inFlow || atGap cs) then s.entryMark .blockMapping .key false
  else if c = ':' && (s.inFlow || atGap cs) then s.valueMark
  else if c = '*' then do
    let (name, place) ← anchorName? s.place
    s.word (.alias name) place
  else if c = '&' then do
    let (name, place) ← anchorName? s.place
    s.word (.anchor name) place
  else if c = '!' then s.tagWord
  else if c = '|' && !s.inFlow then s.block true
  else if c = '>' && !s.inFlow then s.block false
  else if c = '\'' then do
    s.scalar .quoted (← singleQuoted? [] .none s.place.line (s.place.column + 1) cs)
  else if c = '"' then do
    s.scalar .quoted (← doubleQuoted? .text [] .none s.place.line (s.place.column + 1) cs)
  else if startsPlain s.inFlow c cs then do
    s.scalar .plain
      (← plainText? s.inFlow s.floor [] .none s.place.line s.place.column (c :: cs))
  else none

/-- Splits the rest of the text; the first argument bounds the number of tokens. -/
def run : Nat → Splitting → Option (List Token)
  | 0, _ => none
  | fuel + 1, s =>
    let (place, keyAllowed) :=
      skipGap s.inFlow false s.keyAllowed s.place.line s.place.column s.place.rest
    let s := { s with place, keyAllowed }
    match place.rest with
    | [] => s.betweenDocuments.map (·.tokens.toList)
    | c :: cs =>
      match (s.closeBlocks (some place.column)).next c cs with
      | some s => run fuel s
      | none => none

end Splitting

/-- The tokens of a text. -/
def tokens? (s : String) : Option (List Token) := do
  let place ← Place.start? s
  Splitting.run (place.rest.length + 1) { place }

end Rowflow.Yaml.Syntax
