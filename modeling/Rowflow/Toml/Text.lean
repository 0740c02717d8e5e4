import Rowflow.Text.Hexadecimal

/-!
# Strings and keys of TOML

Strings stand between single or double quotes, and between three of them if they go over several
lines; escapes count between double quotes only. A key is bare or a string of one line; a dotted key
is a path of keys. Every reader gives what it has read and the rest of the text, in which lines end
with a line feed.
-/

namespace Rowflow.Toml

/-- A reading: what has been read, and the rest of the text. -/
abbrev Read (α : Type) := Option (α × List Char)

/-! ### Characters -/

/-- Whether a character is a space within a line. -/
def isSpace (c : Char) : Bool := c = ' ' || c = '\t'

/-- Whether a comment or a string may hold a character. -/
def isText (c : Char) : Bool := c = '\t' || (' ' ≤ c && c ≠ '\x7f')

/-- Whether a bare key may hold a character. -/
def isBare (c : Char) : Bool := c.isAlphanum || c = '_' || c = '-'

/-- The text behind the spaces at its front. -/
def skipSpaces (cs : List Char) : List Char := cs.dropWhile isSpace

/-- The text behind the rest of a line, which holds at most a comment; the end of the text ends a
line too. -/
def skipLine? (cs : List Char) : Option (List Char) :=
  let afterComment :=
    match skipSpaces cs with
    | '#' :: rest => rest.dropWhile isText
    | rest => rest
  match afterComment with
  | [] => some []
  | '\n' :: rest => some rest
  | _ => none

/-! ### Escapes -/

/-- The character of an escape of one letter. -/
def escaped? : Char → Option Char
  | 'b' => some '\x08'
  | 't' => some '\t'
  | 'n' => some '\n'
  | 'f' => some '\x0c'
  | 'r' => some '\r'
  | '"' => some '"'
  | '\\' => some '\\'
  | _ => none

/-- The number of hexadecimal digits after the letter of an escape. -/
def escapeLength? : Char → Option Nat
  | 'u' => some 4
  | 'U' => some 8
  | _ => none

/-- What the next character of a string between double quotes belongs to. -/
inductive StringState where
  | text
  | escape
  /-- A number of digits more of the code of a character. -/
  | code (missing : Nat) (value : Nat)
  /-- The spaces after a backslash up to the end of the line, or after that end. -/
  | folding (ended : Bool)

/-! ### Strings of one line -/

/-- What an escape makes of its next character: the next state, and a character if it is complete.
-/
def escapeStep? (state : StringState) (c : Char) : Option (StringState × Option Char) :=
  match state with
  | .code missing value => do
    let d ← Text.hexDigit? c
    if missing ≤ 1 then return (.text, some (← Text.charOfCode? (value * 16 + d)))
    else return (.code (missing - 1) (value * 16 + d), none)
  | _ =>
    match escaped? c with
    | some e => some (.text, some e)
    | none => (escapeLength? c).map fun n => (.code n 0, none)

/-- A string between double quotes, after the first one. -/
def basicString? (state : StringState) (acc : List Char) : List Char → Read String
  | [] => none
  | c :: cs =>
    match state with
    | .text =>
      if c = '"' then some (String.ofList acc.reverse, cs)
      else if c = '\\' then basicString? .escape acc cs
      else if isText c then basicString? .text (c :: acc) cs
      else none
    | state =>
      match escapeStep? state c with
      | some (state, e) => basicString? state (e.toList ++ acc) cs
      | none => none

/-- A string between single quotes, after the first one. -/
def literalString? (acc : List Char) : List Char → Read String
  | [] => none
  | c :: cs =>
    if c = '\'' then some (String.ofList acc.reverse, cs)
    else if isText c then literalString? (c :: acc) cs
    else none

/-! ### Strings of several lines -/

/-- The quotes at the end of a string of several lines, given those that have been read: three end
the string and at most two more before them belong to it. -/
def closingQuotes? (quote : Char) (acc : List Char) (count : Nat) (rest : List Char) :
    Read String :=
  if count ≤ 5 then
    some (String.ofList (List.replicate (count - 3) quote ++ acc).reverse, rest)
  else none

/-- The same in a string of several lines, where a backslash may end a line. -/
def longEscapeStep? : StringState → Char → Option (StringState × Option Char)
  | .escape, c =>
    if isSpace c || c = '\n' then some (.folding (c = '\n'), none) else escapeStep? .escape c
  | state, c => escapeStep? state c

/-- A string between three double quotes, after the first ones; `quotes` have been read last. -/
def longBasicString? (state : StringState) (acc : List Char) (quotes : Nat) :
    List Char → Read String
  | [] => if 3 ≤ quotes then closingQuotes? '"' acc quotes [] else none
  | c :: cs =>
    match state with
    | .text =>
      if c = '"' then longBasicString? .text acc (quotes + 1) cs
      else if 3 ≤ quotes then closingQuotes? '"' acc quotes (c :: cs)
      else
        let acc := List.replicate quotes '"' ++ acc
        if c = '\\' then longBasicString? .escape acc 0 cs
        else if c = '\n' || isText c then longBasicString? .text (c :: acc) 0 cs
        else none
    | .folding ended =>
      if isSpace c then longBasicString? (.folding ended) acc 0 cs
      else if c = '\n' then longBasicString? (.folding true) acc 0 cs
      else if !ended then none
      else if c = '"' then longBasicString? .text acc 1 cs
      else if c = '\\' then longBasicString? .escape acc 0 cs
      else if isText c then longBasicString? .text (c :: acc) 0 cs
      else none
    | state =>
      match longEscapeStep? state c with
      | some (state, e) => longBasicString? state (e.toList ++ acc) 0 cs
      | none => none

/-- A string between three single quotes, after the first ones; `quotes` have been read last. -/
def longLiteralString? (acc : List Char) (quotes : Nat) : List Char → Read String
  | [] => if 3 ≤ quotes then closingQuotes? '\'' acc quotes [] else none
  | c :: cs =>
    if c = '\'' then longLiteralString? acc (quotes + 1) cs
    else if 3 ≤ quotes then closingQuotes? '\'' acc quotes (c :: cs)
    else if c = '\n' || isText c then
      longLiteralString? (c :: (List.replicate quotes '\'' ++ acc)) 0 cs
    else none

/-- The text without a line end at its front. -/
def dropBreak : List Char → List Char
  | '\n' :: cs => cs
  | cs => cs

/-- A string. -/
def string? : List Char → Read String
  | '"' :: '"' :: '"' :: cs => longBasicString? .text [] 0 (dropBreak cs)
  | '"' :: cs => basicString? .text [] cs
  | '\'' :: '\'' :: '\'' :: cs => longLiteralString? [] 0 (dropBreak cs)
  | '\'' :: cs => literalString? [] cs
  | _ => none

/-! ### Keys -/

/-- A single key. -/
def simpleKey? : List Char → Read String
  | '"' :: cs => basicString? .text [] cs
  | '\'' :: cs => literalString? [] cs
  | cs =>
    let name := cs.takeWhile isBare
    if name.isEmpty then none else some (String.ofList name, cs.drop name.length)

/-- A path of keys with spaces around them, after those that are given in reverse; the first
argument bounds their number. -/
def path? : Nat → List String → List Char → Read (List String)
  | 0, _, _ => none
  | left + 1, acc, cs =>
    match simpleKey? (skipSpaces cs) with
    | none => none
    | some (key, rest) =>
      match skipSpaces rest with
      | '.' :: rest => path? left (key :: acc) rest
      | rest => some ((key :: acc).reverse, rest)

/-- How many keys a path may have, and how many arrays and tables may nest. -/
def depthLimit : Nat := 79

/-- A dotted key: the path before its last part, and that part. -/
def key? (cs : List Char) : Read (List String × String) :=
  match path? depthLimit [] cs with
  | some (path, rest) => path.getLast?.map fun key => ((path.dropLast, key), rest)
  | none => none

end Rowflow.Toml
