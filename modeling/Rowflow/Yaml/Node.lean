import Rowflow.Yaml.Syntax.Tokens

/-!
# Nodes of a YAML document

A document is a tree of scalars, sequences and mappings whose tags have been resolved. An anchor
gives a node a number, by which aliases point back to it; a name that is given again gets a new
number, and of two nodes with one number the later counts.
-/

namespace Rowflow.Yaml

open Syntax

/-- A node. -/
inductive Node where
  | scalar (anchor : Option Nat) (tag : Option String) (style : Style) (text : String)
  | sequence (anchor : Option Nat) (tag : Option String) (items : List Node)
  | mapping (anchor : Option Nat) (tag : Option String) (members : List (Node × Node))
  | alias (target : Nat)

namespace Node

/-- The scalar that stands where there is no text at all. -/
def absent : Node := .scalar none none .plain ""

/-! ### Reading state -/

/-- What remains to be read, and the numbers of the anchors' names. -/
structure Reader where
  tokens : List Token
  names : List (String × Nat) := []

/-- A step of reading. -/
abbrev Step := StateT Reader Option

/-- The next token, which stays. -/
def peek : Step (Option Token) := do return (← get).tokens.head?

/-- Goes past the next token. -/
def skip : Step Unit := modify fun r => { r with tokens := r.tokens.tail }

/-- Goes past the next token if it is the given one. -/
def accept (t : Token) : Step Bool := do
  if (← peek) = some t then
    skip
    return true
  else return false

/-- Whether the next token is one of the given ones. -/
def isNext (ts : List Token) : Step Bool := do
  match ← peek with
  | some t => return ts.contains t
  | none => return false

/-- The number of a new anchor. -/
def nameAnchor (name : String) : Step Nat := do
  let r ← get
  let n := r.names.length
  set { r with names := (name, n) :: r.names.filter (·.1 ≠ name) }
  return n

/-! ### Properties of nodes -/

/-- The meaning of a tag, given what the handles stand for. -/
def resolveTag? (handles : List (String × String)) (handle rest : String) : Option String :=
  if handle = "" then some rest else (handles.lookup handle).map (· ++ rest)

/-- The anchor that comes next, if there is one. -/
def readAnchor : Step (Option Nat) := do
  match ← peek with
  | some (.anchor name) =>
    skip
    some <$> nameAnchor name
  | _ => return none

/-- The tag that comes next, if there is one. -/
def readTag (handles : List (String × String)) : Step (Option String) := do
  match ← peek with
  | some (.tag handle rest) =>
    skip
    some <$> resolveTag? handles handle rest
  | _ => return none

/-- The anchor and the tag of a node, which stand in either order. -/
def readProperties (handles : List (String × String)) : Step (Option Nat × Option String) := do
  match ← readAnchor with
  | some n => return (some n, ← readTag handles)
  | none =>
    let tag ← readTag handles
    if tag.isSome then return (← readAnchor, tag) else return (none, none)

/-! ### Nodes

The first argument bounds the number of tokens that are read one after the other. -/

/-- Where a node stands, which tells the collections that may start there. -/
inductive Position where
  /-- Between brackets. -/
  | flow
  /-- Outside of them. -/
  | block
  /-- Outside of them, as a part of a mapping, where a sequence needs no indentation. -/
  | part
  deriving DecidableEq

variable (handles : List (String × String))

mutual

/-- A node. -/
def read (fuel : Nat) (position : Position) : Step Node :=
  match fuel with
  | 0 => failure
  | fuel + 1 => do
    match ← peek with
    | some (.alias name) =>
      skip
      return .alias (← (← get).names.lookup name)
    | _ =>
      let (anchor, tag) ← readProperties handles
      match ← peek with
      | some (.scalar style text) =>
        skip
        return .scalar anchor (tag.filter (· ≠ "!")) style text
      | some .flowSequence =>
        skip
        return .sequence anchor tag (← readFlowItems fuel true [])
      | some .flowMapping =>
        skip
        return .mapping anchor tag (← readFlowMembers fuel true [])
      | some .blockSequence =>
        if position = .flow then failure
        skip
        return .sequence anchor tag (← readBlockItems fuel [])
      | some .blockMapping =>
        if position = .flow then failure
        skip
        return .mapping anchor tag (← readBlockMembers fuel [])
      | some .blockEntry =>
        if position = .part then return .sequence anchor tag (← readPlainItems fuel [])
        else if anchor.isSome || tag.isSome then return .scalar anchor tag .plain ""
        else failure
      | _ =>
        if anchor.isSome || tag.isSome then return .scalar anchor tag .plain "" else failure

/-- A node, or nothing where one of the given tokens comes next. -/
def readUnless (fuel : Nat) (position : Position) (ends : List Token) : Step Node :=
  match fuel with
  | 0 => failure
  | fuel + 1 => do
    if ← isNext ends then return absent else read fuel position

/-- The items of an indented sequence, from its first dash; those before are given in reverse. -/
def readBlockItems (fuel : Nat) (acc : List Node) : Step (List Node) :=
  match fuel with
  | 0 => failure
  | fuel + 1 => do
    match ← peek with
    | some .blockEntry =>
      skip
      let item ← readUnless fuel .block [.blockEntry, .blockEnd]
      readBlockItems fuel (item :: acc)
    | some .blockEnd =>
      skip
      return acc.reverse
    | _ => failure

/-- The items of a sequence that is not indented. -/
def readPlainItems (fuel : Nat) (acc : List Node) : Step (List Node) :=
  match fuel with
  | 0 => failure
  | fuel + 1 => do
    if ← accept .blockEntry then
      let item ← readUnless fuel .block [.blockEntry, .key, .value, .blockEnd]
      readPlainItems fuel (item :: acc)
    else return acc.reverse

/-- The members of a mapping outside brackets. -/
def readBlockMembers (fuel : Nat) (acc : List (Node × Node)) : Step (List (Node × Node)) :=
  match fuel with
  | 0 => failure
  | fuel + 1 => do
    match ← peek with
    | some .key =>
      skip
      let key ← readUnless fuel .part [.key, .value, .blockEnd]
      let value ←
        if ← accept .value then readUnless fuel .part [.key, .value, .blockEnd] else pure absent
      readBlockMembers fuel ((key, value) :: acc)
    | some .blockEnd =>
      skip
      return acc.reverse
    | _ => failure

/-- The items of a sequence between brackets. -/
def readFlowItems (fuel : Nat) (first : Bool) (acc : List Node) : Step (List Node) :=
  match fuel with
  | 0 => failure
  | fuel + 1 => do
    if ← accept .flowSequenceEnd then return acc.reverse
    if !first then
      if !(← accept .flowEntry) then failure
    if ← accept .flowSequenceEnd then return acc.reverse
    if ← accept .key then
      let pair ← readFlowPair fuel
      readFlowItems fuel false (.mapping none none [pair] :: acc)
    else
      let item ← read fuel .flow
      readFlowItems fuel false (item :: acc)

/-- A single member that stands for a mapping in a sequence between brackets. Where its key is
missing, the token in its place is passed over. -/
def readFlowPair (fuel : Nat) : Step (Node × Node) :=
  match fuel with
  | 0 => failure
  | fuel + 1 => do
    let key ←
      if ← isNext [.value, .flowEntry, .flowSequenceEnd] then do
        skip
        pure absent
      else read fuel .flow
    let value ←
      if ← accept .value then readUnless fuel .flow [.flowEntry, .flowSequenceEnd] else pure absent
    return (key, value)

/-- The members of a mapping between brackets. -/
def readFlowMembers (fuel : Nat) (first : Bool) (acc : List (Node × Node)) :
    Step (List (Node × Node)) :=
  match fuel with
  | 0 => failure
  | fuel + 1 => do
    if ← accept .flowMappingEnd then return acc.reverse
    if !first then
      if !(← accept .flowEntry) then failure
    if ← accept .flowMappingEnd then return acc.reverse
    if ← accept .key then
      let key ← readUnless fuel .flow [.value, .flowEntry, .flowMappingEnd]
      let value ←
        if ← accept .value then readUnless fuel .flow [.flowEntry, .flowMappingEnd] else pure absent
      readFlowMembers fuel false ((key, value) :: acc)
    else
      let key ← read fuel .flow
      readFlowMembers fuel false ((key, absent) :: acc)

end

/-! ### Documents -/

/-- The handles that every document has, behind those that it declares. -/
def allHandles (declared : List (String × String)) : List (String × String) :=
  declared ++ [("!", "!"), ("!!", "tag:yaml.org,2002:")]

/-- The handles that the directives at the front declare, and what follows them; there is at most
one version, `1.1` or `1.2`, and no handle is declared twice. -/
def readDirectives? (versioned : Bool) (handles : List (String × String)) :
    List Token → Option (List (String × String) × List Token)
  | .version major minor :: ts =>
    if versioned || major ≠ 1 || (minor ≠ 1 && minor ≠ 2) then none
    else readDirectives? true handles ts
  | .handle handle meaning :: ts =>
    if (handles.lookup handle).isSome then none
    else readDirectives? versioned ((handle, meaning) :: handles) ts
  | ts => some (handles, ts)

/-- Whether a document ends without content before the given tokens. -/
def isContentMissing : List Token → Bool
  | [] | .version .. :: _ | .handle .. :: _ | .documentStart :: _ | .documentEnd :: _ => true
  | _ => false

/-- The document that a list of tokens makes: a single one, or none at all. -/
def ofTokens? (tokens : List Token) : Option Node := do
  if tokens.isEmpty then return absent
  let (declared, content) ← readDirectives? false [] tokens
  let isDirected := content.length < tokens.length
  let (isStarted, content) :=
    match content with
    | .documentStart :: content => (true, content)
    | content => (false, content)
  if isDirected && !isStarted then none
  let (root, rest) ←
    if isStarted && isContentMissing content then pure (absent, { tokens := content })
    else (read (allHandles declared) (2 * content.length + 4) .block).run { tokens := content }
  if rest.tokens.all (· = .documentEnd) then return root else none

/-- The document that a text holds. -/
def parse? (s : String) : Option Node := tokens? s >>= ofTokens?

/-! ### What aliases point to -/

/-- Puts an entry in front, if there is a number for it. -/
def addEntry (n : Node) : Option Nat → List (Nat × Node) → List (Nat × Node)
  | some k, acc => (k, n) :: acc
  | none, acc => acc

mutual

/-- The nodes with an anchor, the last one first, before those that are given. -/
def anchored (acc : List (Nat × Node)) : Node → List (Nat × Node)
  | .scalar anchor tag style text => addEntry (.scalar anchor tag style text) anchor acc
  | .sequence anchor tag items =>
    anchoredItems (addEntry (.sequence anchor tag items) anchor acc) items
  | .mapping anchor tag members =>
    anchoredMembers (addEntry (.mapping anchor tag members) anchor acc) members
  | .alias _ => acc

/-- The same for the items of a sequence. -/
def anchoredItems (acc : List (Nat × Node)) : List Node → List (Nat × Node)
  | [] => acc
  | n :: rest => anchoredItems (anchored acc n) rest

/-- The same for the members of a mapping. -/
def anchoredMembers (acc : List (Nat × Node)) : List (Node × Node) → List (Nat × Node)
  | [] => acc
  | (k, v) :: rest => anchoredMembers (anchored (anchored acc k) v) rest

end

end Node

end Rowflow.Yaml
