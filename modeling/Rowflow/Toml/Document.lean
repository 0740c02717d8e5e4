import Rowflow.Toml.Draft
import Rowflow.Toml.Number

/-!
# TOML documents

A document is a list of lines: members `key = value`, headers `[table]` and `[[element]]`, and lines
without content. The members behind a header belong to its table.
-/

namespace Rowflow.Toml

/-! ### Values -/

/-- The text behind spaces, line ends and comments, of which one may have been entered already. -/
def skipLines (inComment : Bool) : List Char → Option (List Char)
  | [] => some []
  | c :: cs =>
    if c = '\n' then skipLines false cs
    else if inComment then if isText c then skipLines true cs else none
    else if isSpace c then skipLines false cs
    else if c = '#' then skipLines true cs
    else some (c :: cs)

/-- The two Booleans. -/
def boolean? : List Char → Read Toml
  | 't' :: 'r' :: 'u' :: 'e' :: cs => some (.boolean true, cs)
  | 'f' :: 'a' :: 'l' :: 's' :: 'e' :: cs => some (.boolean false, cs)
  | _ => none

/-- A value that is no collection. -/
def scalar? : List Char → Read Toml
  | [] => none
  | c :: cs =>
    if c = '"' || c = '\'' then (string? (c :: cs)).map fun (s, rest) => (.string s, rest)
    else if c = 't' || c = 'f' then boolean? (c :: cs)
    else
      match datetime? (c :: cs) with
      | some r => some r
      | none => number? (c :: cs)

mutual

/-- A value. The first argument bounds what is read one after the other, the second one how deep
collections may nest. -/
def value? : Nat → Nat → List Char → Read Toml
  | 0, _, _ => none
  | fuel + 1, depth, cs =>
    match depth, cs with
    | depth + 1, '[' :: rest =>
      match skipLines false rest with
      | some (']' :: rest) => some (.array [], rest)
      | some rest => items? fuel depth [] rest
      | none => none
    | depth + 1, '\x7b' :: rest =>
      match skipSpaces rest with
      | '\x7d' :: rest => some (.table [], rest)
      | rest => pairs? fuel depth [] rest
    | 0, '[' :: _ => none
    | 0, '\x7b' :: _ => none
    | _, cs => scalar? cs

/-- The items of an array, from the next one; those before are given in reverse. -/
def items? : Nat → Nat → List Toml → List Char → Read Toml
  | 0, _, _, _ => none
  | fuel + 1, depth, acc, cs =>
    match value? fuel depth cs with
    | none => none
    | some (v, rest) =>
      match skipLines false rest with
      | some (']' :: rest) => some (.array (v :: acc).reverse, rest)
      | some (',' :: rest) =>
        match skipLines false rest with
        | some (']' :: rest) => some (.array (v :: acc).reverse, rest)
        | some rest => items? fuel depth (v :: acc) rest
        | none => none
      | _ => none

/-- The members of a table within a line, from the next one. -/
def pairs? : Nat → Nat → Draft → List Char → Read Toml
  | 0, _, _, _ => none
  | fuel + 1, depth, d, cs =>
    match key? cs with
    | some ((path, key), '=' :: rest) =>
      match value? fuel depth (skipSpaces rest) with
      | none => none
      | some (v, rest) =>
        match d.insert? .header path key v false with
        | none => none
        | some d =>
          match skipSpaces rest with
          | '\x7d' :: rest => some ((Item.table .header d).toToml, rest)
          | ',' :: rest => pairs? fuel depth d rest
          | _ => none
    | _ => none

end

/-! ### Lines -/

/-- The table whose members are being read. -/
structure Current where
  members : Draft := []
  /-- Where it belongs: its path and name, and whether it is an element of an array. Nothing stands
  for the document itself. -/
  header : Option (List String × String × Bool) := none

/-- A document under construction. -/
structure Progress where
  document : Draft := []
  current : Current := {}

namespace Progress

/-- Puts the current table into the document. -/
def finish? (p : Progress) : Option Draft :=
  match p.current.header with
  | none => some p.current.members
  | some (path, key, false) => p.document.finish? path key p.current.members
  | some (path, key, true) => p.document.finishElement? path key p.current.members

/-- Adds a member to the current table. -/
def insert? (p : Progress) (path : List String) (key : String) (v : Toml) : Option Progress := do
  let members ← p.current.members.insert? .header path key v false
  return { p with current := { p.current with members } }

/-- Starts the table of a header. -/
def startTable? (p : Progress) (path : List String) (key : String) : Option Progress := do
  let (document, members) ← (← p.finish?).start? path key
  return ⟨document, ⟨members, some (path, key, false)⟩⟩

/-- Starts an element of an array of tables. -/
def startElement? (p : Progress) (path : List String) (key : String) : Option Progress := do
  return ⟨← (← p.finish?).startElement? path key, ⟨[], some (path, key, true)⟩⟩

/-- Reads a header after its first bracket. -/
def header? (p : Progress) (cs : List Char) : Option (Progress × List Char) :=
  match cs with
  | '[' :: cs =>
    match key? cs with
    | some ((path, key), ']' :: ']' :: rest) => do
      return (← p.startElement? path key, ← skipLine? rest)
    | _ => none
  | cs =>
    match key? cs with
    | some ((path, key), ']' :: rest) => do return (← p.startTable? path key, ← skipLine? rest)
    | _ => none

/-- Reads a member. -/
def member? (fuel : Nat) (p : Progress) (cs : List Char) : Option (Progress × List Char) :=
  match key? cs with
  | some ((path, key), '=' :: rest) => do
    let (v, rest) ← value? fuel depthLimit (skipSpaces rest)
    return (← p.insert? path key v, ← skipLine? rest)
  | _ => none

/-- Reads the rest of the lines; the first argument bounds their number. -/
def lines? : Nat → Progress → List Char → Option Draft
  | 0, _, _ => none
  | fuel + 1, p, cs =>
    match skipLines false cs with
    | none => none
    | some [] => p.finish?
    | some (c :: cs) =>
      match if c = '[' then p.header? cs else p.member? fuel (c :: cs) with
      | some (p, rest) => lines? fuel p rest
      | none => none

end Progress

/-! ### Documents -/

/-- Appends a text in reverse, its line ends made line feeds. -/
def unifyBreaks (acc : List Char) : List Char → List Char
  | [] => acc.reverse
  | '\r' :: '\n' :: cs => unifyBreaks ('\n' :: acc) cs
  | c :: cs => unifyBreaks (c :: acc) cs

/-- The document that a text holds; a byte order mark may come first. -/
def parse? (s : String) : Option Toml :=
  let cs :=
    match s.toList with
    | '\uFEFF' :: cs => cs
    | cs => cs
  (Progress.lines? (cs.length + 2) {} (unifyBreaks [] cs)).map fun d =>
    (Item.table .header d).toToml

end Rowflow.Toml
