import Rowflow.Yaml.Node
import Rowflow.Yaml.Scalar

/-!
# The value of a YAML document

Aliases stand for the nodes they point to, and local tags stay before their values. A mapping with
two equal keys is refused, and so is a document that nests too deep or that follows too many
aliases: both limits end the reading of nodes that contain themselves.
-/

namespace Rowflow.Yaml

open Syntax

/-! ### Equal keys -/

/-- Whether two floating-point numbers count as one key: all that are no number do. -/
def sameFloat (x y : Binary64) : Bool := (x.isNaN && y.isNaN) || x.equals y

mutual

/-- Whether two values count as one key. -/
def same : Yaml → Yaml → Bool
  | .null, .null => true
  | .bool a, .bool b => a = b
  | .integer m, .integer n => m = n
  | .float x, .float y => sameFloat x y
  | .string s, .string t => s = t
  | .sequence vs, .sequence ws => sameItems vs ws
  | .mapping ms, .mapping ns => ms.length = ns.length && withinMembers ms ns
  | .tagged t v, .tagged u w => tagText t = tagText u && same v w
  | _, _ => false

/-- Whether two lists are equal item by item. -/
def sameItems : List Yaml → List Yaml → Bool
  | [], [] => true
  | v :: vs, w :: ws => same v w && sameItems vs ws
  | _, _ => false

/-- Whether every member is found among others. -/
def withinMembers : List (Yaml × Yaml) → List (Yaml × Yaml) → Bool
  | [], _ => true
  | (k, v) :: rest, ns => ns.any (fun (k', v') => same k k' && same v v') && withinMembers rest ns

end

/-! ### Documents -/

/-- A document with what is needed to follow its aliases. -/
structure Document where
  root : Node
  /-- The nodes with a number; of two with one number the first counts. -/
  targets : List (Nat × Node)
  /-- How many aliases may be followed. -/
  aliasLimit : Nat

namespace Document

mutual

/-- The number of marks that a node consists of: one for a scalar and two around a collection. -/
def marks (acc : Nat) : Node → Nat
  | .scalar .. | .alias _ => acc + 1
  | .sequence _ _ items => itemMarks (acc + 2) items
  | .mapping _ _ members => memberMarks (acc + 2) members

/-- The same for the items of a sequence. -/
def itemMarks (acc : Nat) : List Node → Nat
  | [] => acc
  | n :: rest => itemMarks (marks acc n) rest

/-- The same for the members of a mapping. -/
def memberMarks (acc : Nat) : List (Node × Node) → Nat
  | [] => acc
  | (k, v) :: rest => memberMarks (marks (marks acc k) v) rest

end

/-- The document that a text holds. -/
def parse? (s : String) : Option Document := do
  let root ← Node.parse? s
  return ⟨root, Node.anchored [] root, 100 * marks 0 root⟩

/-- How deep collections may nest. -/
def depthLimit : Nat := 128

/-- The node that a node stands for: itself, unless it is an alias. -/
def resolve? (d : Document) : Node → Option Node
  | .alias k => d.targets.lookup k
  | n => some n

/-- The name of a local tag, without its exclamation mark. -/
def localTag? (tag : Option String) : Option String :=
  match tag.map String.toList with
  | some ['!'] => some "!"
  | some ('!' :: cs) => some (String.ofList cs)
  | _ => none

/-- A value behind its local tag, if there is one. -/
def withTag (tag : Option String) (v : Yaml) : Yaml :=
  match localTag? tag with
  | some t => .tagged t v
  | none => v

/-- The value of a scalar. -/
def scalarValue? (tag : Option String) (style : Style) (text : String) : Option Yaml :=
  match tag, localTag? tag with
  | some t, none => ofTagged? t text
  | _, _ => (if style = .plain then ofPlain? text else some (.string text)).map (withTag tag)

/-- A step of reading values, which counts the aliases that have been followed. -/
abbrev Step := StateT Nat Option

/-- Follows an alias. -/
def follow (d : Document) (n : Node) : Step Node := do
  match n with
  | .alias _ =>
    let followed ← get
    if followed < d.aliasLimit then
      set (followed + 1)
      d.resolve? n
    else failure
  | n => return n

/-- The value of a node that may nest the given number of collections. -/
def read (d : Document) : Nat → Node → Step Yaml
  | 0, n => do
    match ← d.follow n with
    | .scalar _ tag style text => scalarValue? tag style text
    | _ => failure
  | depth + 1, n => do
    match ← d.follow n with
    | .scalar _ tag style text => scalarValue? tag style text
    | .sequence _ tag items =>
      let values ← items.foldlM (fun acc item => do return (← d.read depth item) :: acc) []
      return withTag tag (.sequence values.reverse)
    | .mapping _ tag members =>
      let entries ← members.foldlM (fun (acc : List (Yaml × Yaml)) (k, v) => do
        let key ← d.read depth k
        if acc.any fun (k', _) => same key k' then failure
        return (key, ← d.read depth v) :: acc) []
      return withTag tag (.mapping entries.reverse)
    | .alias _ => failure

/-- The value of a node at a depth. -/
def valueAt? (d : Document) (depth : Nat) (n : Node) : Option Yaml :=
  ((d.read depth n).run 0).map (·.1)

end Document

/-- The value that a text holds: that of its single document, null if there is none. -/
def parse? (s : String) : Option Yaml := do
  let d ← Document.parse? s
  d.valueAt? Document.depthLimit d.root

end Rowflow.Yaml
