import Rowflow.Reading.Source
import Rowflow.Yaml.Document

/-!
# Reading from YAML text

The text of a scalar counts as what is asked for: any scalar is a text, a bare one may be a Boolean
or a number, whatever else it would mean by itself. A bare scalar without text stands for an empty
list and an empty table.
-/

namespace Rowflow.Reading

open Yaml.Syntax (Style)

/-- A node of a document, with the number of collections that may nest from it on. -/
structure Part where
  node : Yaml.Node
  depth : Nat := Yaml.Document.depthLimit

/-- What a node is, in the words of a fault. -/
def Found.ofNode : Yaml.Node → Found
  | .scalar _ _ _ text => .string text
  | .sequence .. => .sequence
  | .mapping .. => .map
  | .alias _ => .unit "alias"

/-- The fault of a node that is not what is expected. -/
def unexpected {β : Type} (n : Yaml.Node) (expected : String) : Result β :=
  .error (.invalidType (.ofNode n) expected)

/-- Whether a scalar of this style and tag is read by its text: a bare one is, and a literal block
with the tag of what is asked for. -/
def isReadable (kind : String) (tag : Option String) (style : Style) : Bool :=
  style = .plain || (style = .literal && tag = some ("tag:yaml.org,2002:" ++ kind))

namespace Part

variable (d : Yaml.Document)

/-- The node itself, an alias followed. -/
def node? (p : Part) : Result Yaml.Node :=
  match d.resolve? p.node with
  | some n => .ok n
  | none => .error (.other "unknown anchor")

/-- A text. -/
def string (p : Part) : Result String := do
  match ← p.node? d with
  | .scalar _ _ _ text => return text
  | n => unexpected n "a string"

/-- What the text of a readable scalar denotes. -/
def scalar {β : Type} (kind expected : String) (read : String → Option β) (p : Part) :
    Result β := do
  match ← p.node? d with
  | .scalar anchor tag style text =>
    match if isReadable kind tag style then read text else none with
    | some b => return b
    | none => unexpected (.scalar anchor tag style text) expected
  | n => unexpected n expected

/-- The natural number of 64 bits that a text denotes. -/
def readWord? (text : String) : Option UInt64 := do
  let n ← Yaml.readInteger? text.toList
  if 0 ≤ n ∧ n < UInt64.size then some (.ofNat n.toNat) else none

/-- How the nodes within a collection become parts: one collection less may nest there. -/
def within (p : Part) : Result (Yaml.Node → Part) :=
  match p.depth with
  | 0 => .error (.other "recursion limit exceeded")
  | depth + 1 => .ok fun n => ⟨n, depth⟩

/-- A list. -/
def items (p : Part) : Result (List Part) := do
  match ← p.node? d with
  | .sequence _ _ ns => return ns.map (← p.within)
  | .scalar _ _ .plain "" => return []
  | n => unexpected n "a sequence"

/-- The members of a record or of a table. -/
def members (expected : String) (p : Part) : Result (List (String × Part)) := do
  match ← p.node? d with
  | .mapping _ _ ms =>
    let part ← p.within
    ms.mapM fun (k, v) => do return (← (part k).string d, part v)
  | .scalar _ _ .plain "" => return []
  | n => unexpected n expected

/-- Whether a scalar is written as null. -/
def isNull (style : Style) (tag : Option String) (text : String) : Bool :=
  style = .plain &&
    match tag with
    | some t => t = "tag:yaml.org,2002:null"
    | none => Yaml.isNullText text

/-- One of the given names: the text of a scalar, or a local tag with null behind it. -/
def variant (names : List String) (p : Part) : Result String := do
  let check (name : String) : Result String :=
    if name ∈ names then .ok name else .error (.unknownVariant name names)
  match ← p.node? d with
  | .scalar _ tag style text =>
    match Yaml.Document.localTag? tag with
    | some name =>
      if isNull style none text then check name
      else .error (.invalidValue (.string text) "null")
    | none => check text
  | n => unexpected n "a YAML tag starting with '!'"

/-- Whether an optional part is absent. -/
def isAbsent (p : Part) : Result Bool := do
  match ← p.node? d with
  | .scalar _ tag style text =>
    if isNull style tag text then
      if tag.isNone || Yaml.isNullName text then return true
      else .error (.invalidValue (.string text) "null")
    else return false
  | _ => return false

/-- The value as it stands. -/
def data (p : Part) : Result Yaml :=
  match d.valueAt? p.depth p.node with
  | some v => .ok v
  | none => .error (.other "no value")

end Part

/-- Reading from the parts of a document. -/
def documentSource (d : Yaml.Document) : Source Part where
  string := Part.string d
  boolean := Part.scalar d "bool" "a boolean" Yaml.readBool?
  word expected := Part.scalar d "int" expected Part.readWord?
  float := Part.scalar d "float" "f64" Yaml.readFloat?
  items := Part.items d
  members := Part.members d "a map"
  record r := Part.members d r.expected
  variant := Part.variant d
  isAbsent := Part.isAbsent d
  data := Part.data d

end Rowflow.Reading
