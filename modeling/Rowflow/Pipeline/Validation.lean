import Rowflow.Log.Message
import Rowflow.Pipeline.Graph

/-!
# Validation

A pipeline is checked before anything is built from it: names are distinct, every transform has a
copy, every hop and every target of failing rows exists, no enabled hop is declared twice, and the
hop graph has no cycle. Cycles are looked for only in a pipeline that passes all other checks; the
search goes through the transforms in the order of their declaration, so that the reported cycle
does not change between runs.
-/

namespace Rowflow

/-- What is wrong with a pipeline. -/
inductive ValidationError where
  | cyclicHop (cycle : List String)
  | unresolvedHop (origin target missing : String)
  | unresolvedErrorTarget (transform target : String)
  | selfErrorTarget (transform : String)
  | duplicateTransformId (transform : String)
  | duplicateHop (origin target : String)
  | invalidCopyCount (transform : String) (copies : Nat)
  deriving DecidableEq, Repr, Inhabited

namespace ValidationError

/-- The text of an error. -/
protected def render : ValidationError → String
  | .cyclicHop cycle => "Cyclic hop detected: " ++ Log.Message.path cycle
  | .unresolvedHop origin target missing =>
    "Hop '" ++ origin ++ "' -> '" ++ target ++ "' references transform '" ++ missing ++
      "' which does not exist"
  | .unresolvedErrorTarget transform target =>
    "Transform '" ++ transform ++ "' diverts errors to '" ++ target ++ "' which does not exist"
  | .selfErrorTarget transform => "Transform '" ++ transform ++ "' cannot divert errors to itself"
  | .duplicateTransformId transform => "Duplicate transform ID: '" ++ transform ++ "'"
  | .duplicateHop origin target => "Duplicate hop: '" ++ origin ++ "' -> '" ++ target ++ "'"
  | .invalidCopyCount transform copies =>
    "Transform '" ++ transform ++ "' declares " ++ Text.showNat copies ++
      " copies, at least 1 is required"

/-- What is written to the log when an error is found. -/
def message? : ValidationError → Option Log.Message
  | .cyclicHop cycle => some (.cycleDetected cycle)
  | .unresolvedHop origin _ missing => some (.unresolvedReference origin missing)
  | .unresolvedErrorTarget transform target => some (.unresolvedReference transform target)
  | .duplicateTransformId transform => some (.duplicateId transform)
  | .selfErrorTarget _ | .duplicateHop .. | .invalidCopyCount .. => none

end ValidationError

namespace Pipeline

/-! ### Names and copies -/

/-- One error for every name that stood before already. -/
def duplicateIds (seen : List String) : List String → List ValidationError
  | [] => []
  | a :: rest =>
    if a ∈ seen then .duplicateTransformId a :: duplicateIds seen rest
    else duplicateIds (a :: seen) rest

/-- One error for every transform without copies. -/
def missingCopies (p : Pipeline) : List ValidationError :=
  (p.transforms.filter fun t => t.copies = 0).map fun t => .invalidCopyCount t.id t.copies

/-! ### References -/

/-- The errors of one hop: its ends that do not exist, and that it is enabled a second time. -/
def hopErrors (ids : List String) (seen : List (String × String)) (h : Hop) :
    List ValidationError :=
  ([h.origin, h.target].filter fun a => a ∉ ids).map (.unresolvedHop h.origin h.target) ++
    if h.enabled && (h.origin, h.target) ∈ seen then [.duplicateHop h.origin h.target] else []

/-- The errors of the hops, given the enabled ones before them. -/
def hopListErrors (ids : List String) : List (String × String) → List Hop → List ValidationError
  | _, [] => []
  | seen, h :: rest =>
    hopErrors ids seen h ++
      hopListErrors ids (if h.enabled then (h.origin, h.target) :: seen else seen) rest

/-- The error of a target of failing rows, if there is one. -/
def targetError? (ids : List String) (t : TransformSpec) : Option ValidationError :=
  t.errorHandling.bind fun h =>
    if h.target = t.id then some (.selfErrorTarget t.id)
    else if h.target ∉ ids then some (.unresolvedErrorTarget t.id h.target)
    else none

/-- The errors that do not concern cycles. -/
def structuralErrors (p : Pipeline) : List ValidationError :=
  duplicateIds [] p.ids ++ p.missingCopies ++
    hopListErrors p.ids [] p.hops ++ p.transforms.filterMap (targetError? p.ids)

end Pipeline

namespace HopGraph

/-! ### Cycles -/

/-- The part of a path, given from its end, that a node on it closes to a cycle. -/
def closeCycle (path : List String) (b : String) : List String :=
  (path.takeWhile (· ≠ b) ++ [b]).reverse ++ [b]

/-- Visits a node not visited before, and everything behind it. The path leads to the node, the last
one first; the answer is all nodes visited by then, or the cycle that an edge back to the path
closes. The first argument bounds the length of the path. -/
def visit (g : HopGraph) : Nat → List String → List String → String →
    Except (List String) (List String)
  | 0, _, visited, _ => .ok visited
  | fuel + 1, path, visited, a =>
    (g.successors a).foldlM (fun visited b =>
      if b ∉ visited then visit g fuel (a :: path) visited b
      else if b ∈ a :: path then .error (closeCycle (a :: path) b)
      else .ok visited) (a :: visited)

/-- Visits the nodes that have not been visited, in order. -/
def visitRoots (g : HopGraph) : List String → List String → Option (List String)
  | _, [] => none
  | visited, a :: rest =>
    if a ∈ visited then visitRoots g visited rest
    else
      match g.visit (g.size + 1) [] visited a with
      | .error cycle => some cycle
      | .ok visited => visitRoots g visited rest

/-- The first cycle that the search finds, closed by its first node. -/
def cycle? (g : HopGraph) : Option (List String) := g.visitRoots [] g.nodes

end HopGraph

namespace Pipeline

/-- Everything that is wrong with a pipeline, in the order in which it is found. -/
def validationErrors (p : Pipeline) : List ValidationError :=
  match p.structuralErrors with
  | [] =>
    match (HopGraph.ofPipeline p).cycle? with
    | some cycle => [.cyclicHop cycle]
    | none => []
  | errors => errors

/-- Accepts the pipelines with which nothing is wrong. -/
def validate (p : Pipeline) : Except (List ValidationError) Unit :=
  match p.validationErrors with
  | [] => .ok ()
  | errors => .error errors

/-- What is written to the log while a pipeline is validated. -/
def validationMessages (p : Pipeline) : List Log.Message :=
  p.validationErrors.filterMap ValidationError.message?

end Pipeline

end Rowflow
