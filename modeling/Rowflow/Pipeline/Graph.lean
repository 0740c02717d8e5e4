import Rowflow.Pipeline.Definition

/-!
# The hop graph

The graph of a pipeline has one node for every name of a transform and one edge for every enabled
hop and every edge of failing rows whose ends are both nodes; edges may repeat. Its topological
order is found by taking, again and again, the first node all of whose predecessors have been taken:
nodes that become ready together queue up in ascending order of their names.
-/

namespace Rowflow

/-- The nodes and edges along which rows go. -/
structure HopGraph where
  nodes : List String
  edges : List (String × String)
  deriving Inhabited

namespace HopGraph

/-- Names without those that stood before already. -/
def distinct : List String → List String
  | [] => []
  | a :: rest => a :: (distinct rest).filter (· ≠ a)

/-- The graph of a pipeline. -/
def ofPipeline (p : Pipeline) : HopGraph where
  nodes := distinct p.ids
  edges := p.edges.filter fun (a, b) => a ∈ p.ids && b ∈ p.ids

/-- Where the edges from a node lead, in the order of the edges. -/
def successors (g : HopGraph) (a : String) : List String :=
  g.edges.filterMap fun e => if e.1 = a then some e.2 else none

/-- Where the edges to a node come from, in the order of the edges. -/
def predecessors (g : HopGraph) (b : String) : List String :=
  g.edges.filterMap fun e => if e.2 = b then some e.1 else none

/-- The nodes to which no edge leads. -/
def entryPoints (g : HopGraph) : List String := g.nodes.filter fun a => (g.predecessors a).isEmpty

/-- The nodes from which no edge leads. -/
def terminals (g : HopGraph) : List String := g.nodes.filter fun a => (g.successors a).isEmpty

/-- The number of nodes. -/
def size (g : HopGraph) : Nat := g.nodes.length

/-! ### Topological order -/

/-- Puts a name into an ascending list, unless it is there. -/
def insertName (a : String) : List String → List String
  | [] => [a]
  | b :: rest =>
    if a = b then b :: rest else if a < b then a :: b :: rest else b :: insertName a rest

/-- Names in ascending order, each once. -/
def sortNames (names : List String) : List String :=
  names.foldl (fun sorted a => insertName a sorted) []

/-- How many edges to each node come from nodes not yet taken. -/
abbrev Degrees := List (String × Nat)

/-- Takes one edge to a node away, and notes the node if that was the last one. -/
def release (b : String) (state : Degrees × List String) : Degrees × List String :=
  match state.1.lookup b with
  | none => state
  | some d =>
    (state.1.map fun (c, e) => if c = b then (c, e - 1) else (c, e),
      if d - 1 = 0 then insertName b state.2 else state.2)

/-- Takes the first node in the queue, and queues those that it was the last to hold back. -/
def takeReady (g : HopGraph) : Nat → Degrees → List String → List String
  | 0, _, _ => []
  | _ + 1, _, [] => []
  | fuel + 1, degrees, a :: queue =>
    let (degrees, ready) := (g.successors a).foldl (fun state b => release b state) (degrees, [])
    a :: takeReady g fuel degrees (queue ++ ready)

/-- The number of edges to each node. -/
def degrees (g : HopGraph) : Degrees := g.nodes.map fun a => (a, (g.predecessors a).length)

/-- The nodes in an order in which every edge leads forward; none if there is a cycle. -/
def topologicalOrder (g : HopGraph) : Option (List String) :=
  let order := g.takeReady g.size g.degrees
    (sortNames ((g.degrees.filter fun (_, d) => d = 0).map (·.1)))
  if order.length = g.size then some order else none

end HopGraph

end Rowflow
