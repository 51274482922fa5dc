import DebugDesk.Graph.Basic
import DebugDesk.Json.Writer

/-!
# Graphs from descriptions

A graph is described by a JSON object with `nodes`, each with an optional `id`, and `edges`, each
with the ids of its `source` and `target`. A node without an id has its position as one.
-/
namespace DebugDesk.Graph

/-- What a value yields when it is gone through: the items of a list, the characters of a string,
the names of an object. -/
def itemsOf : Json → Except Fault (List Json)
  | .list items => .ok items
  | .str s => .ok (s.toList.map fun c => .str c.toString)
  | .broken points => .ok (points.map fun n => .ofPoints [n])
  | .object members => .ok (members.map fun (name, _) => .str name)
  | _ => .error .notASequence

def fieldOr (absent : Json) (name : String) : Json → Except Fault Json
  | .object members => .ok ((members.lookup name).getD absent)
  | _ => .error .notAnObject

def idKey (id : Json) : Except Fault Json.Key :=
  match id.key? with
  | some key => .ok key
  | none => .error .notAnId

/-- The ids of the nodes so far, the latest first, with the positions of their vertices. -/
abbrev Places := List (Json.Key × Nat)

/-- Adds a vertex for each node. -/
def addNodes : Graph → Places → List Json → Except Fault (Graph × Places)
  | g, places, [] => .ok (g, places)
  | g, places, node :: rest => do
    let position := g.size
    let key ← idKey (← fieldOr (.int position) "id" node)
    addNodes g.addVertex ((key, position) :: places) rest

/-- The vertex that one end of an edge names. -/
def endOf (places : Places) (name : String) (edge : Json) : Except Fault Nat :=
  match edge with
  | .object members =>
    match members.lookup name with
    | none => .error (.unknownNode edge.nested)
    | some id => do
      match places.lookup (← idKey id) with
      | some position => .ok position
      | none => .error (.unknownNode edge.nested)
  | _ => .error .edgeNotObject

def addEdges : Graph → Places → List Json → Except Fault Graph
  | g, _, [] => .ok g
  | g, places, edge :: rest => do
    let source ← endOf places "source" edge
    let target ← endOf places "target" edge
    addEdges (g.addEdge (.inside source) (.inside target)) places rest

def nodesOf (description : Json) (provider : ContentProvider) : Except Fault (Graph × Places) := do
  addNodes (empty provider) [] (← itemsOf (← fieldOr (.list []) "nodes" description))

def ofJson (description : Json) (provider : ContentProvider) : Except Fault Graph := do
  let (g, places) ← nodesOf description provider
  let edges ← itemsOf (← fieldOr (.list []) "edges" description)
  return (← addEdges g places edges).updateIdentifiers

def providerAfter (description : Json) (provider : ContentProvider) : ContentProvider :=
  match nodesOf description provider with
  | .ok (g, _) => g.provider
  | .error _ => provider

def toJson (g : Graph) : Json :=
  .object
    [("nodes", .list (g.vertices.map fun v => .object [("id", .int v.id)])),
      ("edges", .list (g.edges.map fun e =>
        .object [("source", .int (g.idOf e.source)), ("target", .int (g.idOf e.target))]))]

end DebugDesk.Graph
