import DebugDesk.Session.Reading

/-!
# Graph sessions

A graph is built, changed and looked at.
-/
namespace DebugDesk.Session

def graphState (g : Graph) : List (String × Report) :=
  [("ids", .list (g.vertices.map fun v => .int v.id)),
    ("edges", .list (g.edges.map fun e =>
      .list [.int (g.idOf e.source), .int (g.idOf e.target)])),
    ("root", .opt Report.nat g.root?),
    ("selected", .list ((g.vertices.zipIdx.filter fun (v, _) => v.selected).map
      fun (_, i) => .int i)),
    ("ok", .bool g.verifyIntegrity)]

def colorReport (c : Color Float) : Report := .list (c.toList.map Report.rounded)

def inkReport (ink : Ink) : Report := .opt colorReport ink

def runReport (r : TextRun) : Report :=
  .list [.str r.text, inkReport r.color, .opt .str r.font]

def vertexText (v : Vertex) : Report :=
  .object [("raw", .str v.raw),
    ("lines", .list (v.lines.map fun line => .list (line.map runReport)))]

def vertexAt (g : Graph) (i : Nat) : Vertex := g.vertices.getD i Vertex.stranger

/-- Which arguments of a step are positions of vertices. -/
def positionArgs (name : String) (args : List Json) : List Nat :=
  match name with
  | "foreign_edge" | "set_id" | "linked" | "lines" | "text" | "center" | "click" => [0]
  | "add_edge" => [0, 1]
  | "set_root" | "select" =>
    match arg args 0 with
    | .int _ => [0]
    | _ => []
  | _ => []

def locateArgs (g : Graph) (name : String) (args : List Json) : Except Fault (List Json) :=
  (positionArgs name args).foldlM (fun args i => do
    let position ← positionIn g (arg args i)
    return args.set i (.int position)) args

/-- A step whose vertices are there. -/
def graphChange (g : Graph) (name : String) (args : List Json) : Report × Graph :=
  let index := toNat (arg args 0)
  match name with
  | "add_vertex" =>
    let g := g.addVertex
    (.str (vertexAt g (g.size - 1)).summary, g)
  | "add_edge" =>
    let e : Edge := ⟨.inside index, .inside (toNat (arg args 1))⟩
    (.list [.str (g.edgeSummary e), .bool e.isSelfLoop], g.addEdge e.source e.target)
  | "foreign_edge" =>
    (.null, foreignEdge g index (toBool (arg args 1)))
  | "number" => (.null, g.updateIdentifiers)
  | "set_id" => (.null, g.modifyVertex index fun v => { v with id := toInt (arg args 1) })
  | "get" => (.opt Report.nat (g.getVertex (toInt (arg args 0))), g)
  | "set_root" =>
    let target : Endpoint := match arg args 0 with
      | .str _ => .outside g.edges.length unassigned
      | i => .inside (toNat i)
    match g.setRoot target with
    | .ok g => (.null, g)
    | .error f => (.failed f, g)
  | "linked" =>
    let direction := match arg? args 1 with
      | some word => Graph.direction (toStr word)
      | none => .ok .out
    (.orFailed (fun d => .list ((g.linkedEdges (.inside index) d).map Report.nat)) direction, g)
  | "select" =>
    let choice : Option Endpoint := match arg args 0 with
      | .null => none
      | .str _ => some (.outside g.edges.length unassigned)
      | i => some (.inside (toNat i))
    let (g, changed) := g.select choice
    (.bool changed, g)
  | "selected" => (.opt Report.nat g.selected?, g)
  | "to_json" => (.json g.toJson, g)
  | "repr" => (.strings (g.summary :: g.vertices.map Vertex.summary), g)
  | "lines" =>
    let (lines, fault) := linesUpToFault (toList (arg args 1))
    let g := g.addLines index lines
    match fault with
    | some fault => (.failed fault, g)
    | none => (.list ((vertexAt g index).lines.map fun line =>
        .strings (TextLine.summary line :: line.map TextRun.summary)), g)
  | "text" => (vertexText (vertexAt g index), g)
  | _ => (.null, g)

def graphStep (g : Graph) (name : String) (args : List Json) : Report × Graph :=
  match locateArgs g name args with
  | .ok args => graphChange g name args
  | .error fault => (.failed fault, g)

def graphSession (input : Json) : Report :=
  .orFailed
    (fun g => .object [("steps", stepsReport graphStep (fun g => (graphState g, g)) g input)])
    (graphOf (field input "graph"))

def graphReport (input : Json) : Report :=
  .orFailed (fun g => .object [("state", .object (graphState g)), ("json", .json g.toJson),
    ("text", if toBool (field input "text") then .strings (g.vertices.map Vertex.raw) else .null)])
    (describedGraph (field input "graph"))

def contentReport (input : Json) : Report :=
  .orFailed (fun provider =>
    let g := (List.range (toNat (field input "n"))).foldl (fun g _ => g.addVertex)
      (Graph.empty provider)
    .object [("vertices", .list (g.vertices.map vertexText))]) (providerOf (field input "provider"))

end DebugDesk.Session
