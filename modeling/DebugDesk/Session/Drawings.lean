import DebugDesk.Session.Cameras
import DebugDesk.Session.Graphs
import DebugDesk.Drawing.EdgeRoute
import DebugDesk.Drawing.Operation
import DebugDesk.Drawing.VertexBox

/-!
# Drawing reports

What vertices and edges are drawn as, and what is hit at a point.
-/
namespace DebugDesk.Session

def recordedReport : Recorded Float → Report
  | .clear color => .list [.str "clear", inkReport color]
  | .rect x y w h color =>
    .list [.str "rect", .rounded x, .rounded y, .rounded w, .rounded h, inkReport color]
  | .polyline points color thickness =>
    .list [.str "polyline", .list (points.map pointReport), inkReport color, .rounded thickness]
  | .text x y text color font size =>
    .list [.str "text", .rounded x, .rounded y, .str text, inkReport color, .str font,
      .rounded size]

def colorField (j : Json) (name : String) (absent : Ink) : Except Fault Ink :=
  match j.get? name with
  | some color => colorOf color
  | none => .ok absent

def vertexStyleOf (j : Json) : Except Fault (VertexStyle Float) := do
  let s : VertexStyle Float := .standard
  return {
    font := match j.get? "font" with
      | some (.str f) => f
      | _ => s.font
    fontSize := floatField j "font_size" s.fontSize
    textColor := ← colorField j "text_color" s.textColor
    borderColor := ← colorField j "border_color" s.borderColor
    borderColorSelected := ← colorField j "border_color_selected" s.borderColorSelected
    backgroundColor := ← colorField j "background_color" s.backgroundColor
    shadowColor := ← colorField j "shadow_color" s.shadowColor
    shadowColorSelected := ← colorField j "shadow_color_selected" s.shadowColorSelected
    borderSize := floatField j "border_size" s.borderSize
    shadowOffset := floatField j "shadow_offset" s.shadowOffset
    paddingHorizontal := floatField j "padding_horizontal" s.paddingHorizontal
    paddingVertical := floatField j "padding_vertical" s.paddingVertical
    paddingLine := floatField j "padding_line" s.paddingLine
    centering := match field? j "centering" with
      | some b => toBool b
      | none => s.centering }

def edgeStyleOf (j : Json) : Except Fault (EdgeStyle Float) := do
  let s : EdgeStyle Float := .standard
  return {
    colorDirect := ← colorField j "color_direct" s.colorDirect
    colorTrue := ← colorField j "color_true" s.colorTrue
    colorFalse := ← colorField j "color_false" s.colorFalse
    colorDirectSelected := ← colorField j "color_direct_selected" s.colorDirectSelected
    colorTrueSelected := ← colorField j "color_true_selected" s.colorTrueSelected
    colorFalseSelected := ← colorField j "color_false_selected" s.colorFalseSelected
    paddingBetweenEdges := floatField j "padding_between_edges" s.paddingBetweenEdges
    paddingLine := floatField j "padding_line" s.paddingLine
    lineWidth := floatField j "line_width" s.lineWidth }

def surfaceUnder (camera : Option (Camera Float)) : RecordingSurface Float :=
  match camera with
  | some c => { RecordingSurface.empty with matrix := c.matrix }
  | none => .empty

def cameraOf? (j : Json) : Except Fault (Option (Camera Float)) :=
  match field? j "camera" with
  | some c => return some (← cameraOf c)
  | none => return none

def recordingMeasure : Measure Id Float := RecordingSurface.measure

def metricsReport (m : VertexMetrics Float) : Report :=
  .list [.rounded m.width, .rounded m.height, .rounded m.contentWidth, .rounded m.fontHeight]

def verticesReport (input : Json) : Report :=
  .orFailed id do
    let camera ← cameraOf? input
    let style ← vertexStyleOf (field input "style")
    let given := toList (field input "vertices")
    let vertices ← given.mapM fun j => do
      return Vertex.mk unassigned (← linesOf (field j "lines")) (toBool (field j "selected"))
    let (metrics, boxes) := (vertices.zipIdx.foldl (fun (done, boxes) (v, i) =>
      let (m, boxes) := Id.run (boxes.metrics recordingMeasure style i v)
      (done ++ [m], boxes)) ([], VertexBoxes.empty))
    let placed := (given.zip vertices.zipIdx).map fun (j, v, i) =>
      let p := match field? j "at" with
        | some p => pointOf p
        | none => ⟨0, 0⟩
      VertexBoxes.Placed.mk i v p.x p.y
    let boxes := Id.run (boxes.placeAll recordingMeasure style placed)
    let selected (i : Nat) : Bool := (vertices[i]?.map Vertex.selected).getD false
    let surface := (surfaceUnder camera).drawAll (boxes.render style selected)
    let drawings := boxes.drawings.map fun d => Report.object
      [("rect", .list [.rounded d.x, .rounded d.y, .rounded d.width, .rounded d.height]),
        ("mid", .list [.rounded d.midX, .rounded d.midY]), ("bottom", .rounded d.bottom),
        ("runs", .list (d.runs.map fun r =>
          .list [.rounded r.x, .rounded r.y, .str r.run.text]))]
    let more ← match field? input "relines", vertices with
      | none, _ => pure []
      | some _, [] => throw .noSuchVertex
      | some lines, v :: _ => do
        let v := { v with lines := v.lines ++ (← linesOf lines) }
        let (kept, _) := Id.run (boxes.metrics recordingMeasure style 0 v)
        let cleared := VertexBoxes.empty
        let (measured, _) := Id.run (cleared.metrics recordingMeasure style 0 v)
        pure [("kept", .rounded kept.width), ("found", Report.bool (cleared.find? 0).isSome),
          ("measured", .rounded measured.width)]
    return .object ([("metrics", .list (metrics.map metricsReport)), ("drawings", .list drawings),
      ("calls", .list (surface.calls.map recordedReport))] ++ more)

def drawingsOf (j : Json) : List (VertexDrawing Float) :=
  (toList j).zipIdx.map fun (b, i) =>
    let v := floats b
    ⟨i, v.getD 0 0, v.getD 1 0, v.getD 2 0, v.getD 3 0, []⟩

def edgesReport (input : Json) : Report :=
  .orFailed id do
    let camera ← cameraOf? input
    let style ← edgeStyleOf (field input "style")
    let drawings := drawingsOf (field input "boxes")
    let place (j : Json) : Except Fault Nat := placeAmong drawings.length (toInt j)
    let ends ← (toList (field input "edges")).mapM fun e => do
      return (← place (arg (toList e) 0), ← place (arg (toList e) 1))
    let nowhere : VertexDrawing Float := ⟨0, 0, 0, 0, 0, []⟩
    let placements := ends.zipIdx.map fun ((s, t), i) =>
      EdgePlacement.mk i (drawings.getD s nowhere) (drawings.getD t nowhere)
    let chosen ← (toList (field input "selected")).mapM place
    let (routes, kept) := (EdgeRoutes.ofPlacements placements).route style
    let ops := EdgeRoutes.paint style chosen.contains routes
    let surface := (surfaceUnder camera).drawAll ops
    let cleared := ((EdgeRoutes.empty : EdgeRoutes Float).route style).1
    return .object
      [("routes", .list (routes.map fun r => .list [.int r.source, .int r.target, .str r.kind.name,
          .list (r.points.map pointReport)])),
        ("calls", .list (surface.calls.map recordedReport)),
        ("again", .bool kept.routed.isSome),
        ("repr", .strings (routes.map fun r => r.summary s!"<Edge {r.source} -> {r.target}>")),
        ("cleared", .nat cleared.length)]

def hitReport (input : Json) : Report :=
  .orFailed id do
    let camera ← cameraOf? input
    let camera := camera.map fun c => (toList (field input "moves")).foldl (fun c s =>
      (cameraStep c (toStr (arg (toList s) 0)) ((toList s).drop 1)).2) c
    let drawings := drawingsOf (field input "boxes")
    let hits := (toList (field input "points")).map fun p =>
      let p := pointOf p
      let found := match camera with
        | some c => hitTestScreen drawings c p
        | none => hitTest drawings p
      .opt (fun d => .nat d.vertex) found
    return .object [("hits", .list hits)]

/-- How each operation ends of a surface and of renderers that leave out all they can. -/
def interfacesReport : Report :=
  let surface : Drawing.Surface Unit := {}
  let vertices : Drawing.VertexRenderer Unit := {}
  let edges : Drawing.EdgeRenderer Unit := {}
  let black : Color Float := ⟨0, 0, 0, 1⟩
  let outcome {β : Type} (name : String) (e : Effect Unit β) : String × Report :=
    (name, .orFailed (fun _ => .null) (e.outcome ()).1)
  .object
    [outcome "Surface.clear" (surface.clear black),
      outcome "Surface.fill_rect" (surface.fillRect 0 0 1 1 black),
      outcome "Surface.stroke_polyline" (surface.strokePolyline [] black 1),
      outcome "Surface.draw_text" (surface.drawText 0 0 "" black "" 1),
      outcome "Surface.measure_text" (surface.measureText "" "" 1),
      outcome "VertexRenderer.metrics" (vertices.metrics 0),
      outcome "VertexRenderer.preprocess" (vertices.preprocess []),
      outcome "VertexRenderer.render" vertices.render,
      outcome "VertexRenderer.clear" vertices.clear,
      outcome "EdgeRenderer.preprocess" (edges.preprocess []),
      outcome "EdgeRenderer.route" edges.route,
      outcome "EdgeRenderer.render" edges.render,
      outcome "EdgeRenderer.clear" edges.clear]

end DebugDesk.Session
