import DebugDesk.Session.Drawings
import DebugDesk.Session.Layouts
import DebugDesk.View.Pipeline
import DebugDesk.View.Pointer
import DebugDesk.TimeOfDay

/-!
# View sessions

A view shows graphs that change, and follows pointers.
-/
namespace DebugDesk.Session

def viewStyleOf (j : Json) : Except Fault (ViewStyle Float) := do
  let s : ViewStyle Float := .standard
  return {
    vertex := ← vertexStyleOf (field j "vertex")
    edge := ← edgeStyleOf (field j "edge")
    backgroundColor := ← colorField j "background_color" s.backgroundColor
    errorColor := ← colorField j "error_color" s.errorColor
    nodeSpacing := floatField j "node_spacing" s.nodeSpacing
    rankSpacing := floatField j "rank_spacing" s.rankSpacing }

structure ViewState where
  view : View Float
  graphs : GraphStore := []
  names : List (String × Nat) := []
  surface : RecordingSurface Float := .empty
  clock : Int := 0
  events : List Report := []
  listening : Bool := true

namespace ViewState

def graph (s : ViewState) : Graph := (s.view.shown? s.graphs).getD (Graph.empty .nothing)

def changeGraph (s : ViewState) (f : Graph → Graph) : Report × ViewState :=
  match s.view.graph with
  | some ref => (.null, { s with graphs := s.graphs.change ref f })
  | none => (.failed .missing, s)

def idAt (s : ViewState) (i : Nat) : Report := .int (vertexAt s.graph i).id

def clicked (s : ViewState) (c : View.Clicked Float) : Report × ViewState :=
  let s := { s with view := c.view, graphs := c.graphs }
  let id := .opt s.idAt c.vertex
  (id, if c.changed && s.listening then { s with events := s.events ++ [id] } else s)

def keepView (s : ViewState) (v : Except Fault (View Float)) : Report × ViewState :=
  match v with
  | .ok view => (.null, { s with view })
  | .error f => (.failed f, s)

def seconds (s : ViewState) (t : Option Json) : Except Fault Float :=
  match t with
  | some .null | none => TimeOfDay.secondsOfNanos s.clock
  | some t => .ok (toFloat t)

def release (s : ViewState) (p : Point Float) (t : Option Json) : Report × ViewState :=
  match s.seconds t with
  | .ok time => s.clicked (s.view.pointerUp s.graphs p time)
  | .error f => (.failed f, s)

def centerOf (s : ViewState) (i : Nat) : Option (Point Float) :=
  (s.view.boxes.find? i).map fun d => s.view.camera.canvasToScreen ⟨d.midX, d.midY⟩

end ViewState

/-- A step whose vertices are there, if there is a graph. -/
def viewChange (s : ViewState) (name : String) (args : List Json) : Report × ViewState :=
  let p := argPoint args
  let index := toNat (arg args 0)
  match name with
  | "set_graph" =>
    match arg args 0 with
    | .null =>
      let (view, graphs) := s.view.setGraph s.graphs none
      (.null, { s with view, graphs })
    | .str known =>
      match s.names.lookup known with
      | none => (.failed .unknownName, s)
      | ref =>
        let (view, graphs) := s.view.setGraph s.graphs ref
        (.null, { s with view, graphs })
    | d =>
      match graphOf d with
      | .error f => (.failed f, s)
      | .ok g =>
        let ref := s.graphs.length
        let names := match arg args 1 with
          | .str n => (n, ref) :: s.names
          | _ => s.names
        let (view, graphs) := s.view.setGraph (s.graphs.push g) (some ref)
        (.null, { s with view, graphs, names })
  | "update" =>
    let (ops, view) :=
      Effect.outcome (View.update Sugiyama.engine recordingMeasure s.graphs) s.view
    let s := { s with view }
    (.orFailed (fun ops => .bool ops.isSome) ops,
      { s with surface := s.surface.drawAll (ops.toOption.join.getD []) })
  | "preprocess" =>
    let (r, view) :=
      Effect.outcome (View.preprocess Sugiyama.engine recordingMeasure s.graphs) s.view
    (.orFailed .bool r, { s with view })
  | "render" =>
    let (ops, view) := Id.run (s.view.render recordingMeasure s.graphs)
    (.null, { s with view, surface := s.surface.drawAll ops })
  | "calls" =>
    let calls := if args.isEmpty then s.surface.calls
      else (args.map toStr).flatMap s.surface.ofKind
    (.list (calls.map recordedReport), s)
  | "layout" => (.opt (fun l => .object (layoutFields l)) s.view.layout, s)
  | "routes" =>
    let (routes, edges) := s.view.edges.route s.view.style.edge
    (.list (routes.map fun r => .list [s.idAt r.source, s.idAt r.target, .str r.kind.name,
      .list (r.points.map pointReport)]), { s with view := { s.view with edges } })
  | "bounds" => (.list [.rounded s.view.bounds.1, .rounded s.view.bounds.2], s)
  | "recenter" => s.keepView (s.view.recenter s.graphs)
  | "fit" => s.keepView s.view.zoomToFit
  | "suppress" => (.null, { s with view := s.view.setSuppressed (toBool (arg args 0)) })
  | "at" => (.opt s.idAt (s.view.vertexAt p), s)
  | "select_at" => s.clicked (s.view.selectAt s.graphs p)
  | "down" => s.keepView (s.view.pointerDown p)
  | "move" => s.keepView (s.view.pointerMove p)
  | "up" => s.release p (arg? args 2)
  | "wheel" => (.null, { s with view := s.view.wheel p.x })
  | "clock" => (.null, { s with clock := toInt (arg args 0) })
  | "camera" =>
    let step := toList (arg args 0)
    let (r, camera) := cameraStep s.view.camera (toStr (arg step 0)) (step.drop 1)
    (r, { s with view := { s.view with camera } })
  | "select" =>
    match s.view.graph with
    | some ref =>
      let (g, changed) := (s.graphs.graph ref).select
        (if isNull (arg args 0) then none else some (.inside index))
      (.bool changed, { s with graphs := s.graphs.put ref g })
    | none => (.failed .missing, s)
  | "add_vertex" => s.changeGraph Graph.addVertex
  | "add_edge" =>
    s.changeGraph fun g => g.addEdge (.inside index) (.inside (toNat (arg args 1)))
  | "foreign_edge" => s.changeGraph fun g => foreignEdge g index (toBool (arg args 1))
  | "number" => s.changeGraph Graph.updateIdentifiers
  | "center" =>
    match s.centerOf index with
    | some p => (pointReport p, s)
    | none => (.failed .missing, s)
  | "click" =>
    match s.centerOf index with
    | none => (.failed .missing, s)
    | some c =>
      let p : Point Float := ⟨c.x + toFloat (arg args 2), c.y + toFloat (arg args 3)⟩
      match s.view.pointerDown p with
      | .error f => (.failed f, s)
      | .ok view => { s with view }.release p (arg? args 1)
  | _ => (.null, s)

def viewStep (s : ViewState) (name : String) (args : List Json) : Report × ViewState :=
  match s.view.shown? s.graphs with
  | some g =>
    match locateArgs g name args with
    | .ok args => viewChange s name args
    | .error fault => (.failed fault, s)
  | none => viewChange s name args

def viewState (s : ViewState) : List (String × Report) × ViewState :=
  let c := s.view.camera
  ([("error", .opt .str s.view.error), ("needs", .bool s.view.needsRender),
    ("suppressed", .bool s.view.suppressed), ("events", .list s.events),
    ("laid_out", .opt (fun l => .nat l.size) s.view.layout),
    ("ncalls", .nat s.surface.calls.length),
    ("selected", .opt Report.nat ((s.view.shown? s.graphs).bind Graph.selected?)),
    ("camera", .list [.rounded c.x, .rounded c.y, .rounded c.zoom, .str (cameraStateName c.state),
      .bool c.dirty])], { s with events := [] })

def viewSession (input : Json) : Report :=
  .orFailed id do
    let camera ← cameraOf (field input "camera")
    let style ← viewStyleOf (field input "config")
    let view := View.make camera style
      (floatField input "drag_threshold" View.standardDragThreshold)
      (floatField input "click_suppress_duration" View.standardClickSuppression)
    let listening := match field? input "callback" with
      | some b => toBool b
      | none => true
    return .object [("steps",
      stepsReport viewStep viewState ({ view, listening : ViewState }) input)]

end DebugDesk.Session
