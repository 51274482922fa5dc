import DebugDesk.Camera
import DebugDesk.Drawing.EdgeRoute
import DebugDesk.Graph.Basic
import DebugDesk.Layout.Basic

/-!
# Graph view

A view shows a graph of the store through a camera: it measures, lays out, draws, and repaints only
when something visible changed and redraw is not suppressed. A graph that cannot be laid out puts
the view into an error state, in which it shows a message instead.
-/
namespace DebugDesk

structure View (α : Type) where
  style : ViewStyle α
  camera : Camera α
  /-- A press that moves less than this before its release is a click. -/
  dragThreshold : α
  /-- Seconds after a drag during which clicks do not select. -/
  clickSuppression : α
  /-- The number of the graph shown. -/
  graph : Option Nat
  layout : Option (Layout α)
  /-- The message of the error state. -/
  error : Option String
  cache : LayoutCache Nat α
  /-- The graph and vertex count of the latest layout that failed. -/
  failed : Option (Nat × Nat)
  preprocessed : Bool
  /-- Whether to recenter as soon as there is a layout. -/
  recenterPending : Bool
  suppressed : Bool
  needsRender : Bool
  /-- Where the pointer is held down since. -/
  press : Option (Point α)
  dragged : Bool
  suppressClicksUntil : α
  boxes : VertexBoxes α
  edges : EdgeRoutes α

namespace View

variable {α : Type} [Scalar α]

def standardDragThreshold : α := 4.0

def standardClickSuppression : α := 0.2

def make (camera : Camera α) (style : ViewStyle α) (dragThreshold clickSuppression : α) : View α :=
  { style, camera, dragThreshold, clickSuppression
    graph := none, layout := none, error := none, cache := .empty, failed := none
    preprocessed := false, recenterPending := false, suppressed := false, needsRender := true
    press := none, dragged := false, suppressClicksUntil := 0.0
    boxes := .empty, edges := .empty }

def shown? (v : View α) (gs : GraphStore) : Option Graph := v.graph.map gs.graph

def invalidate (v : View α) : View α :=
  { v with
    cache := .empty, boxes := .empty, edges := .empty
    layout := none, error := none, failed := none
    preprocessed := false, needsRender := true }

/-- Shows a graph, numbering its vertices, or none. The same graph again changes nothing. -/
def setGraph (v : View α) (gs : GraphStore) (graph : Option Nat) : View α × GraphStore :=
  if graph = v.graph then (v, gs)
  else
    ({ v with graph }.invalidate,
      match graph with
      | some ref => gs.change ref Graph.updateIdentifiers
      | none => gs)

/-- Enters the error state, or stays in it with another message. -/
def setError (v : View α) (message : String) : View α :=
  { v with
    needsRender := v.needsRender || v.error != some message
    error := some message
    layout := none
    cache := .empty }

/-- The size of the layout; zero without one. -/
def bounds (v : View α) : α × α :=
  match v.layout with
  | some l => (l.width, l.height)
  | none => (0.0, 0.0)

/-- The canvas point that recentering brings to the center of the viewport: such that the root is
centered horizontally and near the top, or the middle of a layout without root. -/
def centerOf (v : View α) (g : Option Graph) (l : Layout α) : Except Fault (Point α) := do
  let root := g.bind fun g => g.root?.bind fun i => l.box? (g.idOf (.inside i))
  match root with
  | some box =>
    let down ← Scalar.divide (v.camera.height / 2.0) v.camera.zoom
    return ⟨box.x, box.y + down - box.height⟩
  | none => return ⟨l.width / 2.0, l.height / 2.0⟩

/-- Brings the root into view, now or as soon as there is a layout. -/
def recenter (v : View α) (gs : GraphStore) : Except Fault (View α) := do
  match v.layout with
  | none => return { v with recenterPending := v.graph.isSome }
  | some l => return { v with camera := v.camera.recenter (← v.centerOf (v.shown? gs) l) }

/-- Zooms so that the whole layout fits, centered. -/
def zoomToFit (v : View α) : Except Fault (View α) :=
  match v.layout with
  | none => .ok v
  | some l => do
    let camera ← v.camera.zoomToFit l.width l.height Camera.fitMargin
    return { v with camera := camera.recenter ⟨l.width / 2.0, l.height / 2.0⟩ }

def setSuppressed (v : View α) (suppressed : Bool) : View α :=
  { v with suppressed, needsRender := v.needsRender || !suppressed }

end View

end DebugDesk
