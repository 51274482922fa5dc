import DebugDesk.Camera
import DebugDesk.Drawing.Operation
import DebugDesk.Drawing.Style
import DebugDesk.Graph.Basic
import DebugDesk.Layout.Basic

/-!
# Vertex boxes

A vertex is drawn as a box with a shadow and a border, around its lines of text. Boxes are measured
before the layout, placed after it, and painted on every repaint. Measurements are kept per vertex
until they are forgotten. Which vertex is at a point is told from the drawings made last, so that a
click meets what is seen.
-/
namespace DebugDesk

structure VertexMetrics (α : Type) where
  fontHeight : α
  /-- The width of the widest line. -/
  contentWidth : α
  width : α
  height : α
  deriving Repr

structure PlacedRun (α : Type) where
  x : α
  y : α
  run : TextRun

/-- The drawing of the vertex at a position of the graph; the point is the top left corner. -/
structure VertexDrawing (α : Type) where
  vertex : Nat
  x : α
  y : α
  width : α
  height : α
  runs : List (PlacedRun α)

namespace VertexDrawing

variable {α : Type} [Scalar α]

def midX (d : VertexDrawing α) : α := d.x + d.width / 2.0

def midY (d : VertexDrawing α) : α := d.y + d.height / 2.0

def bottom (d : VertexDrawing α) : α := d.y + d.height

def right (d : VertexDrawing α) : α := d.x + d.width

/-- Whether a canvas point is inside the box, edges included. -/
def contains (d : VertexDrawing α) (p : Point α) : Bool :=
  d.x ≤ p.x && p.x ≤ d.right && d.y ≤ p.y && p.y ≤ d.bottom

end VertexDrawing

/-- Measurements so far, by position of the vertex, and the drawings made last. -/
structure VertexBoxes (α : Type) where
  measured : List (Nat × VertexMetrics α)
  drawings : List (VertexDrawing α)

namespace VertexBoxes

variable {α : Type} [Scalar α]

def empty : VertexBoxes α := ⟨[], []⟩

def find? (b : VertexBoxes α) (vertex : Nat) : Option (VertexDrawing α) :=
  b.drawings.find? (·.vertex == vertex)

def fontOf (style : VertexStyle α) (run : TextRun) : String := run.font.getD style.font

section Measuring

variable {m : Type → Type} [Monad m]

/-- The sizes of the runs of a line; a blank line counts as a text of no characters. -/
def lineSizes (measure : Measure m α) (style : VertexStyle α) (line : TextLine) :
    m (List (TextMetrics α)) :=
  match line with
  | [] => return [← measure "" style.font style.fontSize]
  | runs => runs.mapM fun run => measure run.text (fontOf style run) style.fontSize

/-- The greatest width and font height of lines, beginning with the given ones. -/
def measureLines (measure : Measure m α) (style : VertexStyle α) :
    (width height : α) → List TextLine → m (α × α)
  | width, height, [] => return (width, height)
  | width, height, line :: rest => do
    let sizes ← lineSizes measure style line
    measureLines measure style
      (Scalar.greater width (Scalar.sum (sizes.map TextMetrics.width)))
      (Scalar.greater height (Scalar.greatest 0.0 (sizes.map TextMetrics.height))) rest

/-- The measurements of a vertex with the given lines. -/
def measureVertex (measure : Measure m α) (style : VertexStyle α) (lines : List TextLine) :
    m (VertexMetrics α) := do
  let (contentWidth, fontHeight) ← measureLines measure style 0.0 0.0 lines
  let gaps : Int := (lines.length - 1 : Nat)
  return {
    fontHeight
    contentWidth
    width := contentWidth + 2.0 * style.paddingHorizontal
    height := (fontHeight + style.paddingLine) * Scalar.ofInt gaps + 2.0 * style.paddingVertical }

/-- The measurements of a vertex, kept from the first time. -/
def metrics (measure : Measure m α) (style : VertexStyle α) (b : VertexBoxes α) (i : Nat)
    (v : Vertex) : m (VertexMetrics α × VertexBoxes α) := do
  match b.measured.lookup i with
  | some known => return (known, b)
  | none =>
    let new ← measureVertex measure style v.lines
    return (new, { b with measured := (i, new) :: b.measured })

/-- Places the runs of a line from left to right. -/
def placeRuns (measure : Measure m α) (style : VertexStyle α) (y : α) :
    (x : α) → List TextRun → m (List (PlacedRun α))
  | _, [] => return []
  | x, run :: rest => do
    let size ← measure run.text (fontOf style run) style.fontSize
    return ⟨x, y, run⟩ :: (← placeRuns measure style y (x + size.width) rest)

/-- The drawing of a vertex whose layout coordinates are `x` and `y`. -/
def drawingOf (measure : Measure m α) (style : VertexStyle α) (metrics : VertexMetrics α) (i : Nat)
    (v : Vertex) (x y : α) : m (VertexDrawing α) := do
  let left := if style.centering then x - metrics.width / 2.0 else x
  let top := if style.centering then y - metrics.height / 2.0 else y
  let runs ← v.lines.zipIdx.mapM fun (line, k) => do
    let baseline := top + style.paddingVertical + Scalar.ofInt k * metrics.fontHeight +
      style.paddingLine * Scalar.ofInt (k + 1)
    placeRuns measure style baseline (left + style.paddingHorizontal) line
  return ⟨i, left, top, metrics.width, metrics.height, runs.flatten⟩

structure Placed (α : Type) where
  index : Nat
  vertex : Vertex
  x : α
  y : α

/-- Makes the drawings of placed vertices, in place of those before. -/
def placeAll (measure : Measure m α) (style : VertexStyle α) (b : VertexBoxes α)
    (placed : List (Placed α)) : m (VertexBoxes α) := do
  placed.foldlM (fun b p => do
    let (known, b) ← b.metrics measure style p.index p.vertex
    let d ← drawingOf measure style known p.index p.vertex p.x p.y
    return { b with drawings := b.drawings ++ [d] }) { b with drawings := [] }

end Measuring

/-- How a drawing is painted: shadow, border, background, text. -/
def paint (style : VertexStyle α) (selected : Bool) (d : VertexDrawing α) : List (DrawOp α) :=
  let b := style.borderSize
  let o := style.shadowOffset
  let w := d.width + 2.0 * b
  let h := d.height + 2.0 * b
  let shadow := if selected then style.shadowColorSelected else style.shadowColor
  let border := if selected then style.borderColorSelected else style.borderColor
  [.rect (d.x - b + o) (d.y - b + o) w h shadow, .rect (d.x - b) (d.y - b) w h border,
    .rect d.x d.y d.width d.height style.backgroundColor] ++
  d.runs.map fun r =>
    .text r.x r.y r.run.text (r.run.color <|> style.textColor) (fontOf style r.run) style.fontSize

def render (style : VertexStyle α) (selected : Nat → Bool) (b : VertexBoxes α) :
    List (DrawOp α) :=
  b.drawings.flatMap fun d => paint style (selected d.vertex) d

end VertexBoxes

section Hits

variable {α : Type} [Scalar α]

/-- The topmost drawing at a canvas point: the last one that contains it. -/
def hitTest (drawings : List (VertexDrawing α)) (p : Point α) : Option (VertexDrawing α) :=
  drawings.reverse.find? (·.contains p)

def hitTestScreen (drawings : List (VertexDrawing α)) (c : Camera α) (p : Point α) :
    Option (VertexDrawing α) :=
  hitTest drawings (c.screenToCanvas p)

end Hits

end DebugDesk
