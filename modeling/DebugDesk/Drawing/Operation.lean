import DebugDesk.Color
import DebugDesk.Effect
import DebugDesk.Geometry.Matrix

/-!
# Drawing operations

What a view paints is a list of operations in canvas coordinates. A surface carries them out under
the transform set last, and measures text. One that records what is drawn measures text as if all
characters were of one width. Other surfaces may leave out operations, which fail when they are
used.
-/
namespace DebugDesk

/-- The size of a text; the ascent is above its baseline, the descent below. -/
structure TextMetrics (α : Type) where
  width : α
  ascent : α
  descent : α
  deriving Repr

def TextMetrics.height {α : Type} [Scalar α] (m : TextMetrics α) : α := m.ascent + m.descent

abbrev Measure (m : Type → Type) (α : Type) :=
  (text font : String) → (size : α) → m (TextMetrics α)

inductive DrawOp (α : Type) where
  /-- Sets the transform from the canvas to the screen. -/
  | transform (matrix : Matrix3 α)
  /-- Removes what is drawn, and fills with a color. -/
  | clear (color : Ink)
  | rect (x y width height : α) (color : Ink)
  | polyline (points : List (Point α)) (color : Ink) (thickness : α)
  /-- Text whose baseline begins at a point. -/
  | text (x y : α) (text : String) (color : Ink) (font : String) (size : α)

/-- A call as it is recorded. -/
inductive Recorded (α : Type) where
  | clear (color : Ink)
  | rect (x y width height : α) (color : Ink)
  | polyline (points : List (Point α)) (color : Ink) (thickness : α)
  | text (x y : α) (text : String) (color : Ink) (font : String) (size : α)

namespace Recorded

def kind {α : Type} : Recorded α → String
  | clear _ => "clear"
  | rect .. => "rect"
  | polyline .. => "polyline"
  | text .. => "text"

end Recorded

structure RecordingSurface (α : Type) where
  matrix : Matrix3 α
  calls : List (Recorded α)

namespace RecordingSurface

variable {α : Type} [Scalar α]

def empty : RecordingSurface α := ⟨.one, []⟩

/-- What one operation is recorded as under a transform. -/
def record (m : Matrix3 α) : DrawOp α → Option (Recorded α)
  | .transform _ => none
  | .clear color => some (.clear color)
  | .rect x y width height color =>
    let p := m.map ⟨x, y⟩
    let q := m.map ⟨x + width, y + height⟩
    some (.rect p.x p.y (q.x - p.x) (q.y - p.y) color)
  | .polyline points color thickness =>
    some (.polyline (points.map m.map) color (thickness * m.first.x))
  | .text x y text color font size =>
    let p := m.map ⟨x, y⟩
    some (.text p.x p.y text color font (size * m.first.x))

def draw (s : RecordingSurface α) (op : DrawOp α) : RecordingSurface α :=
  match op with
  | .transform m => { s with matrix := m }
  | .clear color => { s with calls := [.clear color] }
  | op => { s with calls := s.calls ++ (record s.matrix op).toList }

def drawAll (s : RecordingSurface α) (ops : List (DrawOp α)) : RecordingSurface α :=
  ops.foldl draw s

def ofKind (s : RecordingSurface α) (kind : String) : List (Recorded α) :=
  s.calls.filter (·.kind = kind)

/-- Six tenths of the size per character; the baseline is at four fifths of the height. -/
def measure (text : String) (_font : String) (size : α) : TextMetrics α :=
  { width := 0.6 * size * Scalar.ofInt text.length
    ascent := 0.8 * size
    descent := 0.2 * size }

end RecordingSurface

namespace Drawing

def leftOut {σ β : Type} : Effect σ β := throw .notImplemented

/-- A surface with a state of its own. -/
structure Surface (σ : Type) where
  clear : Ink → Effect σ Unit := fun _ => leftOut
  fillRect : (x y width height : Float) → Ink → Effect σ Unit := fun _ _ _ _ _ => leftOut
  strokePolyline : List (Point Float) → Ink → (thickness : Float) → Effect σ Unit :=
    fun _ _ _ => leftOut
  drawText : (x y : Float) → (text : String) → Ink → (font : String) → (size : Float) →
    Effect σ Unit := fun _ _ _ _ _ _ => leftOut
  measureText : (text font : String) → (size : Float) → Effect σ (TextMetrics Float) :=
    fun _ _ _ => leftOut

/-- What draws vertices, which are told by position. -/
structure VertexRenderer (σ : Type) where
  metrics : Nat → Effect σ (Float × Float) := fun _ => leftOut
  preprocess : List (Nat × Point Float) → Effect σ Unit := fun _ => leftOut
  render : Effect σ Unit := leftOut
  clear : Effect σ Unit := pure ()

/-- What draws edges, which are told by position. -/
structure EdgeRenderer (σ : Type) where
  preprocess : List (Nat × Nat) → Effect σ Unit := fun _ => leftOut
  route : Effect σ (List (List (Point Float))) := leftOut
  render : Effect σ Unit := leftOut
  clear : Effect σ Unit := leftOut

end Drawing

end DebugDesk
