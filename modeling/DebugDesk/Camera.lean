import DebugDesk.Geometry.Matrix

/-!
# Camera

The camera of a graph view pans and zooms. A canvas point is shown at `center + zoom * (point -
center + position)`, so zooming is about the center of the viewport. Pointers pan, wheels and pairs
of touches zoom; whatever changes what is visible marks the camera dirty, until the mark is
consumed.
-/
namespace DebugDesk

inductive CameraState where
  | idle
  | panning
  | pinching
  deriving DecidableEq, Repr

structure CameraSettings (α : Type) where
  zoom : α
  minZoom : α
  maxZoom : α
  /-- Change of zoom per unit of wheel movement. -/
  sensitivity : α
  /-- Wheel movement that one notch of a mouse wheel counts as. -/
  notch : α

def CameraSettings.standard {α : Type} [Scalar α] : CameraSettings α :=
  ⟨1.0, 0.1, 5.0, 0.005, 100.0⟩

structure Camera (α : Type) where
  width : α
  height : α
  minZoom : α
  maxZoom : α
  sensitivity : α
  notch : α
  x : α
  y : α
  zoom : α
  /-- The zoom that a pinch is relative to. -/
  lastZoom : α
  state : CameraState
  /-- Where the pointer went down, in camera coordinates. -/
  origin : Point α
  /-- Squared distance of the two pointers when the pinch began. -/
  baseline : Option α
  /-- Whether the latest wheel event was fractional, as a trackpad's are. -/
  trackpad : Bool
  dirty : Bool

namespace Camera

variable {α : Type} [Scalar α]

def make (width height : α) (s : CameraSettings α) : Except Fault (Camera α) :=
  if s.minZoom ≤ 0.0 || s.maxZoom < s.minZoom then
    .error (.zoomLimits (Scalar.text s.minZoom) (Scalar.text s.maxZoom))
  else
    let zoom := Scalar.clamp s.zoom s.minZoom s.maxZoom
    .ok
      { width, height
        minZoom := s.minZoom, maxZoom := s.maxZoom
        sensitivity := s.sensitivity, notch := s.notch
        x := 0.0, y := 0.0
        zoom, lastZoom := zoom
        state := .idle, origin := ⟨0.0, 0.0⟩, baseline := none
        trackpad := false, dirty := true }

def matrix (c : Camera α) : Matrix3 α :=
  let cx := c.width / 2.0
  let cy := c.height / 2.0
  ((Matrix3.translation cx cy).mul (Matrix3.scaling c.zoom)).mul
    (Matrix3.translation (-cx + c.x) (-cy + c.y))

def inverseMatrix (c : Camera α) : Matrix3 α := c.matrix.inverse

def canvasToScreen (c : Camera α) (p : Point α) : Point α := c.matrix.map p

def screenToCanvas (c : Camera α) (p : Point α) : Point α := c.inverseMatrix.map p

def setSize (c : Camera α) (width height : α) : Camera α :=
  if width == c.width && height == c.height then c else { c with width, height, dirty := true }

def setPosition (c : Camera α) (x y : α) : Camera α :=
  if x == c.x && y == c.y then c else { c with x, y, dirty := true }

def recenter (c : Camera α) (p : Point α) : Camera α :=
  c.setPosition (c.width / 2.0 - p.x) (c.height / 2.0 - p.y)

def zoomTo (c : Camera α) (zoom : α) : Camera α :=
  let zoom := Scalar.clamp zoom c.minZoom c.maxZoom
  if zoom == c.zoom then c else { c with zoom, dirty := true }

/-- Zooms, and makes that the zoom that a pinch is relative to. -/
def setZoom (c : Camera α) (zoom : α) : Camera α :=
  let c := c.zoomTo zoom
  { c with lastZoom := c.zoom }

def fitMargin : α := 0.9

def zoomToFit (c : Camera α) (width height margin : α) : Except Fault (Camera α) := do
  if width ≤ 0.0 || height ≤ 0.0 then return c
  let across ← Scalar.divide c.width width
  let down ← Scalar.divide c.height height
  return c.setZoom (margin * Scalar.lesser across down)

/-- Begins to pan, unless a pinch is going on. -/
def pointerDown (c : Camera α) (p : Point α) : Except Fault (Camera α) := do
  if c.state = .pinching then return c
  let x ← Scalar.divide p.x c.zoom
  let y ← Scalar.divide p.y c.zoom
  return { c with state := .panning, origin := ⟨x - c.x, y - c.y⟩ }

/-- Pans on; tells whether the camera moved. -/
def pointerMove (c : Camera α) (p : Point α) : Except Fault (Bool × Camera α) := do
  if c.state ≠ .panning then return (false, c)
  let x := (← Scalar.divide p.x c.zoom) - c.origin.x
  let y := (← Scalar.divide p.y c.zoom) - c.origin.y
  if x == c.x && y == c.y then return (false, c)
  return (true, { c with x, y, dirty := true })

def pointerUp (c : Camera α) : Camera α :=
  { c with state := if c.state = .panning then .idle else c.state, lastZoom := c.zoom }

def isWhole (x : α) : Bool :=
  match Scalar.floor x with
  | .ok n => Scalar.ofInt n == x
  | .error _ => false

/-- Zooms by a wheel, outward for a positive movement. Whole movements are notches. Panning goes
before. -/
def wheel (c : Camera α) (delta : α) : Camera α :=
  if c.state = .panning then c
  else
    let whole := isWhole delta
    let delta := if whole then delta * c.notch else delta
    { c with trackpad := !whole }.zoomTo (c.zoom - delta * c.sensitivity)

/-- Ends whatever gesture two touches were, and makes its zoom the one that the next is
relative to. -/
def touchEnd (c : Camera α) : Camera α :=
  if c.state = .pinching then { c with state := .idle, baseline := none, lastZoom := c.zoom }
  else { c with lastZoom := c.zoom }

def consumeDirty (c : Camera α) : Bool × Camera α := (c.dirty, { c with dirty := false })

end Camera

namespace Camera

variable {α : Type} [RootScalar α]

def checkedRoot (x : α) : Except Fault α :=
  if x < 0.0 then .error .rootOfNegative else .ok (RootScalar.root x)

/-- The baseline of a pinch that is going on. A baseline of zero is none. -/
def pinchBaseline? (c : Camera α) : Option α :=
  match c.state, c.baseline with
  | .pinching, some b => if b == 0.0 then none else some b
  | _, _ => none

/-- Zooms by the distance of two touches, relative to the first sample of them. Other numbers of
touches do nothing. -/
def touchMove (c : Camera α) : List (Point α) → Except Fault (Camera α)
  | [p, q] => do
    let d := Scalar.squareDistance p.x p.y q.x q.y
    match c.pinchBaseline? with
    | none =>
      return { c with
        state := .pinching
        baseline := if 0.0 < d then some d else none
        lastZoom := c.zoom }
    | some b => return c.zoomTo ((← checkedRoot (← Scalar.divide d b)) * c.lastZoom)
  | _ => .ok c

end Camera

end DebugDesk
