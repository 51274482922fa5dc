import DebugDesk.Number.Scalar

/-!
# Panels

A panel is a floating window of the workspace: it is moved and resized by drags that snap to a grid,
collapsed to its header, and faded out when it closes. What it shows is told of changes by signals.
-/
namespace DebugDesk

/-- What the content of a panel, or whoever is bound to the panel, is told. -/
inductive PanelSignal (α β : Type) where
  /-- The body has a new size. -/
  | resized (width height : α)
  /-- The panel begins or ends to be moved or resized. -/
  | suppressed (flag : Bool)
  | destroyed
  | released (binding : β)

inductive Gesture where
  | move
  | resize
  deriving DecidableEq, Repr

structure Panel (α β : Type) where
  title : String
  /-- Where the top left corner is. -/
  x : α
  y : α
  /-- How often it was put elsewhere. -/
  moves : Nat
  /-- The size when expanded, kept while collapsed. -/
  width : α
  height : α
  expanded : Bool
  headerHeight : α
  minWidth : α
  minHeight : α
  /-- The manager that has the panel. -/
  manager : Option Nat
  z : Nat
  focused : Bool
  /-- Whether it is shown above all others. -/
  elevated : Bool
  gesture : Option Gesture
  /-- Where the pointer was when the gesture began. -/
  press : Point α
  /-- The position, or the size, when the gesture began. -/
  start : Point α
  closing : Bool
  closed : Bool
  bodyOpacity : α
  headerOpacity : α
  /-- How much of its size is gone: nothing at 0, all at 1. -/
  collapse : α
  /-- What is bound to the panel, in order of binding. -/
  bindings : List β

def dragZ : Nat := 1000

namespace Panel

variable {α β : Type}

/-- The height of a panel when it is shown in full: of a collapsed panel, the header. -/
def renderedHeight (p : Panel α β) : α := if p.expanded then p.height else p.headerHeight

def displayZ (p : Panel α β) : Nat := if p.elevated then dragZ else p.z

def isDragging (p : Panel α β) : Bool := p.gesture.isSome

def bind (p : Panel α β) (binding : β) : Panel α β := { p with bindings := p.bindings ++ [binding] }

def releaseBindings (p : Panel α β) : Panel α β × List (PanelSignal α β) :=
  ({ p with bindings := [] }, p.bindings.map .released)

def endMove (p : Panel α β) : Panel α β × List (PanelSignal α β) :=
  if p.gesture = some .move then
    ({ p with gesture := none, elevated := false }, [.suppressed false])
  else (p, [])

def endResize (p : Panel α β) : Panel α β × List (PanelSignal α β) :=
  if p.gesture = some .resize then ({ p with gesture := none }, [.suppressed false]) else (p, [])

def cancelGesture (p : Panel α β) : Panel α β × List (PanelSignal α β) :=
  match p.gesture with
  | some .move => p.endMove
  | some .resize => p.endResize
  | none => (p, [])

def beginMove (p : Panel α β) (pointer : Point α) : Panel α β × List (PanelSignal α β) :=
  ({ p with
    gesture := some .move, press := pointer, start := ⟨p.x, p.y⟩, elevated := true },
    [.suppressed true])

def beginResize (p : Panel α β) (pointer : Point α) : Panel α β × List (PanelSignal α β) :=
  ({ p with gesture := some .resize, press := pointer, start := ⟨p.width, p.height⟩ },
    [.suppressed true])

variable [Scalar α]

def standardHandle : α := 12.0

/-- A panel in full view, without a manager. -/
def make (title : String) (x y width height : α) (expanded : Bool)
    (headerHeight minWidth minHeight : α) : Panel α β :=
  { title, x, y, moves := 0, width, height, expanded, headerHeight, minWidth, minHeight
    manager := none, z := 0, focused := false
    elevated := false, gesture := none, press := ⟨0.0, 0.0⟩, start := ⟨0.0, 0.0⟩
    closing := false, closed := false
    bodyOpacity := 1.0, headerOpacity := 1.0, collapse := 0.0, bindings := [] }

def bodyHeight (p : Panel α β) : α := p.height - p.headerHeight

structure Rect (α : Type) where
  x : α
  y : α
  width : α
  height : α

/-- Where the panel is shown, with the share that has collapsed taken off. -/
def rect (p : Panel α β) : Rect α :=
  let scale := 1.0 - p.collapse
  ⟨p.x, p.y, p.width * scale, p.renderedHeight * scale⟩

def contains (p : Panel α β) (pointer : Point α) : Bool :=
  let r := p.rect
  r.x ≤ pointer.x && pointer.x < r.x + r.width && r.y ≤ pointer.y && pointer.y < r.y + r.height

def headerContains (p : Panel α β) (pointer : Point α) : Bool :=
  let r := p.rect
  r.x ≤ pointer.x && pointer.x < r.x + r.width &&
    r.y ≤ pointer.y && pointer.y < r.y + Scalar.lesser p.headerHeight r.height

/-- Whether a point is on the square in the bottom right corner, which only expanded panels have. -/
def handleContains (p : Panel α β) (pointer : Point α) (size : α) : Bool :=
  let r := p.rect
  p.expanded && r.x + r.width - size ≤ pointer.x && pointer.x < r.x + r.width &&
    r.y + r.height - size ≤ pointer.y && pointer.y < r.y + r.height

/-- Collapses an expanded panel, or expands a collapsed one to its size of before. -/
def toggleExpanded (p : Panel α β) : Panel α β × List (PanelSignal α β) :=
  if p.closing then (p, [])
  else
    let p := { p with expanded := !p.expanded }
    (p, if p.expanded then [.resized p.width p.bodyHeight] else [])

/-- Moves on, to the grid; tells whether the position changed. -/
def moveTo (p : Panel α β) (grid : α) (pointer : Point α) : Except Fault (Bool × Panel α β) := do
  if p.gesture ≠ some .move then return (false, p)
  let x ← Scalar.snap (p.start.x + pointer.x - p.press.x) grid
  let y ← Scalar.snap (p.start.y + pointer.y - p.press.y) grid
  if x == p.x && y == p.y then return (false, p)
  return (true, { p with x, y, moves := p.moves + 1 })

/-- Resizes on, in steps of the grid and not below the least size; tells whether the size
changed. -/
def resizeTo (p : Panel α β) (grid : α) (pointer : Point α) : Except Fault (Bool × Panel α β) := do
  if p.gesture ≠ some .resize then return (false, p)
  let right ← Scalar.snap (pointer.x - p.press.x) grid
  let down ← Scalar.snap (pointer.y - p.press.y) grid
  let width := Scalar.greater (p.start.x + right) p.minWidth
  let height := Scalar.greater (p.start.y + down) p.minHeight
  if width == p.width && height == p.height then return (false, p)
  return (true, { p with width, height })

/-- Fades the panel out, at a time in stages since the close began: first its body, then its header
while it collapses. Tells whether that is over. -/
def fade (p : Panel α β) (stages : α) : Bool × Panel α β :=
  if stages < 1.0 then (false, { p with bodyOpacity := 1.0 - Scalar.greater stages 0.0 })
  else if stages < 2.0 then
    (false, { p with bodyOpacity := 0.0, headerOpacity := 2.0 - stages, collapse := stages - 1.0 })
  else (true, { p with bodyOpacity := 0.0, headerOpacity := 0.0, collapse := 1.0 })

end Panel

end DebugDesk
