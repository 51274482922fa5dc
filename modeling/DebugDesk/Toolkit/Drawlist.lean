import DebugDesk.Drawing.Operation
import DebugDesk.Toolkit.Basic

/-!
# Drawing into a drawlist

A surface that carries out drawing operations by the shapes of the toolkit. Text is measured by the
toolkit as soon as it can tell sizes, and these measurements are kept; before that all characters
count as of one width.
-/
namespace DebugDesk

structure DrawlistSurface where
  drawlist : String
  /-- The fonts of the toolkit by family. -/
  fonts : List (String × Toolkit.Value)
  /-- The transform set last. -/
  matrix : Matrix3 Float
  /-- Width and height of the texts measured so far, by text, family and size. -/
  sizes : List ((String × String × Float) × (Float × Float))

namespace DrawlistSurface

variable {τ κ : Type} [Gui τ κ]

def make (drawlist : String) (fonts : List (String × Toolkit.Value)) : DrawlistSurface :=
  ⟨drawlist, fonts, .one, []⟩

def ascentShare : Float := 0.8

def toScreen (s : DrawlistSurface) (x y : Float) : Point Float := s.matrix.map ⟨x, y⟩

def scale (s : DrawlistSurface) : Float := s.matrix.first.x

def metrics (width height : Float) : TextMetrics Float :=
  { width, ascent := ascentShare * height, descent := (1.0 - ascentShare) * height }

def kept? (s : DrawlistSurface) (text font : String) (size : Float) : Option (Float × Float) :=
  (s.sizes.find? fun ((t, f, z), _) => t == text && f == font && z == size).map Prod.snd

/-- The size that the toolkit gives for a text, brought to the size asked for; empty text has
none. -/
def measured? (s : DrawlistSurface) (t : τ) (text font : String) (size : Float) :
    Option (Float × Float) :=
  if text = "" then none
  else
    match Gui.textSize t text ((s.fonts.lookup font).getD (.number 0)) with
    | some (w, h) => if 0 < h then some (w * (size / h), size) else none
    | none => none

/-- Measures a text. -/
def measure (t : τ) : Measure (StateM DrawlistSurface) Float :=
  fun text font size s =>
    match s.kept? text font size with
    | some (w, h) => (metrics w h, s)
    | none =>
      match s.measured? t text font size with
      | some (w, h) =>
        (metrics w h, { s with sizes := s.sizes ++ [((text, font, size), (w, h))] })
      | none => (metrics (0.6 * size * Binary64.ofInt (text.length : Int)) size, s)

def colorValue : Ink → Except Fault Toolkit.Value
  | some c => return .list ((← Color.channels c.toList).map fun n => .number (Binary64.ofInt n))
  | none => .error .noColor

def pointValue (p : Point Float) : Toolkit.Value := .point p.x p.y

def shape (s : DrawlistSurface) (kind : String) (arguments : List Toolkit.Value)
    (options : Toolkit.Options) : Effect τ String :=
  Effect.change (Gui.draw · kind arguments options s.drawlist)

def rectangle (s : DrawlistSurface) (p q : Point Float) (color : Ink)
    (more : Toolkit.Options) : Effect τ Unit := do
  let value ← Effect.ofExcept (colorValue color)
  let _ ← s.shape "draw_rectangle" [pointValue p, pointValue q]
    ([("color", value), ("fill", value)] ++ more)

/-- Carries out an operation other than setting the transform. Lines of less than two points and
text too small to read are left out. -/
def paintOne (s : DrawlistSurface) : DrawOp Float → Effect τ Unit
  | .transform _ => return ()
  | .clear color => do
    Gui.deleteChildren (some s.drawlist) .all
    let (w, h) := Gui.extentOf (← get) s.drawlist
    s.rectangle ⟨0, 0⟩ ⟨w, h⟩ color []
  | .rect x y width height color =>
    s.rectangle (s.toScreen x y) (s.toScreen (x + width) (y + height)) color
      [("thickness", .number 0)]
  | .polyline points color thickness => do
    if points.length < 2 then return ()
    let _ ← s.shape "draw_polyline" [.list (points.map fun p => pointValue (s.toScreen p.x p.y))]
      [("color", ← Effect.ofExcept (colorValue color)),
        ("thickness", .number (thickness * s.scale))]
  | .text x y text color font size => do
    let shown := size * s.scale
    if shown < 1.0 then return ()
    let p := s.toScreen x y
    let item ← s.shape "draw_text" [.point p.x (p.y - ascentShare * shown), .text text]
      [("color", ← Effect.ofExcept (colorValue color)), ("size", .number shown)]
    match s.fonts.lookup font with
    | some id => modify (Gui.call · "bind_item_font" [.text item, id] [])
    | none => return ()

/-- Carries out operations one after the other; the surface afterwards has the transform set
last. -/
def paint (s : DrawlistSurface) : List (DrawOp Float) → Effect τ DrawlistSurface
  | [] => return s
  | .transform m :: rest => paint { s with matrix := m } rest
  | op :: rest => do
    s.paintOne op
    paint s rest

end DrawlistSurface

end DebugDesk
