import DebugDesk.Session.Cameras
import DebugDesk.Toolkit.Drawlist

/-!
# Surface sessions

Drawing into a drawlist of the toolkit, and looking at items of the toolkit.
-/
namespace DebugDesk.Session

mutual

def valueReport : Toolkit.Value → Report
  | .nothing => .null
  | .flag b => .bool b
  | .number x => .rounded x
  | .text s => .str s
  | .broken points => .json (.broken points)
  | .list values => .list (valueReports values)
  | .hidden => .str "<fn>"

def valueReports : List Toolkit.Value → List Report
  | [] => []
  | v :: rest => valueReport v :: valueReports rest

def memberReports : List (String × Toolkit.Value) → List (String × Report)
  | [] => []
  | (name, v) :: rest => (name, valueReport v) :: memberReports rest

end

def callReport (c : Toolkit.Call) : Report :=
  .list [.str c.function, .list (valueReports c.arguments), .object (memberReports c.options)]

def isDraw (c : Toolkit.Call) : Bool := c.function.startsWith "draw_"

def countReport (functions : List String) : Report :=
  .object (functions.eraseDups.map fun f => (f, .nat (functions.count f)))

/-- Calls in full except those that draw, which are counted. -/
def callFields (calls : List Toolkit.Call) : List (String × Report) :=
  [("calls", .list ((calls.filter (!isDraw ·)).map callReport)),
    ("draws", countReport ((calls.filter isDraw).map Toolkit.Call.function))]

/-- A value of the toolkit from JSON. -/
def scalarValue : Json → Toolkit.Value
  | .str s => .text s
  | .broken points => .broken points
  | .bool b => .flag b
  | .null => .nothing
  | j => .number (toFloat j)

def fontsOf (j : Json) : List (String × Toolkit.Value) :=
  match j with
  | .object members => members.map fun (family, id) => (family, scalarValue id)
  | _ => []

def textModeOf : Json → Toolkit.TextMode
  | .str "zero" => .zero
  | .str "on" => .measured
  | _ => .unknown

/-- What a user does to a toolkit without callbacks. -/
def toolkitStep? {κ : Type} (t : Toolkit κ) (name : String) (args : List Json) :
    Option (Report × Toolkit κ) :=
  match name with
  | "mouse" => some (.null, { t with mouse := argPoint args })
  | "text" => some (.null, { t with textMode := textModeOf (arg args 0) })
  | "rect_min" => some (.null, { t with rectMin := argPoint args })
  | "press" | "menu" => some (.bool false, t)
  | _ => none

structure DrawlistState where
  surface : DrawlistSurface
  toolkit : Toolkit Unit

def paintStep (s : DrawlistState) (op : DrawOp Float) : Report × DrawlistState :=
  let (result, toolkit) := (s.surface.paintOne op).outcome s.toolkit
  (.orFailed (fun _ => .null) result, { s with toolkit })

def paintColored (s : DrawlistState) (color : Json) (op : Ink → DrawOp Float) :
    Report × DrawlistState :=
  match colorOf color with
  | .ok color => paintStep s (op color)
  | .error fault => (.failed fault, s)

def drawlistStep (s : DrawlistState) (name : String) (args : List Json) : Report × DrawlistState :=
  let number (i : Nat) : Float := toFloat (arg args i)
  match toolkitStep? s.toolkit name args with
  | some (result, toolkit) => (result, { s with toolkit })
  | none =>
    match name with
    | "measure" =>
      let (m, surface) :=
        DrawlistSurface.measure s.toolkit (toStr (arg args 0)) (toStr (arg args 1))
        (number 2) s.surface
      (.list [.rounded m.width, .rounded m.ascent, .rounded m.descent, .rounded m.height],
        { s with surface })
    | "camera" =>
      match arg args 0 with
      | .null => (.null, { s with surface := { s.surface with matrix := .one } })
      | j => orKeep s do
        return { s with surface := { s.surface with matrix := (← cameraOf j).matrix } }
    | "screen" =>
      let p := s.surface.toScreen (number 0) (number 1)
      (.list [.rounded p.x, .rounded p.y, .rounded s.surface.scale], s)
    | "clear" => paintColored s (arg args 0) .clear
    | "rect" => paintColored s (arg args 4) (.rect (number 0) (number 1) (number 2) (number 3))
    | "line" =>
      paintColored s (arg args 1) fun c =>
        .polyline ((toList (arg args 0)).map pointOf) c (number 2)
    | "draw" =>
      paintColored s (arg args 3) fun c =>
        .text (number 0) (number 1) (toStr (arg args 2)) c (toStr (arg args 4)) (number 5)
    | _ => (.null, s)

def drawlistSession (input : Json) : Report :=
  let (id, toolkit) := (Toolkit.empty (κ := Unit)).make "add_drawlist" []
    [("width", .number (floatField input "width" 100)),
      ("height", .number (floatField input "height" 80))] none
  .object [("steps", stepsReport drawlistStep (fun s =>
    let (calls, toolkit) := s.toolkit.takeCalls
    ([("calls", .list (calls.map callReport))], { s with toolkit }))
    { surface := .make id (fontsOf (field input "fonts")), toolkit } input)]

def itemStep (t : Toolkit Unit) (name : String) (args : List Json) : Report × Toolkit Unit :=
  let tag := toStr (arg args 0)
  let number (i : Nat) : Toolkit.Value := .number (toFloat (arg args i))
  let sized : Toolkit.Options := [("tag", .text tag), ("parent", .text (toStr (arg args 1))),
    ("width", number 2), ("height", number 3)]
  match toolkitStep? t name args with
  | some result => result
  | none =>
    match name with
    | "window" =>
      let options := [("tag", .text tag), ("label", .text tag),
        ("pos", .list [number 1, number 2]), ("width", number 3), ("height", number 4)]
      (.null, (t.make "window" [] options none).2)
    | "child" => (.null, (t.make "child_window" [] sized none).2)
    | "drawlist" => (.null, (t.make "add_drawlist" [] sized none).2)
    | "delete" => (.null, (t.delete (some tag)).2)
    | "pos" => (.orFailed pointReport (t.positionOf tag), t)
    | "size" => (.orFailed (fun (w, h) => .list [.rounded w, .rounded h]) (t.sizeOf tag), t)
    | "mouse_in" => (.ofExcept do
        let p ← t.mouseIn tag
        return .list [.rounded p.x, .rounded p.y, .bool (← t.isMouseInside tag)], t)
    | _ => (.null, t)

def itemSession (input : Json) : Report :=
  .object [("steps", stepsReport itemStep (fun t =>
    let (calls, t) := t.takeCalls
    ([("calls", .list (calls.map callReport))], t)) .empty input)]

end DebugDesk.Session
