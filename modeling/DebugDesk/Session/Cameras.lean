import DebugDesk.Session.Reading

/-!
# Camera sessions

A camera follows pointers, wheels and touches.
-/
namespace DebugDesk.Session

def pointReport (p : Point Float) : Report := .list [.rounded p.x, .rounded p.y]

def pointOf (j : Json) : Point Float := ⟨toFloat (arg (toList j) 0), toFloat (arg (toList j) 1)⟩

def argPoint (args : List Json) : Point Float := ⟨toFloat (arg args 0), toFloat (arg args 1)⟩

def cameraSettings (j : Json) (s : CameraSettings Float) : CameraSettings Float :=
  { zoom := floatField j "zoom" s.zoom
    minZoom := floatField j "min_zoom" s.minZoom
    maxZoom := floatField j "max_zoom" s.maxZoom
    sensitivity := floatField j "scroll_sensitivity" s.sensitivity
    notch := floatField j "wheel_notch_delta" s.notch }

def cameraOf (j : Json) : Except Fault (Camera Float) :=
  Camera.make (floatField j "width" 800) (floatField j "height" 600) (cameraSettings j .standard)

def cameraStateName : CameraState → String
  | .idle => "idle"
  | .panning => "panning"
  | .pinching => "pinching"

def cameraReport (c : Camera Float) : List (String × Report) :=
  [("x", .rounded c.x), ("y", .rounded c.y), ("zoom", .rounded c.zoom),
    ("last_zoom", .rounded c.lastZoom), ("state", .str (cameraStateName c.state)),
    ("origin", pointReport c.origin), ("baseline", .opt Report.rounded c.baseline),
    ("trackpad", .bool c.trackpad), ("size", .list [.rounded c.width, .rounded c.height]),
    ("dirty", .bool c.dirty)]

def matrixReport (m : Matrix3 Float) : Report :=
  .list ([m.first, m.second, m.third].map fun r => .list (r.toList.map Report.rounded))

def cameraStep (c : Camera Float) (name : String) (args : List Json) : Report × Camera Float :=
  let p := argPoint args
  match name with
  | "down" => orKeep c (c.pointerDown p)
  | "move" =>
    match c.pointerMove p with
    | .ok (moved, c) => (.bool moved, c)
    | .error f => (.failed f, c)
  | "up" => (.null, c.pointerUp)
  | "wheel" => (.null, c.wheel p.x)
  | "touch" => orKeep c (c.touchMove ((toList (arg args 0)).map pointOf))
  | "touch_end" => (.null, c.touchEnd)
  | "zoom" => (.null, c.setZoom p.x)
  | "pos" => (.null, c.setPosition p.x p.y)
  | "center" => (.null, c.recenter p)
  | "fit_size" =>
    orKeep c (c.zoomToFit p.x p.y (match arg? args 2 with
      | some m => toFloat m
      | none => Camera.fitMargin))
  | "size" => (.null, c.setSize p.x p.y)
  | "dirty" =>
    let (dirty, c) := c.consumeDirty
    (.bool dirty, c)
  | "c2s" => (pointReport (c.canvasToScreen p), c)
  | "s2c" => (pointReport (c.screenToCanvas p), c)
  | "matrix" => (matrixReport c.matrix, c)
  | "inverse" => (matrixReport c.inverseMatrix, c)
  | _ => (.null, c)

def cameraSession (input : Json) : Report :=
  .orFailed (fun c => .object [("start", .object (cameraReport c)),
    ("steps", stepsReport cameraStep (fun c => (cameraReport c, c)) c input)])
    (cameraOf (field input "camera"))

end DebugDesk.Session
