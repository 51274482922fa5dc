import DebugDesk.Desk.Frame
import DebugDesk.Menu
import DebugDesk.Session.Animations
import DebugDesk.Session.Drawings
import DebugDesk.Session.Reading
import DebugDesk.Session.Surfaces
import DebugDesk.Session.Views

/-!
# Widget and menu sessions

A graph widget is used on a desk of its own. Menus are used without one: their items are found,
walked and activated.
-/
namespace DebugDesk.Session

/-- No panel takes the place of another. -/
scoped instance : Platform := .simulated id

/-- The item of a description: a category if it has children, else an action, which knows its path
and whether it fails. Only so many levels are read. -/
def menuItem : Nat → (above : List String) → Json → Except Fault (MenuItem (List String × Bool))
  | 0, above, _ => .ok (.action "" (above, false))
  | levels + 1, above, j => do
    let label := toStr (field j "label")
    let path := above ++ [label]
    match j.get? "children" with
    | some children => MenuItem.makeCategory label (← (toList children).mapM (menuItem levels path))
    | none => return .action label (path, toBool (field j "raises"))

def menuItems (tree : Json) : Except Fault (List (MenuItem (List String × Bool))) :=
  (toList tree).mapM (menuItem tree.depth [])

def pathOf (j : Json) : List String := (toList j).map toStr

def callAction (call : List String × Bool) : ExceptT Fault (StateM (List Report)) Unit := do
  modify (· ++ [.strings call.1])
  if call.2 then throw .scripted

def menuStep (items : List (MenuItem (List String × Bool))) (name : String) (args : List Json) :
    Report :=
  let path := pathOf (arg args 0)
  match name with
  | "find" => .orFailed (fun
      | .category label children => .list [.str "category", .str label,
          .strings (children.map MenuItem.label)]
      | .action label _ => .list [.str "action", .str label]) (MenuItem.find items path)
  | "activate" =>
    let (result, called) := (MenuItem.activate callAction items path).run.run []
    .object [("called", .list called), ("result", .orFailed (fun _ => .null) result)]
  | "walk" =>
    .list ((MenuItem.walk path items).map fun (path, item) => .list [.strings path,
      .str (match item with
        | .category .. => "category"
        | .action .. => "action")])
  | _ => .null

def menuSession (input : Json) : Report :=
  .orFailed (fun items => .object [("steps", stepsReport (fun _ name args =>
    (menuStep items name args, ())) (fun _ => ([], ())) () input)])
    (menuItems (field input "tree"))

/-- The action of a step, if it is one of the user's. -/
def userAction? (name : String) (args : List Json) : Option Desk.UserAction :=
  match name with
  | "mouse" => some (.mouse (argPoint args))
  | "down" => some .down
  | "move" => some .move
  | "up" => some .up
  | "wheel" => some (.wheel (toFloat (arg args 0)))
  | "press" => some (.press (toStr (arg args 0)) (ownerOf (arg args 1)))
  | "menu" => some (.menu (pathOf (arg args 0)))
  | "clock" => some (.clock (toInt (arg args 0)))
  | "text" => some (.textMode (textModeOf (arg args 0)))
  | "rect_min" => some (.rectMin (argPoint args))
  | _ => none

def userStep (choose : List String → Effect Desk Unit) (action : Desk.UserAction) :
    Effect Desk Report := do
  return .opt .bool (← Desk.act choose action)

/-- Keeps a graph on the desk; null is none. -/
def keepGraph (description : Json) : Effect Desk (Option Nat) := do
  match ← Effect.ofExcept (graphOf? description) with
  | none => return none
  | some g =>
    let ref := (← get).graphs.length
    modify fun d => { d with graphs := d.graphs.push g }
    return some ref

def takeCalls (d : Desk) : List Toolkit.Call × Desk :=
  let (calls, toolkit) := d.toolkit.takeCalls
  (calls, { d with toolkit })

def takeEvents (d : Desk) : List Desk.Event × Desk := (d.events, { d with events := [] })

def selectedId : Desk.Event → Option Report
  | .selected _ id => some (.opt .int id)
  | _ => none

/-- The settings of a widget, as far as they are given. -/
def widgetSettingsOf (input : Json) : Except Fault Desk.WidgetSettings := do
  let settings := field input "settings"
  let s : CameraSettings Float := .standard
  return {
    style := ← viewStyleOf (field input "config")
    camera := { cameraSettings settings s with zoom := floatField settings "initial_zoom" s.zoom }
    clickSuppression := floatField settings "click_suppress_duration" View.standardClickSuppression
    fonts := fontsOf (field input "fonts") }

def theWidget : Nat := 0

def widgetStep (name : String) (args : List Json) : Effect Desk Report := do
  match userAction? name args with
  | some action => userStep (fun _ => return ()) action
  | none =>
    match name with
    | "frame" =>
      Desk.renderFrame
      return .null
    | "set_graph" =>
      let graph ← keepGraph (arg args 0)
      Desk.setWidgetGraph theWidget graph
      return .null
    | "get_graph" =>
      let shown := (← Desk.widget theWidget).view.shown? (← get).graphs
      return .opt (fun g => .nat g.size) shown
    | "over" =>
      let position ← Desk.vertexOnScreen theWidget (toInt (arg args 0))
      userStep (fun _ => return ()) (.mouse position)
    | "recenter" =>
      Desk.recenterWidget theWidget
      return .null
    | "fit" =>
      Desk.fitWidget theWidget
      return .null
    | "size" =>
      Desk.resizeWidget theWidget (toFloat (arg args 0)) (toFloat (arg args 1))
      return .null
    | "suppress" =>
      Desk.suppressWidget theWidget (toBool (arg args 0))
      return .null
    | "input" =>
      Desk.enableWidget theWidget (toBool (arg args 0))
      return .null
    | "id" => return .str (← Desk.widget theWidget).group
    | "destroy" =>
      Desk.destroyWidget theWidget
      return .null
    | _ => return .null

/-- The calls, either all in full or with those that draw only counted. -/
def chosenCalls (draw : Bool) (calls : List Toolkit.Call) : List (String × Report) :=
  if draw then [("calls", .list (calls.map callReport))] else callFields calls

def widgetState (draw : Bool) (d : Desk) : List (String × Report) × Desk :=
  let (calls, d) := takeCalls d
  let (events, d) := takeEvents d
  let view := (d.widgets[theWidget]?).map Desk.GraphWidget.view
  (chosenCalls draw calls ++
    [("selected", .list (events.filterMap selectedId)),
      ("error", .opt .str (view.bind View.error)),
      ("camera", .opt (fun v => .list [.rounded v.camera.x, .rounded v.camera.y,
        .rounded v.camera.zoom, .str (cameraStateName v.camera.state)]) view),
      ("animations", .nat d.registry.length)], d)

def deskStep (step : String → List Json → Effect Desk Report) (d : Desk) (name : String)
    (args : List Json) : Report × Desk :=
  let (result, d) := (step name args).outcome d
  (.ofExcept result, d)

def widgetSession (input : Json) : Report :=
  .ofExcept do
    let settings ← widgetSettingsOf input
    let draw := flagOr true (field? input "draw")
    let (made, d) := (Desk.makeWidget "top" (ownerOf (field input "tag"))
      (floatField input "width" 400) (floatField input "height" 300) settings none).outcome
      (.empty (.make PanelManager.standardGrid PanelManager.standardStage))
    let _ ← made
    let (start, d) := widgetState draw d
    return .object [("start", .object start),
      ("steps", stepsReport (deskStep widgetStep) (widgetState draw) d input)]

end DebugDesk.Session
