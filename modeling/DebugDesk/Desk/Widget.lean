import DebugDesk.Desk.Basic

/-!
# Graph widgets

A graph widget shows a view in a drawlist of the toolkit, follows the mouse, and repaints once per
frame as far as needed.
-/
namespace DebugDesk.Desk

variable [Platform]

def widget (w : Nat) : Effect Desk GraphWidget := do
  match (← get).widgets[w]? with
  | some widget => return widget
  | none => throw .missing

def changeWidget (w : Nat) (f : GraphWidget → GraphWidget) : Effect Desk Unit :=
  modify fun d => { d with widgets := d.widgets.modify w f }

def changeView (w : Nat) (f : View Float → View Float) : Effect Desk Unit :=
  changeWidget w fun widget => { widget with view := f widget.view }

def tryView (w : Nat) (f : View Float → Except Fault (View Float)) : Effect Desk Unit := do
  let view ← Effect.ofExcept (f (← widget w).view)
  changeView w fun _ => view

/-- Makes a graph widget inside an item, and has it called once per frame; tells its number. -/
def makeWidget (parent : String) (tag : Option String) (width height : Float)
    (settings : WidgetSettings) (panel : Option Nat) : Effect Desk Nat := do
  let group ← make "add_group" [] (("parent", .text parent) ::
    match tag with
    | some tag => [("tag", .text tag)]
    | none => []) none
  let drawlist ← make "add_drawlist" []
    [("width", .number width), ("height", .number height), ("parent", .text group)] none
  let camera ← Effect.ofExcept (Camera.make width height settings.camera)
  let view := View.make camera settings.style View.standardDragThreshold settings.clickSuppression
  let w := (← get).widgets.length
  let (handlers, _) ← makeAround "handler_registry" [] [] do
    let _ ← makeActive "add_mouse_click_handler" leftButton (.widgetPress w)
    let _ ← makeActive "add_mouse_move_handler" [] (.widgetMove w)
    let _ ← makeActive "add_mouse_release_handler" leftButton (.widgetRelease w)
    makeActive "add_mouse_wheel_handler" [] (.widgetWheel w)
  modify fun d => { d with widgets := d.widgets ++
    [⟨group, handlers, .make drawlist settings.fonts, view, true, panel⟩] }
  registration.add (.widget w)
  return w

def setWidgetGraph (w : Nat) (graph : Option Nat) : Effect Desk Unit := do
  let (view, graphs) := (← widget w).view.setGraph (← get).graphs graph
  changeView w fun _ => view
  modify fun d => { d with graphs }

def recenterWidget (w : Nat) : Effect Desk Unit := do
  let graphs := (← get).graphs
  tryView w (·.recenter graphs)

def fitWidget (w : Nat) : Effect Desk Unit := tryView w View.zoomToFit

def resizeWidget (w : Nat) (width height : Float) : Effect Desk Unit := do
  configure (← widget w).surface.drawlist [("width", .number width), ("height", .number height)]
  changeView w fun v => { v with camera := v.camera.setSize width height }

def suppressWidget (w : Nat) (flag : Bool) : Effect Desk Unit := changeView w (·.setSuppressed flag)

def enableWidget (w : Nat) (flag : Bool) : Effect Desk Unit :=
  changeWidget w fun widget => { widget with inputEnabled := flag }

def destroyWidget (w : Nat) : Effect Desk Unit := do
  registration.cancel (.widget w) false
  let widget ← widget w
  deleteItem widget.handlers
  deleteItem widget.group

/-- A frame of a widget. If painting fails, it is still due. -/
def widgetFrame (w : Nat) : Effect Desk FrameAction := do
  let measure := DrawlistSurface.measure (← get).toolkit
  let graphs := (← get).graphs
  let current ← widget w
  let ((prepared, view), surface) :=
    ((View.prepare Platform.engine measure graphs).run.run current.view).run current.surface
  changeWidget w fun widget => { widget with view, surface }
  if ← Effect.ofExcept prepared then
    let ((ops, view), surface) := (view.render measure graphs).run surface
    changeWidget w fun widget => { widget with view, surface }
    let surface ← toolkitPart.within (surface.paint ops)
    changeWidget w fun widget => { widget with
      surface
      view := { widget.view with needsRender := false } }
  return .keep

def mouseInWidget (w : Nat) : Effect Desk (Point Float) := do
  Effect.ofExcept (Gui.mouseIn (← get).toolkit (← widget w).surface.drawlist)

def widgetHasMouse (w : Nat) : Effect Desk Bool := do
  let widget ← widget w
  if !widget.inputEnabled then return false
  Effect.ofExcept (Gui.isMouseInside (← get).toolkit widget.surface.drawlist)

def pressWidget (w : Nat) : Effect Desk Unit := do
  if ← widgetHasMouse w then
    let p ← mouseInWidget w
    tryView w (·.pointerDown p)

def moveOverWidget (w : Nat) : Effect Desk Unit := do
  if (← widget w).inputEnabled then
    let p ← mouseInWidget w
    tryView w (·.pointerMove p)

/-- Ends a press, also one outside the widget. -/
def releaseWidget (w : Nat) : Effect Desk Unit := do
  let p ← mouseInWidget w
  let now ← seconds
  let c := (← widget w).view.pointerUp (← get).graphs p now
  changeView w fun _ => c.view
  modify fun d => { d with graphs := c.graphs }
  if c.changed then
    let g := c.view.shown? c.graphs
    record (.selected (← widget w).panel
      (c.vertex.bind fun i => g.bind fun g => (g.vertices[i]?).map Vertex.id))

/-- The toolkit counts up as positive, the view down. -/
def wheelOverWidget (w : Nat) (delta : Float) : Effect Desk Unit := do
  if ← widgetHasMouse w then changeView w (·.wheel (-delta))

/-- Where the center of the vertex at a position is on the viewport, if it is drawn. -/
def vertexOnScreen (w : Nat) (position : Int) : Effect Desk (Point Float) := do
  let view := (← widget w).view
  let i ← match view.shown? (← get).graphs with
    | none => throw .missing
    | some g => Effect.ofExcept (g.locate position)
  match view.boxes.find? i with
  | some box =>
    let p := view.camera.canvasToScreen ⟨box.midX, box.midY⟩
    let origin := Gui.rectMin (← get).toolkit
    return ⟨origin.x + p.x, origin.y + p.y⟩
  | none => throw .missing

end DebugDesk.Desk
