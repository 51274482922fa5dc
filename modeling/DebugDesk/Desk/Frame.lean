import DebugDesk.Desk.Host
import DebugDesk.Menu

/-!
# Frames and callbacks

What runs on the desk once per frame, and what the toolkit calls back for.
-/
namespace DebugDesk.Desk

variable [Platform]

/-- A frame of a running animation. -/
def renderAnimation (key : AnimationKey) (time : Int) : Effect Desk FrameAction := do
  match key with
  | .host => hostFrame
  | .widget w => widgetFrame w
  | .closing panel => closingFrame panel time
  | .clock panel =>
    match ← contentOf panel with
    | .clock c => clockFrame panel c time
    | _ => return .keep
  | .log panel =>
    match ← contentOf panel with
    | .log c => logFrame panel c
    | _ => return .keep

/-- Ends an animation; only panels that have faded out have anything to do then. -/
def finishAnimation : AnimationKey → Effect Desk Unit
  | .closing panel => finishClosing panel
  | _ => return ()

def animator : Animator Desk AnimationKey :=
  { registration with render := renderAnimation, finish := finishAnimation }

def renderFrame : Effect Desk Unit := do animator.renderFrame (← get).clock

/-- Carries out a callback other than one of a menu, with how far a wheel was turned. -/
def handle (delta : Float) : Handler → Effect Desk Unit
  | .widgetPress w => pressWidget w
  | .widgetMove w => moveOverWidget w
  | .widgetRelease w => releaseWidget w
  | .widgetWheel w => wheelOverWidget w delta
  | .panelPress => pressPanels
  | .panelMove => dragPanels
  | .panelRelease => releasePanels
  | .toggle panel => toggleByButton panel
  | .close panel => closePanel panel
  | .recenter panel => recenterGraph panel
  | .zoomToFit panel => fitGraph panel
  | .menu _ => return ()

def callBack (kind : String) (delta : Float) : Effect Desk Unit := do
  (Gui.callbacksOf (← get).toolkit kind).forM (handle delta)

/-- Presses the first button of a label, inside a window if one is given; tells whether there is
one. -/
def pressButton (label : String) (window : Option String) : Effect Desk Bool := do
  match Gui.button? (← get).toolkit label window with
  | none => return false
  | some item =>
    item.callback.toList.forM (handle 0)
    return true

inductive UserAction where
  | mouse (position : Point Float)
  | down
  | move
  | up
  | wheel (delta : Float)
  | press (label : String) (window : Option String)
  | menu (path : List String)
  | clock (time : Int)
  | textMode (mode : Toolkit.TextMode)
  | rectMin (position : Point Float)

/-- Carries out an action, given what choosing a menu item does; tells whether there was a button or
menu item to press. -/
def act (choose : List String → Effect Desk Unit) : UserAction → Effect Desk (Option Bool)
  | .mouse position => do
    toolkitPart.update (Gui.setMouse · position)
    return none
  | .down => do
    callBack "add_mouse_click_handler" 0
    return none
  | .move => do
    callBack "add_mouse_move_handler" 0
    return none
  | .up => do
    callBack "add_mouse_release_handler" 0
    return none
  | .wheel delta => do
    callBack "add_mouse_wheel_handler" delta
    return none
  | .press label window => do return some (← pressButton label window)
  | .menu path => do
    match Gui.menuItem? (← get).toolkit path with
    | none => return some false
    | some _ =>
      choose path
      return some true
  | .clock time => do
    modify fun d => { d with clock := time }
    return none
  | .textMode mode => do
    toolkitPart.update (Gui.setTextMode · mode)
    return none
  | .rectMin position => do
    toolkitPart.update (Gui.setRectMin · position)
    return none

end DebugDesk.Desk
