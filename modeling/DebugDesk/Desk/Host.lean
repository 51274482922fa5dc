import DebugDesk.Desk.Panels

/-!
# Panels as windows

Every panel is an undecorated window with a header row. Once per frame the windows are brought in
line with their panels: position, size, opacity and stacking. The mouse drags panels by their
headers and corners, and only the topmost panel under it takes input.
-/
namespace DebugDesk.Desk

variable [Platform]

def panelHost : Effect Desk PanelHost := do
  match (← get).host with
  | some host => return host
  | none => throw .missing

def changeHost (f : PanelHost → PanelHost) : Effect Desk Unit :=
  modify fun d => { d with host := d.host.map f }

def standardButtonWidth : Float := 20.0

/-- Begins to show the panels, once per frame. -/
def makeHost (origin : Point Float) (buttonWidth handleSize : Float) : Effect Desk Unit := do
  let (handlers, _) ← makeAround "handler_registry" [] [] do
    let _ ← makeActive "add_mouse_click_handler" leftButton .panelPress
    let _ ← makeActive "add_mouse_move_handler" [] .panelMove
    makeActive "add_mouse_release_handler" leftButton .panelRelease
  modify fun d => { d with host := some ⟨origin, buttonWidth, handleSize, handlers, [], []⟩ }
  registration.add .host

def destroyHost : Effect Desk Unit := do
  registration.cancel .host false
  deleteItem (← panelHost).handlers

def expandLabel (expanded : Bool) : String × Toolkit.Value :=
  ("label", .text (if expanded then "-" else "+"))

/-- Makes a theme with one opacity; tells the ids of both. -/
def makeTheme (opacity : Float) : Effect Desk (String × String) := do
  let (theme, _, alpha) ← makeAround "theme" [] [] <|
    makeAround "theme_component" [.text "mvAll"] [] <|
    make "add_theme_style" [.text "mvStyleVar_Alpha", .number opacity]
      [("category", .text "mvThemeCat_Core")] none
  return (theme, alpha)

/-- The row at the top of a window; tells the id of the button that collapses the panel. -/
def makeHeader (panel : Nat) (p : Panel Float Binding) (buttonWidth : Float) :
    Effect Desk String := do
  let (_, expandButton) ← makeAround "group" [] [("horizontal", .flag true)] do
    let expandButton ← makeActive "add_button"
      [expandLabel p.expanded, ("width", .number buttonWidth)] (.toggle panel)
    let _ ← make "add_text" [.text p.title] [] none
    let _ ← makeActive "add_button" [("label", .text "x"), ("width", .number buttonWidth)]
      (.close panel)
    return expandButton
  return expandButton

def plainWindow : Toolkit.Options :=
  ["no_title_bar", "no_move", "no_resize", "no_collapse", "no_close", "no_scrollbar"].map
    fun name => (name, .flag true)

def wholeValue (n : Int) : Toolkit.Value := .number (Binary64.ofInt n)

/-- Makes the window of a panel, and its content in it. The window is deleted with the panel. -/
def makeWindow (panel : Nat) (p : Panel Float Binding) : Effect Desk PanelWindow := do
  let host ← panelHost
  let width ← Effect.ofExcept (Scalar.truncate p.width)
  let height ← Effect.ofExcept (Scalar.truncate p.renderedHeight)
  let (window, expandButton, body) ← makeAround "window" []
    ([("label", .text p.title), ("pos", .point (host.origin.x + p.x) (host.origin.y + p.y)),
      ("width", wholeValue width), ("height", wholeValue height)] ++ plainWindow) do
    let expandButton ← makeHeader panel p host.buttonWidth
    let (body, _) ← makeAround "child_window" []
      [("width", .number (-1)), ("height", .number (-1)), ("border", .flag false)] (pure ())
    return (expandButton, body)
  let (windowTheme, windowAlpha) ← makeTheme p.headerOpacity
  let (bodyTheme, bodyAlpha) ← makeTheme p.bodyOpacity
  call "bind_item_theme" [.text window, .text windowTheme]
  call "bind_item_theme" [.text body, .text bodyTheme]
  buildContent panel p body
  workspacePart.update (·.bind panel (.window window windowTheme bodyTheme))
  return { window, body, expandButton, windowAlpha, bodyAlpha, shown := none }

def appearanceOf (p : Panel Float Binding) : Except Fault Appearance := do
  let r := p.rect
  let width ← Scalar.truncate r.width
  let height ← Scalar.truncate r.height
  return { x := r.x, y := r.y, moves := p.moves, width, height
           body := p.expanded && p.collapse < 1.0
           headerOpacity := p.headerOpacity, bodyOpacity := p.bodyOpacity }

/-- Coordinates that are no numbers count as the same for as long as the panel is not moved. -/
def Appearance.same (a b : Appearance) : Bool :=
  let sameOn (p q : Float) : Bool := p == q || (p.isNaN && q.isNaN && a.moves == b.moves)
  sameOn a.x b.x && sameOn a.y b.y && a.width == b.width && a.height == b.height &&
    a.body == b.body && a.headerOpacity == b.headerOpacity && a.bodyOpacity == b.bodyOpacity

/-- Brings the window that is kept for a place in line with a panel, if its appearance has
changed. -/
def showWindow (place : Platform.Address) (p : Panel Float Binding) (window : PanelWindow) :
    Effect Desk Unit := do
  let a ← Effect.ofExcept (appearanceOf p)
  if (window.shown.map (Appearance.same a)).getD false then return ()
  changeHost fun host => { host with
    windows := host.windows.map fun (i, w) =>
      (i, if i = place then { w with shown := some a } else w) }
  let origin := (← panelHost).origin
  let r := p.rect
  configure window.window
    [("pos", .point (origin.x + a.x) (origin.y + a.y)), ("width", wholeValue (max a.width 1)),
      ("height", wholeValue (max a.height 1)), ("show", .flag (1 ≤ r.width && 1 ≤ r.height))]
  configure window.body [("show", .flag a.body)]
  call "set_value" [.text window.windowAlpha, .list [.number a.headerOpacity]]
  call "set_value" [.text window.bodyAlpha, .list [.number a.bodyOpacity]]

/-- The window that is kept for the place of a panel. -/
def PanelHost.window? (host : PanelHost) (panel : Nat) : Option PanelWindow :=
  host.windows.lookup (Platform.address panel)

/-- Makes the window of a panel unless one is kept for its place, and brings it in line. -/
def syncPanel (panel : Nat) : Effect Desk Unit := do
  match (← get).workspace.panel? panel with
  | none => return ()
  | some p =>
    let place := Platform.address panel
    match (← panelHost).window? panel with
    | some window => showWindow place p window
    | none =>
      let window ← makeWindow panel p
      changeHost fun host => { host with windows := host.windows ++ [(place, window)] }
      showWindow place p window

/-- Raises all windows from bottom to top, if the order of stacking has changed. -/
def restack : Effect Desk Unit := do
  let host ← panelHost
  let order := ((← get).workspace.inStackingOrder manager).filterMap fun i =>
    (host.window? i).map PanelWindow.window
  if order = host.stacking then return ()
  changeHost fun host => { host with stacking := order }
  order.forM fun window => call "focus_item" [.text window]

def mouseOnWorkspace : Effect Desk (Point Float) := do
  let mouse := Gui.mouse (← get).toolkit
  let origin := (← panelHost).origin
  return ⟨mouse.x - origin.x, mouse.y - origin.y⟩

/-- The panel that takes input: the topmost one under the mouse, unless a panel is dragged. -/
def panelForInput : Effect Desk (Option Nat) := do
  let w := (← get).workspace
  match w.dragging manager with
  | some _ => return none
  | none => return w.panelAt manager (← mouseOnWorkspace)

def gateInput : Effect Desk Unit := do
  let top ← panelForInput
  ((← get).workspace.members manager).forM fun panel => enableContent panel (top = some panel)

/-- A frame of the windows: forgets those kept for places where no panel is any more, makes those
that are missing, and brings all in line. -/
def hostFrame : Effect Desk FrameAction := do
  let members := (← get).workspace.members manager
  let places := members.map Platform.address
  changeHost fun host =>
    { host with windows := host.windows.filter fun (place, _) => places.contains place }
  members.forM syncPanel
  restack
  gateInput
  return .keep

def toggleByButton (panel : Nat) : Effect Desk Unit := do
  let _ ← togglePanel panel
  match (← panelHost).window? panel, (← get).workspace.panel? panel with
  | some window, some p => configure window.expandButton [expandLabel p.expanded]
  | _, _ => return ()

/-- Whether a point is beside the title of a header, where its buttons are. -/
def isBesideTitle (p : Panel Float Binding) (buttonWidth x : Float) : Bool :=
  let r := p.rect
  x < r.x + buttonWidth || r.x + r.width - buttonWidth ≤ x

/-- A press on a corner begins to resize, one on a title to move; any other gives the focus. -/
def pressPanels : Effect Desk Unit := do
  let pointer ← mouseOnWorkspace
  let host ← panelHost
  let w := (← get).workspace
  match w.panelAt manager pointer with
  | none => return ()
  | some panel =>
    match w.panel? panel with
    | none => return ()
    | some p =>
      if p.handleContains pointer host.handleSize then
        let _ ← onWorkspace (·.beginResize panel pointer)
      else if p.headerContains pointer && !isBesideTitle p host.buttonWidth pointer.x then
        onWorkspace fun w => ((), w.beginMove panel pointer)
      else focusPanel panel

/-- Drags on. -/
def dragPanels : Effect Desk Unit := do
  match (← get).workspace.dragging manager with
  | none => return ()
  | some panel =>
    let pointer ← mouseOnWorkspace
    let _ ← tryWorkspace (·.moveTo panel pointer)
    let _ ← tryWorkspace (·.resizeTo panel pointer)

/-- Ends a drag. -/
def releasePanels : Effect Desk Unit := do
  match (← get).workspace.dragging manager with
  | none => return ()
  | some panel =>
    onWorkspace fun w => ((), w.endMove panel)
    onWorkspace fun w => ((), w.endResize panel)

end DebugDesk.Desk
