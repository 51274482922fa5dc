import DebugDesk.Desk.Widget

/-!
# Contents of panels

A panel shows a graph under a row of buttons, the time of day, or the entries of the log book. A
content is built when the window of its panel is made, is told of changes, and is destroyed with the
panel.
-/
namespace DebugDesk.Desk

variable [Platform]

def contentOf (panel : Nat) : Effect Desk Content := do
  return ((← get).contents[panel]?).getD .nothing

def setContent (panel : Nat) (c : Content) : Effect Desk Unit :=
  modify fun d => { d with contents := d.contents.set panel c }

def graphContent (panel : Nat) : Effect Desk GraphContent := do
  match ← contentOf panel with
  | .graph c => return c
  | _ => throw .missing

def onWidget (c : GraphContent) (f : Nat → Effect Desk Unit) : Effect Desk Unit :=
  match c.widget with
  | some w => f w
  | none => return ()

def graphSize (c : GraphContent) (width height : Float) : Except Fault (Float × Float) := do
  let w : Float := Scalar.ofInt (← Scalar.truncate width)
  let h : Float := Scalar.ofInt (← Scalar.truncate height)
  return (Scalar.greater (w - 16) 1, Scalar.greater (h - c.toolbar - 16) 1)

/-- Shows another graph, with its root in view. -/
def showGraph (panel : Nat) (graph : Option Nat) : Effect Desk Unit := do
  let c ← graphContent panel
  setContent panel (.graph { c with graph })
  onWidget c fun w => do
    setWidgetGraph w graph
    recenterWidget w

def recenterGraph (panel : Nat) : Effect Desk Unit := do
  onWidget (← graphContent panel) recenterWidget

def fitGraph (panel : Nat) : Effect Desk Unit := do onWidget (← graphContent panel) fitWidget

def buildGraph (panel : Nat) (c : GraphContent) (p : Panel Float Binding) (parent : String) :
    Effect Desk Unit := do
  let _ ← makeAround "group" [] [("horizontal", .flag true), ("parent", .text parent)] do
    let _ ← makeActive "add_button" [("label", .text "Recenter")] (.recenter panel)
    makeActive "add_button" [("label", .text "Zoom to fit")] (.zoomToFit panel)
  let (width, height) ← Effect.ofExcept (graphSize c p.width p.bodyHeight)
  let w ← makeWidget parent none width height c.settings (some panel)
  setContent panel (.graph { c with widget := some w })
  match c.graph with
  | some graph =>
    setWidgetGraph w (some graph)
    recenterWidget w
  | none => return ()

def buildClock (panel : Nat) (c : ClockContent) (parent : String) : Effect Desk Unit := do
  let text ← make "add_text" [.text (← timeOfDay)] [("parent", .text parent)] none
  setContent panel (.clock { c with text := some text, lastUpdate := none })
  registration.add (.clock panel)

def clockIsDue (c : ClockContent) (time : Int) : Except Fault Bool :=
  match c.lastUpdate with
  | none => .ok true
  | some last => return !((← elapsedSeconds last time) < c.interval)

def clockFrame (panel : Nat) (c : ClockContent) (time : Int) : Effect Desk FrameAction := do
  if ← Effect.ofExcept (clockIsDue c time) then
    setContent panel (.clock { c with lastUpdate := some time })
    call "set_value" [.ofOption c.text, .text (← timeOfDay)]
  return .keep

def destroyClock (panel : Nat) (c : ClockContent) : Effect Desk Unit := do
  registration.cancel (.clock panel) false
  match c.text with
  | some text =>
    deleteItem text
    setContent panel (.clock { c with text := none })
  | none => return ()

def errorColor : Color Float := Color.ofComponents (0xff, 0x5f, 0x5f) 1.0

def infoColor : Color Float := Color.ofComponents (0x7e, 0xc8, 0x7e) 1.0

def standardColor : Color Float := Color.ofComponents (0xc8, 0xc8, 0xc8) 1.0

def levelColor : Level → Color Float
  | .error => errorColor
  | .info => infoColor
  | .standard => standardColor

mutual

/-- A JSON value as the toolkit takes it. -/
def jsonValue : Json → Toolkit.Value
  | .null => .nothing
  | .bool b => .flag b
  | .int n => .number (Binary64.ofInt n)
  | .float x => .number x
  | .str s => .text s
  | .broken points => .broken points
  | .list items => .list (jsonValues items)
  | .object _ => .hidden

def jsonValues : List Json → List Toolkit.Value
  | [] => []
  | j :: rest => jsonValue j :: jsonValues rest

end

def buildLog (panel : Nat) (parent : String) : Effect Desk Unit := do
  let container ← make "add_child_window" []
    [("parent", .text parent), ("width", .number (-1)), ("height", .number (-1)),
      ("border", .flag false)] none
  let table ← make "add_table" []
    [("parent", .text container), ("header_row", .flag true), ("resizable", .flag true),
      ("borders_innerV", .flag true), ("policy", .text "mvTable_SizingFixedFit")] none
  ["Time", "Kind", "Detail"].forM fun label => do
    let _ ← make "add_table_column" [] [("label", .text label), ("parent", .text table)] none
  let _ ← make "add_table_column" []
    [("label", .text "Message"), ("parent", .text table), ("width_stretch", .flag true)] none
  setContent panel (.log ⟨some container, some table, none⟩)
  registration.add (.log panel)

/-- Adds the row of an entry to the table. -/
def addRow (table : Toolkit.Value) (e : LogEntry) : Effect Desk Unit := do
  let color := [("color", ← Effect.ofExcept (DrawlistSurface.colorValue (levelColor e.level)))]
  let _ ← makeAround "table_row" [] [("parent", table)] do
    let _ ← make "add_text" [.text (← Effect.ofExcept (e.timeText Platform.zone))] [] none
    let _ ← make "add_text" [.text e.kind] color none
    let _ ← make "add_text" [jsonValue e.detail] color none
    make "add_text" [jsonValue e.message] color none

/-- Shows the entries anew if the log book has changed, the newest in view. -/
def logFrame (panel : Nat) (c : LogContent) : Effect Desk FrameAction := do
  let log := (← get).log
  if c.shown = some log.version then return .keep
  setContent panel (.log { c with shown := some log.version })
  toolkitPart.within (Gui.deleteChildren c.table .rows)
  log.entries.forM (addRow (.ofOption c.table))
  let bottom := (c.container.map (Gui.scrollMax (← get).toolkit)).getD 0
  call "set_y_scroll" [.ofOption c.container, .number bottom]
  return .keep

def destroyLog (panel : Nat) (c : LogContent) : Effect Desk Unit := do
  registration.cancel (.log panel) false
  match c.container with
  | some container =>
    deleteItem container
    setContent panel (.log { c with container := none, table := none })
  | none => return ()

/-- Builds the content of a panel inside an item. -/
def buildContent (panel : Nat) (p : Panel Float Binding) (parent : String) : Effect Desk Unit := do
  match ← contentOf panel with
  | .nothing => return ()
  | .recording => record (.built panel)
  | .graph c => buildGraph panel c p parent
  | .clock c => buildClock panel c parent
  | .log _ => buildLog panel parent

/-- Tells a content that its body has a new size. -/
def resizeContent (panel : Nat) (width height : Float) : Effect Desk Unit := do
  match ← contentOf panel with
  | .recording => record (.resized panel width height)
  | .graph c => onWidget c fun w => do
    let (width, height) ← Effect.ofExcept (graphSize c width height)
    resizeWidget w width height
  | _ => return ()

def suppressContent (panel : Nat) (flag : Bool) : Effect Desk Unit := do
  match ← contentOf panel with
  | .recording => record (.suppressed panel flag)
  | .graph c => onWidget c (suppressWidget · flag)
  | _ => return ()

def enableContent (panel : Nat) (flag : Bool) : Effect Desk Unit := do
  match ← contentOf panel with
  | .recording => record (.input panel flag)
  | .graph c => onWidget c (enableWidget · flag)
  | _ => return ()

def destroyContent (panel : Nat) : Effect Desk Unit := do
  match ← contentOf panel with
  | .nothing => return ()
  | .recording => record (.destroyed panel)
  | .graph c =>
    onWidget c destroyWidget
    setContent panel (.graph { c with widget := none })
  | .clock c => destroyClock panel c
  | .log c => destroyLog panel c

end DebugDesk.Desk
