import DebugDesk.App.Arguments
import DebugDesk.Desk.Frame
import DebugDesk.Graph.Basic
import DebugDesk.Json.Reader

/-!
# The program

A menu bar over a workspace of panels: a graph, the time of day, and the log of the traffic with the
analysis host. The menu opens panels, closes them, and talks to the host.
-/
namespace DebugDesk.App

open Desk

variable [Platform]

def graphTitle : String := "Graph"

def clockTitle : String := "Clock"

def logTitle : String := "Log"

/-- Where the next panel goes, from the left and from the top: panels cascade from the corner of the
workspace. -/
def nextOffset : Effect Desk Float := do
  let opened := ((← get).workspace.members manager).length
  Effect.ofExcept
    (Scalar.snap (Binary64.ofInt (Settings.cascadeStep * (opened + 1))) Settings.gridSize)

/-- The panel of a title, unless the first one is closing. -/
def openedPanel (title : String) : Effect Desk (Option Nat) := do
  let w := (← get).workspace
  return (w.find manager title).filter fun panel =>
    match w.panel? panel with
    | some p => !p.closing
    | none => false

/-- Shows the panel of a title: gives it the focus, or else opens it with a content. Tells its
number, and whether it is new. -/
def openPanel (title : String) (size : Float × Float) (content : Content) :
    Effect Desk (Nat × Bool) := do
  match ← openedPanel title with
  | some panel =>
    focusPanel panel
    return (panel, false)
  | none =>
    let offset ← nextOffset
    let panel ← addPanel (Panel.make title offset offset size.1 size.2 true Settings.headerHeight
      Settings.minPanelWidth Settings.minPanelHeight) content
    return (panel, true)

/-- Shows the graph; tells the number of its panel. The requests of the panel end with it. -/
def openGraph : Effect Desk Nat := do
  let content : GraphContent :=
    ⟨some (← get).graph, GraphContent.standardToolbar, Settings.widget, none⟩
  let (panel, isNew) ← openPanel graphTitle Settings.graphPanelSize (.graph content)
  if isNew then workspacePart.update (·.bind panel (.requests panel))
  return panel

def openClock : Effect Desk Unit := do
  let _ ← openPanel clockTitle Settings.clockPanelSize
    (.clock ⟨ClockContent.standardInterval, none, none⟩)

def openLog : Effect Desk Unit := do
  let _ ← openPanel logTitle Settings.logPanelSize (.log ⟨none, none, none⟩)

def closePanels : Effect Desk Unit := do ((← get).workspace.members manager).forM closePanel

inductive MenuAction where
  | exit
  | openGraph
  | openClock
  | openLog
  | closePanels
  | ping
  | fetchGraph
  deriving DecidableEq, Repr

def menu : List (MenuItem MenuAction) :=
  [.category "File" [.action "Exit" .exit],
    .category "View" [.action graphTitle .openGraph, .action clockTitle .openClock,
      .action logTitle .openLog, .action "Close all panels" .closePanels],
    .category "Host" [.action "Ping" .ping, .action "Fetch graph" .fetchGraph]]

def stop : Effect Desk Unit := do
  call "stop_dearpygui" []
  modify fun d => { d with stopped := true }

def perform : MenuAction → Effect Desk Unit
  | .exit => stop
  | .openGraph => do
    let _ ← openGraph
  | .openClock => openClock
  | .openLog => openLog
  | .closePanels => closePanels
  | .ping => ping
  | .fetchGraph => do fetchFor (← openGraph)

def choose (path : List String) : Effect Desk Unit := MenuItem.activate perform menu path

mutual

/-- Makes the item of the toolkit for a menu item, and those below it. -/
def makeMenuItem (above : List String) (parent : String) : MenuItem MenuAction → Effect Desk Unit
  | .action label _ => do
    let path := above ++ [label]
    let _ ← makeActive "add_menu_item" [("label", .text label), ("parent", .text parent),
      ("user_data", .list (path.map .text))] (.menu path)
  | .category label children => do
    let item ← make "add_menu" [] [("label", .text label), ("parent", .text parent)] none
    makeMenuItems (above ++ [label]) item children

def makeMenuItems (above : List String) (parent : String) :
    List (MenuItem MenuAction) → Effect Desk Unit
  | [] => return ()
  | item :: rest => do
    makeMenuItem above parent item
    makeMenuItems above parent rest

end

def makeMenuBar : Effect Desk Unit := do
  let _ ← makeAround "viewport_menu_bar" [] [] do
    let bar := (Gui.container? (← get).toolkit).getD ""
    makeMenuItems [] bar menu

/-- The graph that a text describes. If the text is no JSON, or has edges to unknown nodes, it is
the sample. -/
def graphOfText (text : String) : Except Fault Graph :=
  match Json.parse text with
  | .error .tooDeep => .error .tooDeep
  | .error _ => .ok (Graph.sample standardProvider)
  | .ok description =>
    match Graph.ofJson description standardProvider with
    | .error (.unknownNode _) =>
      .ok (Graph.sample (Graph.providerAfter description standardProvider))
    | result => result

def firstGraph : Option String → Except Fault Graph
  | none => .ok (Graph.sample standardProvider)
  | some text => graphOfText text

def openTransport (address : String) : Effect Desk Unit := do
  let log ← Effect.ofExcept (LogBook.make Settings.logEntries)
  modify fun d => { d with
    log, transport := .make address (.object []) Settings.hostTimeout .deferred }

/-- Begins with what the command line asks for and the text of its file. -/
def start (s : Arguments.Start) (text : Option String) : Effect Desk Unit := do
  openTransport s.host
  let g ← Effect.ofExcept (firstGraph text)
  modify fun d => { d with graph := d.graphs.length, graphs := d.graphs.push g }
  call "create_context" []
  toolkitPart.update (Gui.call · "create_viewport" []
    [("title", .text Settings.viewportTitle), ("width", wholeValue s.width),
      ("height", wholeValue s.height)])
  call "setup_dearpygui" []
  makeMenuBar
  makeHost ⟨0, Settings.menuBarHeight⟩ standardButtonWidth Panel.standardHandle
  let _ ← openGraph
  call "set_exit_callback" [.hidden]
  call "show_viewport" []

def pass : Effect Desk Unit := do
  let _ ← link.poll
  renderFrame

def finish : Effect Desk Unit := do
  link.shutdown
  animator.clear
  call "destroy_context" []

def desk : Desk := .empty (.make Settings.gridSize Settings.closeStage)

end DebugDesk.App
