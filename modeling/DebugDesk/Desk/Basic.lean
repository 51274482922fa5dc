import DebugDesk.Animation.Animator
import DebugDesk.Layout.Sugiyama
import DebugDesk.LogBook
import DebugDesk.Panel.Closing
import DebugDesk.Toolkit.Drawlist
import DebugDesk.Transport.Basic
import DebugDesk.View.Pipeline
import DebugDesk.View.Pointer

/-!
# The desk

All that is on the screen and behind it: the toolkit, the panels with their contents, graph widgets,
the running animations, the graphs shown, and the traffic with the analysis host.
-/
namespace DebugDesk

namespace Desk

/-- What the toolkit calls back for. -/
inductive Handler where
  | widgetPress (widget : Nat)
  | widgetMove (widget : Nat)
  | widgetRelease (widget : Nat)
  | widgetWheel (widget : Nat)
  | panelPress
  | panelMove
  | panelRelease
  /-- The button that collapses and expands a panel. -/
  | toggle (panel : Nat)
  /-- The button that closes a panel. -/
  | close (panel : Nat)
  /-- The buttons above a graph. -/
  | recenter (panel : Nat)
  | zoomToFit (panel : Nat)
  | menu (path : List String)
  deriving DecidableEq, Repr

/-- What is called once per frame. -/
inductive AnimationKey where
  /-- The windows of the panels. -/
  | host
  | widget (widget : Nat)
  | clock (panel : Nat)
  | log (panel : Nat)
  | closing (panel : Nat)
  deriving DecidableEq, Repr

/-- What ends when a panel is removed. -/
inductive Binding where
  | window (window windowTheme bodyTheme : String)
  | requests (panel : Nat)
  deriving DecidableEq, Repr

structure WidgetSettings where
  style : ViewStyle Float
  camera : CameraSettings Float
  clickSuppression : Float
  fonts : List (String × Toolkit.Value)

def WidgetSettings.standard : WidgetSettings :=
  ⟨.standard, .standard, View.standardClickSuppression, []⟩

/-- A graph view in a drawlist. -/
structure GraphWidget where
  group : String
  handlers : String
  surface : DrawlistSurface
  view : View Float
  inputEnabled : Bool
  /-- The panel whose content it is. -/
  panel : Option Nat

structure GraphContent where
  graph : Option Nat
  /-- The height kept free for the buttons. -/
  toolbar : Float
  settings : WidgetSettings
  widget : Option Nat

def GraphContent.standardToolbar : Float := 24.0

structure ClockContent where
  /-- Seconds between two updates. -/
  interval : Float
  text : Option String
  lastUpdate : Option Int

def ClockContent.standardInterval : Float := 1.0

structure LogContent where
  container : Option String
  table : Option String
  /-- The version of the log book that is shown. -/
  shown : Option Nat

inductive Content where
  | nothing
  /-- Writes down what it is told. -/
  | recording
  | graph (c : GraphContent)
  | clock (c : ClockContent)
  | log (c : LogContent)

/-- What contents write down. -/
inductive Event where
  | built (panel : Nat)
  | resized (panel : Nat) (width height : Float)
  | suppressed (panel : Nat) (flag : Bool)
  | input (panel : Nat) (flag : Bool)
  | destroyed (panel : Nat)
  | selected (panel : Option Nat) (id : Option Int)

structure Appearance where
  x : Float
  y : Float
  moves : Nat
  width : Int
  height : Int
  body : Bool
  headerOpacity : Float
  bodyOpacity : Float

/-- The items that make up a panel on the screen. -/
structure PanelWindow where
  window : String
  body : String
  expandButton : String
  windowAlpha : String
  bodyAlpha : String
  /-- What was told to the toolkit last. -/
  shown : Option Appearance

end Desk

class Platform where
  /-- The windows and widgets on the screen. -/
  Toolkit : Type
  [gui : Gui Toolkit Desk.Handler]
  /-- Where panels can be in memory. -/
  Address : Type
  [decEq : DecidableEq Address]
  /-- Where the panel of a number is. When it is gone, others can come there. -/
  address : Nat → Address
  /-- Lays out graphs. -/
  engine : LayoutEngine Float
  /-- By how many seconds the time of day is ahead at a second. -/
  zone : Int → Int

instance [Platform] : Gui Platform.Toolkit Desk.Handler := Platform.gui

instance [Platform] : DecidableEq Platform.Address := Platform.decEq

/-- A platform that keeps the windows and widgets itself, and whose time of day is not shifted. -/
abbrev Platform.simulated (address : Nat → Nat) : Platform where
  Toolkit := DebugDesk.Toolkit Desk.Handler
  Address := Nat
  address
  engine := Sugiyama.engine
  zone _ := 0

variable [Platform]

namespace Desk

/-- Shows the panels of the first manager as windows. -/
structure PanelHost where
  /-- Where the workspace begins on the viewport. -/
  origin : Point Float
  buttonWidth : Float
  handleSize : Float
  handlers : String
  /-- The windows of panels that are or were shown, by where these panels are. -/
  windows : List (Platform.Address × PanelWindow)
  /-- The windows as they were stacked last, bottom to top. -/
  stacking : List String

end Desk

open Desk in
structure Desk where
  toolkit : Platform.Toolkit
  /-- Nanoseconds since the start of 1970. -/
  clock : Int
  /-- The running animations. -/
  registry : List AnimationKey
  graphs : GraphStore
  /-- All graph widgets that were made. -/
  widgets : List GraphWidget
  workspace : Workspace Float Binding
  contents : List Content
  host : Option PanelHost
  log : LogBook
  transport : HostTransport Nat Nat
  /-- What the network will answer, next first. -/
  replies : List (Except Fault Reply)
  /-- What was sent over the network, latest last. -/
  sent : List Posting
  /-- What contents wrote down, latest last. -/
  events : List Event
  /-- The graph that new graph panels show. -/
  graph : Nat
  /-- Whether the toolkit is to stop. -/
  stopped : Bool

namespace Desk

def empty (manager : PanelManager Float) : Desk :=
  { toolkit := Gui.empty, clock := 0, registry := [], graphs := [], widgets := []
    workspace := .make [manager], contents := [], host := none, log := .empty
    transport := .make "" (.object []) HostTransport.standardTimeout .deferred
    replies := [], sent := [], events := [], graph := 0, stopped := false }

def manager : Nat := 0

def toolkitPart : Part Desk Platform.Toolkit := ⟨Desk.toolkit, fun t d => { d with toolkit := t }⟩

def workspacePart : Part Desk (Workspace Float Binding) :=
  ⟨Desk.workspace, fun w d => { d with workspace := w }⟩

def registryPart : Part Desk (List AnimationKey) :=
  ⟨Desk.registry, fun r d => { d with registry := r }⟩

def seconds : Effect Desk Float := do Effect.ofExcept (TimeOfDay.secondsOfNanos (← get).clock)

def record (e : Event) : Effect Desk Unit := modify fun d => { d with events := d.events ++ [e] }

def make (kind : String) (arguments : List Toolkit.Value) (options : Toolkit.Options)
    (callback : Option Handler) : Effect Desk String :=
  toolkitPart.within (Effect.change (Gui.make · kind arguments options callback))

/-- Makes an item that the items made meanwhile go into; tells its id. -/
def makeAround (kind : String) (arguments : List Toolkit.Value) (options : Toolkit.Options)
    {β : Type} (inside : Effect Desk β) : Effect Desk (String × β) := do
  let id ← make kind arguments options none
  toolkitPart.update (Gui.enter · id)
  let result ← inside.attempt
  toolkitPart.update Gui.leave
  return (id, ← Effect.ofExcept result)

def call (function : String) (arguments : List Toolkit.Value) : Effect Desk Unit :=
  toolkitPart.update (Gui.call · function arguments [])

def deleteItem (id : String) : Effect Desk Unit := do
  let _ ← toolkitPart.within (Effect.change (Gui.delete · (some id)))

def configure (id : String) (options : Toolkit.Options) : Effect Desk Unit :=
  toolkitPart.within (Gui.configure id options)

def callbackOption : String × Toolkit.Value := ("callback", .hidden)

def makeActive (kind : String) (options : Toolkit.Options) (callback : Handler) :
    Effect Desk String :=
  make kind [] (options ++ [callbackOption]) (some callback)

def leftButton : Toolkit.Options := [("button", .text "mvMouseButton_Left")]

/-- The registration of animations, as far as it does not finish them. -/
def registration : Animator Desk AnimationKey where
  registry := registryPart
  restart
    | .closing panel => do
      let now := (← get).clock
      workspacePart.update (·.restartClosing panel now)
    | _ => return ()
  render _ _ := return .keep
  finish _ := return ()

def timeOfDay : Effect Desk String := do Effect.ofExcept (TimeOfDay.text Platform.zone (← seconds))

end Desk

end DebugDesk
