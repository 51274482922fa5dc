import DebugDesk.Panel.Scenario
import DebugDesk.Session.Animations
import DebugDesk.Session.Cameras

/-!
# Panel sessions

Panels on a workspace with two managers of one kind, of which the first one is looked at.
-/
namespace DebugDesk.Session

/-- Finds the number that a name stands for, the latest one that it was given to. -/
def latest (names : List String) (name : String) : Option Nat :=
  (names.zipIdx.reverse.find? fun (n, _) => n = name).map Prod.snd

def titleOf (name : String) (opts : Json) : String :=
  match opts.get? "title" with
  | some t => toStr t
  | none => name

/-- What is made of the values of a panel in a description. -/
def withPanelValues {γ : Type} (name : String) (opts : Json)
    (f : (title : String) → (x y width height : Float) → (expanded : Bool) →
      (headerHeight minWidth minHeight : Float) → γ) : γ :=
  f (titleOf name opts)
    (floatField opts "x" 0) (floatField opts "y" 0)
    (floatField opts "width" 400) (floatField opts "height" 300)
    (flagOr true (field? opts "expanded")) (floatField opts "header_height" 20)
    (floatField opts "min_width" 100) (floatField opts "min_height" 60)

def panelOf {β : Type} (name : String) (opts : Json) : Panel Float β :=
  withPanelValues name opts Panel.make

def panelReport {β : Type} (name : String) (p : Panel Float β) : Report :=
  let r := p.rect
  .object
    [("name", .str name), ("rect", .list [.rounded r.x, .rounded r.y, .rounded r.width,
        .rounded r.height]),
      ("size", .list [.rounded p.width, .rounded p.height]), ("z", .nat p.z),
      ("dz", .nat p.displayZ), ("focused", .bool p.focused), ("expanded", .bool p.expanded),
      ("dragging", .bool p.isDragging), ("closing", .bool p.closing), ("closed", .bool p.closed),
      ("opacity", .list [.rounded p.bodyOpacity, .rounded p.headerOpacity]),
      ("bound", .bool (!p.bindings.isEmpty))]

def signalReport (name : String) : PanelSignal Float String → Report
  | .resized width height => .list [.str name, .str "resize", .rounded width, .rounded height]
  | .suppressed flag => .list [.str name, .str "suppressed", .bool flag]
  | .destroyed => .list [.str name, .str "destroy"]
  | .released tag => .list [.str name, .str "release", .str tag]

structure PanelBench where
  stage : PanelScript.Stage Float String
  /-- The names of the panels, and whether they have a content. -/
  names : List (String × Bool) := []

namespace PanelBench

def nameOf (s : PanelBench) (i : Nat) : String := ((s.names[i]?).map Prod.fst).getD ""

def named (name : String) : Effect PanelBench Nat := do
  match latest ((← get).names.map Prod.fst) name with
  | some i => return i
  | none => throw .unknownName

def panelNamed (name : String) : Effect PanelBench (Nat × Panel Float String) := do
  let i ← named name
  match (← get).stage.workspace.panel? i with
  | some p => return (i, p)
  | none => throw .unknownName

/-- Carries out a command. -/
def perform (c : PanelScript.Command Float String) : Effect PanelBench Report := do
  let stage : Part PanelBench (PanelScript.Stage Float String) :=
    ⟨PanelBench.stage, fun t s => { s with stage := t }⟩
  match ← stage.within (PanelScript.Stage.perform c) with
  | .nothing => return .null
  | .flag b => return .bool b

/-- The command of a step that is about a panel, or about all. -/
def panelCommand (name : String) (i : Nat) (args : List Json) :
    Option (PanelScript.Command Float String) :=
  let pointer : Point Float := ⟨toFloat (arg args 1), toFloat (arg args 2)⟩
  match name with
  | "add" => some (.add 0 i)
  | "add_other" => some (.add 1 i)
  | "focus" => some (.focus 0 i)
  | "remove" => some (.remove 0 i)
  | "close" => some (.close 0 i (flagOr true (arg? args 1)))
  | "toggle" => some (.toggle i)
  | "bind" => some (.bind i (toStr (arg args 1)))
  | "unbind" => some (.releaseBindings i)
  | "begin_move" => some (.beginMove i pointer)
  | "move" => some (.moveTo i pointer)
  | "end_move" => some (.endMove i)
  | "begin_resize" => some (.beginResize i pointer)
  | "resize" => some (.resizeTo i pointer)
  | "end_resize" => some (.endResize i)
  | "cancel" => some (.cancelGesture i)
  | _ => none

def step (name : String) (args : List Json) : Effect PanelBench Report := do
  let subject := toStr (arg args 0)
  let orNull (o : Option Nat) : Effect PanelBench Report := do
    let s ← get
    return .opt (fun i => .str (s.nameOf i)) o
  match name with
  | "new" =>
    let opts := arg args 1
    modify fun s => { s with names := s.names ++ [(subject, flagOr true (opts.get? "content"))] }
    perform (withPanelValues subject opts .create)
  | "close_all" => perform (.closeAll 0)
  | "frame" =>
    perform (.frame (match arg args 0 with
      | .null => none
      | t => some (toInt t)))
  | "clock" => perform (.setClock (toInt (arg args 0)))
  | "at" =>
    orNull ((← get).stage.workspace.panelAt 0 ⟨toFloat (arg args 0), toFloat (arg args 1)⟩)
  | "find" => orNull ((← get).stage.workspace.find 0 subject)
  | "snap" =>
    let grid := (((← get).stage.workspace.managers[0]?).map PanelManager.gridSize).getD 1.0
    return .rounded (← Effect.ofExcept (Scalar.snap (toFloat (arg args 0)) grid))
  | "hit" =>
    let (_, p) ← panelNamed subject
    let pointer : Point Float := ⟨toFloat (arg args 1), toFloat (arg args 2)⟩
    let size := match arg? args 3 with
      | some size => toFloat size
      | none => Panel.standardHandle
    return .list [.bool (p.contains pointer), .bool (p.headerContains pointer),
      .bool (p.handleContains pointer size)]
  | _ =>
    if (panelCommand name 0 args).isNone then return .null
    match panelCommand name (← named subject) args with
    | some c =>
      let answer ← perform c
      return if name = "add" || name = "add_other" then .str subject else answer
    | none => return .null

/-- The signals that are written down, since the last time. -/
def events (s : PanelBench) : List Report × PanelBench :=
  let (signals, workspace) := s.stage.workspace.takeSignals
  (signals.filterMap fun (i, signal) =>
    let (name, content) := (s.names[i]?).getD ("", false)
    match signal with
    | .released _ => some (signalReport name signal)
    | _ => if content then some (signalReport name signal) else none,
    { s with stage := { s.stage with workspace } })

def state (s : PanelBench) : List (String × Report) × PanelBench :=
  let w := s.stage.workspace
  let (events, s) := s.events
  let nameOf (i : Nat) : Report := .str (s.nameOf i)
  ([("events", .list events),
    ("panels", .list ((w.panels.zip s.names).map fun (p, name, _) => panelReport name p)),
    ("stack", .list ((w.inStackingOrder 0).map nameOf)), ("focus", .opt nameOf (w.focused 0)),
    ("drag", .opt nameOf (w.dragging 0)), ("order", .list ((w.members 0).map nameOf)),
    ("animations", .nat s.stage.registry.length)], s)

end PanelBench

def panelSession (input : Json) : Report :=
  let settings := (floatField input "grid" PanelManager.standardGrid,
    floatField input "stage" PanelManager.standardStage)
  .object [("steps", stepsReport (fun s name args =>
    let (result, s) := (PanelBench.step name args).outcome s
    (.ofExcept result, s)) PanelBench.state { stage := .start [settings, settings] } input)]

end DebugDesk.Session
