import DebugDesk.Desk.Content
import DebugDesk.Graph.Described

/-!
# Panels on the desk

The desk asks the analysis host for a graph and shows it in the panel that asked. Requests belong to
that panel, and end with it. What happens to panels is passed on to their contents and bindings at
once.
-/
namespace DebugDesk.Desk

variable [Platform]

def contentSeed : Int := 42

def standardProvider : ContentProvider :=
  match Listing.make contentSeed 1 10 with
  | .ok l => .listing l
  | .error _ => .nothing

/-- The network as it is scripted, which goes on with plain answers. -/
def post (posting : Posting) : Effect Desk Reply := do
  modify fun d => { d with sent := d.sent ++ [posting] }
  match (← get).replies with
  | [] => return .pong
  | reply :: rest =>
    modify fun d => { d with replies := rest }
    Effect.ofExcept reply

def descriptionIn (content : Json) : Option Json :=
  match content.get? "data" with
  | some (.object members) => some (.object members)
  | _ => none

/-- Shows the graph of an answer in the panel that asked for it. An answer without a description, or
whose description has edges to unknown nodes, is left alone. -/
def showAnswer (panel : Nat) (content : Json) : Effect Desk Unit := do
  match descriptionIn content with
  | none => return ()
  | some description =>
    match Graph.ofJson description standardProvider with
    | .ok g =>
      let ref := (← get).graphs.length
      modify fun d => { d with graphs := d.graphs.push g, graph := ref }
      showGraph panel (some ref)
    | .error (.unknownNode _) => return ()
    | .error fault => throw fault

/-- The transport of the desk. Requests are owned by panels, and answers go to panels. -/
def link : HostLink Desk Nat Nat where
  transport := ⟨Desk.transport, fun t d => { d with transport := t }⟩
  log := ⟨Desk.log, fun l d => { d with log := l }⟩
  now := Desk.seconds
  post := post
  deliver := showAnswer

def ping : Effect Desk Unit := link.request ⟨.str "ping", .null, none, none, false⟩

/-- Asks the host for the graph, for a panel. -/
def fetchFor (panel : Nat) : Effect Desk Unit :=
  link.request ⟨.str "graph", .null, some panel, some panel, false⟩

/-- Ends a binding. -/
def release : Binding → Effect Desk Unit
  | .window window windowTheme bodyTheme => do
    deleteItem window
    deleteItem windowTheme
    deleteItem bodyTheme
  | .requests panel => link.discard (some panel)

def passOn : Nat × PanelSignal Float Binding → Effect Desk Unit
  | (panel, .resized width height) => resizeContent panel width height
  | (panel, .suppressed flag) => suppressContent panel flag
  | (panel, .destroyed) => destroyContent panel
  | (_, .released binding) => release binding

def passSignals : Effect Desk Unit := do
  let signals ← workspacePart.within (Effect.change Workspace.takeSignals)
  signals.forM passOn

def onWorkspace {β : Type} (f : Workspace Float Binding → β × Workspace Float Binding) :
    Effect Desk β := do
  let result ← workspacePart.within (Effect.change f)
  passSignals
  return result

def tryWorkspace {β : Type}
    (f : Workspace Float Binding → Except Fault (β × Workspace Float Binding)) : Effect Desk β := do
  let result ← workspacePart.within (Effect.step f)
  passSignals
  return result

def addPanel (p : Panel Float Binding) (c : Content) : Effect Desk Nat := do
  let panel := (← get).workspace.panels.length
  modify fun d => { d with workspace := d.workspace.push p, contents := d.contents ++ [c] }
  tryWorkspace fun w => return ((), ← w.add manager panel)
  return panel

def focusPanel (panel : Nat) : Effect Desk Unit :=
  tryWorkspace fun w => return ((), ← w.focus manager panel)

def removePanel (panel : Nat) : Effect Desk Unit :=
  tryWorkspace fun w => return ((), ← w.remove manager panel)

def closePanel (panel : Nat) : Effect Desk Unit := do
  if ← onWorkspace (·.beginClose panel) then
    workspacePart.update (·.prepareClosing manager panel)
    registration.add (.closing panel)

/-- Removes a panel as one that closes. -/
def closeAtOnce (panel : Nat) : Effect Desk Unit := do
  Effect.ofExcept (← onWorkspace (·.closeAtOnce manager panel))

/-- Collapses or expands a panel; tells whether it is expanded then. -/
def togglePanel (panel : Nat) : Effect Desk Bool := onWorkspace (·.toggleExpanded panel)

def finishClosing (panel : Nat) : Effect Desk Unit :=
  tryWorkspace fun w => return ((), ← w.finishClosing panel)

def closingFrame (panel : Nat) (time : Int) : Effect Desk FrameAction :=
  tryWorkspace (·.closingFrame panel time)

end DebugDesk.Desk
