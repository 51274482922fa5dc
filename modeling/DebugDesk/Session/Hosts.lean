import DebugDesk.Session.Panels
import DebugDesk.Session.Widgets

/-!
# Host sessions

Panels with contents of all kinds, shown as windows on a desk.
-/
namespace DebugDesk.Session

/-- The content of a panel as it is described. -/
def contentOf (j : Option Json) : Effect Desk Desk.Content := do
  let clock (interval : Float) : Desk.Content := .clock ⟨interval, none, none⟩
  match j with
  | none => return .recording
  | some (.str "clock") => return clock Desk.ClockContent.standardInterval
  | some (.str "log") => return .log ⟨none, none, none⟩
  | some (.object members) =>
    match members.lookup "clock" with
    | some interval => return clock (toFloat interval)
    | none =>
      let graph ← keepGraph ((members.lookup "graph").getD .null)
      let toolbar := floatField (.object members) "toolbar" Desk.GraphContent.standardToolbar
      return .graph ⟨graph, toolbar, .standard, none⟩
  | some j => return if toBool j then .recording else .nothing

structure HostState where
  desk : Desk
  /-- The names of the panels. -/
  names : List String

namespace HostState

def deskPart : Part HostState Desk := ⟨HostState.desk, fun d s => { s with desk := d }⟩

def nameOf (s : HostState) (i : Nat) : String := s.names.getD i ""

def eventReport (s : HostState) : Desk.Event → Report
  | .built i => .list [.str (s.nameOf i), .str "build"]
  | .resized i w h => signalReport (s.nameOf i) (.resized w h)
  | .suppressed i flag => signalReport (s.nameOf i) (.suppressed flag)
  | .input i flag => .list [.str (s.nameOf i), .str "input", .bool flag]
  | .destroyed i => signalReport (s.nameOf i) .destroyed
  | .selected i id => .list [.opt (fun i => .str (s.nameOf i)) i, .str "select", .opt .int id]

def named (name : String) : Effect HostState Nat := do
  match latest (← get).names name with
  | some i => return i
  | none => throw .unknownName

def add (name : String) (opts : Json) : Effect HostState Unit := do
  let content ← deskPart.within (contentOf (opts.get? "content"))
  modify fun s => { s with names := s.names ++ [name] }
  let _ ← deskPart.within (Desk.addPanel (panelOf name opts) content)

/-- What a step has done to a panel, if it is a step of that kind. -/
def panelStep? (name : String) (args : List Json) : Option (Nat → Effect Desk Report) :=
  let silently (f : Nat → Effect Desk Unit) : Option (Nat → Effect Desk Report) :=
    some fun i => do
      f i
      return .null
  let flag := toBool (arg args 1)
  match name with
  | "focus" => silently Desk.focusPanel
  | "remove" => silently Desk.removePanel
  | "close" =>
    silently (if flagOr true (arg? args 1) then Desk.closePanel else Desk.closeAtOnce)
  | "toggle" => some fun i => return .bool (← Desk.togglePanel i)
  | "recenter" => silently Desk.recenterGraph
  | "fit" => silently Desk.fitGraph
  | "suppress" => silently (Desk.suppressContent · flag)
  | "input" => silently (Desk.enableContent · flag)
  | "resized" => silently (Desk.resizeContent · (toFloat (arg args 1)) (toFloat (arg args 2)))
  | "destroy_content" => silently Desk.destroyContent
  | "set_graph" => silently fun i => do Desk.showGraph i (← keepGraph (arg args 1))
  | _ => none

/-- What a step does to the desk as a whole. -/
def deskWideStep (name : String) (args : List Json) : Effect Desk Report := do
  match name with
  | "frame" =>
    Desk.renderFrame
    return .null
  | "log" =>
    let moment ← Desk.seconds
    let (kind, detail, message) := (toStr (arg args 0), arg args 1, arg args 2)
    modify fun d => { d with log := d.log.add moment kind detail message }
    return .null
  | "close_all" =>
    ((← get).workspace.members Desk.manager).forM Desk.closeAtOnce
    return .null
  | "destroy" =>
    Desk.destroyHost
    return .null
  | _ => return .null

def step (name : String) (args : List Json) : Effect HostState Report := do
  match userAction? name args, panelStep? name args with
  | some action, _ => deskPart.within (userStep (fun _ => return ()) action)
  | none, some f => do
    let i ← named (toStr (arg args 0))
    deskPart.within (f i)
  | none, none =>
    if name = "add" then
      add (toStr (arg args 0)) (arg args 1)
      return .null
    else deskPart.within (deskWideStep name args)

def state (s : HostState) : List (String × Report) × HostState :=
  let (calls, d) := takeCalls s.desk
  let (events, d) := takeEvents d
  (callFields calls ++
    [("events", .list (events.map s.eventReport)),
      ("panels", .list (d.workspace.panels.zipIdx.map fun (p, i) => panelReport (s.nameOf i) p)),
      ("animations", .nat d.registry.length)], { s with desk := d })

end HostState

/-- A desk whose host shows panels. -/
def hostDesk (input : Json) : Except Fault Unit × Desk :=
  let opts := field input "host"
  let origin := floats (field opts "origin")
  (Desk.makeHost ⟨origin.getD 0 0, origin.getD 1 0⟩
    (floatField opts "button_width" Desk.standardButtonWidth)
    (floatField opts "resize_handle_size" Panel.standardHandle)).outcome
    (.empty (.make (floatField input "grid" PanelManager.standardGrid)
      (floatField input "stage" PanelManager.standardStage)))

def hostSession (input : Json) : Report :=
  .ofExcept do
    let (made, d) := hostDesk input
    made
    let (calls, d) := takeCalls d
    return .object [("start", .object [("calls", .list (calls.map callReport))]),
      ("steps", stepsReport (fun s name args =>
        let (result, s) := (HostState.step name args).outcome s
        (.ofExcept result, s)) HostState.state ⟨d, []⟩ input)]

end DebugDesk.Session
