import DebugDesk.App.Scenario
import DebugDesk.Session.Hosts
import DebugDesk.Session.Transports

/-!
# Program sessions

The whole program, from its command line to its end, with all that happens to it.
-/
namespace DebugDesk.Session

open App

/-- The event of a step. -/
def appEvent (j : Json) : App.Event :=
  let (name, args) := stepOf j
  match userAction? name args with
  | some action => .user action
  | none =>
    match name with
    | "run" => .runRequests
    | "host" => .replies (args.map replyOutcome)
    | "over" => .overVertex (toInt (arg args 0))
    | "interrupt" => .interrupt
    | _ => .replies []

def eventsOf (line : String) : List App.Event :=
  match Json.parse line with
  | .ok j => (toList j).map appEvent
  | .error _ => []

def graphViewReport (d : Desk) : Report :=
  .opt (fun widget =>
    let v := widget.view
    .object [("camera", .list [.rounded v.camera.x, .rounded v.camera.y, .rounded v.camera.zoom]),
      ("selected", .opt .nat ((v.shown? d.graphs).bind Graph.selected?))])
    ((graphWidget? d).bind fun w => d.widgets[w]?)

def lookReport (look : Look) : Report :=
  let d := look.desk
  let g := d.graphs.graph d.graph
  .object (callFields d.toolkit.takeCalls.1 ++
    [("results", .list (look.answers.map (.orFailed (.opt .bool)))),
      ("network", .list (d.sent.map postingReport)),
      ("panels",
        .list ((d.workspace.managed Desk.manager).map fun (_, p) => panelReport p.title p)),
      ("graph", .list [.nat g.size, .nat g.edges.length]),
      ("view", graphViewReport d),
      ("log", entriesReport look.log)])

def programReport (run : App.Run) : Report :=
  .object [("frames", .list (run.looks.map lookReport)),
    ("end", .orFailed (fun () => .object [("returned", .int 0)]) run.ending),
    ("last", .object (callFields run.last.toolkit.takeCalls.1)),
    ("animations", .nat run.last.registry.length)]

def exitReport (code : Int) (printed : String) : Report :=
  .object [("frames", .list []),
    ("end", .object [("exit", .int code), ("stdout", .str printed)]),
    ("last", .object (callFields [])), ("animations", .nat 0)]

def fileText (input : Json) (path : String) : Option String :=
  if path = "@FILE" then (field? input "file").map toStr else none

def appSession (input : Json) : Report :=
  match Arguments.parse ((toList (field input "argv")).map toStr) with
  | .showVersion => exitReport 0 Arguments.versionText
  | .showHelp => exitReport 0 Arguments.helpText
  | .refused => exitReport 2 ""
  | .start s =>
    programReport (.ofStart s (s.graph.bind (fileText input))
      ((toList (field input "responses")).map replyOutcome)
      ((toList (field input "steps")).map fun events => (toList events).map appEvent))

end DebugDesk.Session
