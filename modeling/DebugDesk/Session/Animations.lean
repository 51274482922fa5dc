import DebugDesk.Session.Reading
import DebugDesk.Animation.Scenario
import DebugDesk.Task.Scenario

/-!
# Animator and task sessions

Scripted animations under an animator, and scripted tasks under a task manager.
-/
namespace DebugDesk.Session

def numbered (j : Json) : List (Nat × Json) :=
  match j with
  | .object members => members.filterMap fun (k, v) =>
    (k.toNat?.filter fun n => toString n = k).map fun n => (n, v)
  | _ => []

def flagOr (absent : Bool) (j : Option Json) : Bool :=
  match j with
  | some b => toBool b
  | none => absent

/-- The command of a step. Only so many levels of steps inside it are read. -/
def animationCommand : Nat → Json → Animation.Command
  | 0, _ => .clear
  | levels + 1, j =>
    let (step, args) := stepOf j
    let name := toStr (arg args 0)
    let commands (steps : Json) := (toList steps).map (animationCommand levels)
    match step with
    | "new" =>
      let spec := arg args 1
      .create name ((toList (field spec "frames")).map fun w => FrameAction.ofWord (toStr w))
        ((numbered (field spec "on_frame")).map fun (k, steps) => (k, commands steps))
        (commands (field spec "on_finish"))
    | "add" => .add name
    | "cancel" => .cancel name (flagOr true (arg? args 1))
    | "running" => .running name
    | "frame" => .frame (match arg args 0 with
        | .null => none
        | t => some (toInt t))
    | "clock" => .setClock (toInt (arg args 0))
    | "elapsed" => .elapsed name (toInt (arg args 1))
    | _ => .clear

def eventReport : Animation.Event → Report
  | .reset name start => .list [.str "reset", .str name, .str (toString start)]
  | .frame name seconds => .list [.str "frame", .str name, .rounded seconds]
  | .finish name => .list [.str "finish", .str name]

def answerReport : Animation.Answer → Report
  | .nothing => .null
  | .name s => .str s
  | .flag b => .bool b
  | .seconds x => Report.exact x

def animatorStep (s : Animation.Stage) (c : Animation.Command) : Report × Animation.Stage :=
  let (answer, events, s) := s.step c
  (.object [("r", .orFailed answerReport answer), ("events", .list (events.map eventReport)),
    ("list", .strings s.registered)], s)

def animatorSession (input : Json) : Report :=
  let commands := (toList (field input "steps")).map fun j => animationCommand j.depth j
  .object [("steps", .list (reportEach animatorStep .empty commands))]

open TaskScript

def executorOf : Json → Executor
  | .str "immediate" => .immediate
  | .str "started" => .started
  | _ => .deferred

def ownerOf : Json → Option String
  | .str owner => some owner
  | _ => none

/-- The command of a step. Only so many levels of steps inside it are read. -/
def taskCommand : Nat → Json → TaskScript.Command
  | 0, _ => .clear
  | levels + 1, j =>
    let (step, args) := stepOf j
    let name := toStr (arg args 0)
    match step with
    | "submit" =>
      let spec := arg args 2
      .submit name (ownerOf (arg args 1))
        ((toList (field spec "during")).map (taskCommand levels)) (toBool (field spec "raises"))
        (match field spec "done" with
          | .str "raises" => some true
          | done => if toBool done then some false else none)
    | "cancel" => .cancel name (flagOr true (arg? args 1))
    | "cancel_owned" => .cancelOwned (ownerOf (arg args 0))
    | "owned" => .owned (ownerOf (arg args 0))
    | "run" => .run
    | "unique" => .unique
    | _ => .clear

def taskAnswer : Answer → Report
  | .nothing => .null
  | .name s => .str s
  | .count n => .nat n
  | .names ss => .strings ss
  | .flag b => .bool b

def taskEvent : Event → Report
  | .run name cancelled => .list [.str "run", .str name, .bool cancelled]
  | .did command answer => .list [.str "did", .str command, .orFailed taskAnswer answer]
  | .done name cancelled known =>
    .list [.str "done", .str name, .bool cancelled, .str (known.getD "?")]

def taskStep (depth : Nat) (s : Floor) (c : TaskScript.Command) : Report × Floor :=
  let (answer, events, s) := s.step depth c
  (.object [("r", .orFailed taskAnswer answer), ("events", .list (events.map taskEvent)),
    ("has", .bool s.manager.hasTasks), ("tasks", .strings (s.tracked.map (·.getD "?")))], s)

def taskSession (input : Json) : Report :=
  .ofExcept do
    let mode ← TaskMode.ofWord (toStr (field input "mode"))
    let commands := (toList (field input "steps")).map fun j => taskCommand j.depth j
    let start := Floor.start mode (executorOf (field input "executor"))
    return .object
      [("steps", .list (reportEach (taskStep (Command.countAll commands)) start commands))]

end DebugDesk.Session
