import DebugDesk.App.Program

/-!
# Scenarios of the program

A run of the program with all that happens to it given beforehand: one list of events for each pass
of the main loop. The program is looked at before each pass and once at the end.
-/
namespace DebugDesk.App

open Desk

variable [Platform]

inductive Event where
  | user (action : UserAction)
  | runRequests
  /-- The network is going to answer so. -/
  | replies (outcomes : List (Except Fault Reply))
  /-- The mouse is moved over the vertex at a position in the graph panel. -/
  | overVertex (position : Int)
  | interrupt

/-- What an event answers: for some, whether there was anything that it could happen to. -/
abbrev Answer := Except Fault (Option Bool)

def graphWidget? (d : Desk) : Option Nat := do
  let panel ← d.workspace.find manager graphTitle
  match d.contents[panel]? with
  | some (.graph c) => c.widget
  | _ => none

def mouseOverVertex (position : Int) : Effect Desk Unit := do
  match graphWidget? (← get) with
  | none => throw .missing
  | some w =>
    let p ← vertexOnScreen w position
    toolkitPart.update (Gui.setMouse · p)

/-- Has an event happen. An interrupt is not for it to handle. -/
def happen : Event → Effect Desk (Option Bool)
  | .user action => act choose action
  | .runRequests => do
    link.runner.runQueued
    return none
  | .replies outcomes => do
    modify fun d => { d with replies := d.replies ++ outcomes }
    return none
  | .overVertex position => do
    mouseOverVertex position
    return none
  | .interrupt => return none

/-- Has events happen, each after the failure of another as well, up to an interrupt: their answers,
whether there was an interrupt, and the desk afterwards. -/
def happenAll : List Event → Desk → (List Answer × Bool) × Desk
  | [], d => (([], false), d)
  | .interrupt :: _, d => (([], true), d)
  | event :: rest, d =>
    let (answer, d) := (happen event).outcome d
    let ((answers, interrupted), d) := happenAll rest d
    ((answer :: answers, interrupted), d)

/-- The desk as it is looked at, with the answers since the last look and the log with its times. -/
structure Look where
  desk : Desk
  answers : List Answer
  log : List (LogEntry × String)

structure Run where
  looks : List Look
  ending : Except Fault Unit
  last : Desk

def forgetSeen (d : Desk) : Desk :=
  { d with toolkit := Gui.forget d.toolkit, sent := [] }

def Run.finish (d : Desk) : Run :=
  let (ending, d) := App.finish.outcome d
  ⟨[], ending, d⟩

/-- The main loop. It ends when nothing more is to happen, when the program is stopped or
interrupted, and by the failure of a pass or of a look. -/
def Run.loop (answers : List Answer) (d : Desk) (events : List (List Event)) : Run :=
  match d.log.timed Platform.zone, events with
  | .error fault, _ => ⟨[], .error fault, forgetSeen d⟩
  | .ok log, [] => { Run.finish (forgetSeen d) with looks := [⟨d, answers, log⟩] }
  | .ok log, events :: rest =>
    let ((next, interrupted), after) := happenAll events (forgetSeen d)
    let run :=
      if interrupted || after.stopped then Run.finish after
      else
        match pass.outcome after with
        | (.ok (), after) => Run.loop next after rest
        | (.error fault, after) => ⟨[], .error fault, after⟩
    { run with looks := ⟨d, answers, log⟩ :: run.looks }

def Run.ofStart (s : Arguments.Start) (text : Option String) (replies : List (Except Fault Reply))
    (events : List (List Event)) : Run :=
  match (start s text).outcome { App.desk with replies } with
  | (.ok (), d) => Run.loop [] d events
  | (.error fault, d) => ⟨[], .error fault, d⟩

end DebugDesk.App
