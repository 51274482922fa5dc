import DebugDesk.Animation.Animator

/-!
# Scripted animations

Animations whose frames follow a script: each frame carries out commands and answers with a given
action, and finishing carries out commands as well. Since commands may render frames and finish
animations again, their nesting is limited.
-/
namespace DebugDesk.Animation

inductive Command where
  /-- Makes an animation; its name then stands for it and not for an earlier one. Each frame answers
  with the next of the actions, and carries out the commands given for its number. -/
  | create (name : String) (frames : List FrameAction) (onFrame : List (Nat × List Command))
      (onFinish : List Command)
  | add (name : String)
  | cancel (name : String) (finalize : Bool)
  | running (name : String)
  | frame (time : Option Int)
  | clear
  | setClock (time : Int)
  /-- Seconds that an animation has been going on. -/
  | elapsed (name : String) (time : Int)

inductive Answer where
  | nothing
  | name (s : String)
  | flag (b : Bool)
  | seconds (x : Float)

inductive Event where
  | reset (name : String) (start : Int)
  | frame (name : String) (seconds : Float)
  | finish (name : String)

structure Actor where
  name : String
  frames : List FrameAction
  onFrame : List (Nat × List Command)
  onFinish : List Command
  start : Int
  count : Nat

structure Stage where
  actors : List Actor
  registry : List Nat
  clock : Int
  events : List Event

namespace Stage

def empty : Stage := ⟨[], [], 0, []⟩

def find? (s : Stage) (name : String) : Option Nat :=
  (s.actors.zipIdx.reverse.find? fun (a, _) => a.name = name).map Prod.snd

def nameOf (s : Stage) (i : Nat) : String := (s.actors[i]?.map Actor.name).getD ""

def registered (s : Stage) : List String := s.registry.map s.nameOf

def change (s : Stage) (i : Nat) (f : Actor → Actor) : Stage :=
  { s with actors := s.actors.modify i f }

def record (e : Event) : Effect Stage Unit := modify fun s => { s with events := s.events ++ [e] }

def actor (i : Nat) : Effect Stage Actor := do
  match (← get).actors[i]? with
  | some a => return a
  | none => throw .unknownName

def named (name : String) : Effect Stage Nat := do
  match (← get).find? name with
  | some i => return i
  | none => throw .unknownName

def restart (i : Nat) : Effect Stage Unit := do
  let now := (← get).clock
  modify (·.change i fun a => { a with start := now })
  record (.reset ((← get).nameOf i) now)

/-- The animator of the stage, given what carries out commands. -/
def animator (run : Command → Effect Stage Unit) : Animator Stage Nat where
  registry := ⟨Stage.registry, fun r s => { s with registry := r }⟩
  restart := restart
  render i time := do
    let a ← actor i
    modify (·.change i fun a => { a with count := a.count + 1 })
    record (.frame a.name (← Effect.ofExcept (elapsedSeconds a.start time)))
    ((a.onFrame.lookup a.count).getD []).forM run
    return (a.frames[a.count]?).getD .finish
  finish i := do
    let a ← actor i
    record (.finish a.name)
    a.onFinish.forM run

def depthLimit : Nat := 400

/-- Carries out a command, with nesting limited to a depth. -/
def perform : Nat → Command → Effect Stage Answer
  | 0, _ => throw .tooDeep
  | depth + 1, command => do
    let A := animator fun c => do
      let _ ← perform depth c
      return ()
    match command with
    | .create name frames onFrame onFinish =>
      let i := (← get).actors.length
      modify fun s => { s with actors := s.actors ++ [⟨name, frames, onFrame, onFinish, 0, 0⟩] }
      restart i
      return .nothing
    | .add name =>
      A.add (← named name)
      return .name name
    | .cancel name finalize =>
      A.cancel (← named name) finalize
      return .name name
    | .running name => return .flag (← A.isRunning (← named name))
    | .frame time =>
      A.renderFrame (time.getD (← get).clock)
      return .nothing
    | .clear =>
      A.clear
      return .nothing
    | .setClock time =>
      modify fun s => { s with clock := time }
      return .nothing
    | .elapsed name time =>
      return .seconds (← Effect.ofExcept (elapsedSeconds (← actor (← named name)).start time))

/-- Carries out a command: its answer, what happened meanwhile, and the stage after it. -/
def step (s : Stage) (c : Command) : Except Fault Answer × List Event × Stage :=
  let (answer, s) := (perform depthLimit c).outcome s
  (answer, s.events, { s with events := [] })

end Stage

end DebugDesk.Animation
