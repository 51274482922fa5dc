import DebugDesk.Task.Runner

/-!
# Scripted tasks

Tasks whose work carries out commands to their own task manager, and whose callback may fail. Tasks
are named by the script; a name stands for the latest task that was submitted under it.
-/
namespace DebugDesk.TaskScript

inductive Command where
  /-- Submits a task that carries out commands and may then fail. It has no callback, or one that
  fails or not. -/
  | submit (name : String) (owner : Option String) (during : List Command) (raises : Bool)
      (callback : Option Bool)
  | cancel (name : String) (forget : Bool)
  | cancelOwned (owner : Option String)
  | owned (owner : Option String)
  | clear
  | run
  /-- Whether all tasks so far have numbers of their own. -/
  | unique

namespace Command

/-- The word for a command. -/
def word : Command → String
  | submit .. => "submit"
  | cancel .. => "cancel"
  | cancelOwned _ => "cancel_owned"
  | owned _ => "owned"
  | clear => "clear"
  | run => "run"
  | unique => "unique"

mutual

def count : Command → Nat
  | submit _ _ during _ _ => countAll during + 1
  | _ => 1

def countAll : List Command → Nat
  | [] => 0
  | c :: rest => count c + countAll rest

end

end Command

inductive Answer where
  | nothing
  | name (s : String)
  | count (n : Nat)
  | names (ss : List String)
  | flag (b : Bool)

inductive Event where
  /-- A task began, with its flag set or not. -/
  | run (name : String) (cancelled : Bool)
  /-- A task carried out a command. -/
  | did (command : String) (answer : Except Fault Answer)
  /-- A callback was called; the number of the task has a name only when the submission is over. -/
  | done (name : String) (cancelled : Bool) (known : Option String)

structure Job where
  name : String
  during : List Command
  raises : Bool
  callback : Option Bool

structure Floor where
  manager : TaskManager String Job
  /-- The names of the tasks that were submitted, latest first. -/
  names : List (Nat × String)
  events : List Event

namespace Floor

def start (mode : TaskMode) (executor : Executor) : Floor := ⟨.make mode executor, [], []⟩

def nameOf (s : Floor) (i : Nat) : Option String := s.names.lookup i

def tracked (s : Floor) : List (Option String) := s.manager.tracked.map s.nameOf

def record (e : Event) : Effect Floor Unit := modify fun s => { s with events := s.events ++ [e] }

def named (name : String) : Effect Floor Nat := do
  match (← get).names.find? fun (_, n) => n = name with
  | some (i, _) => return i
  | none => throw .untrackedTask

/-- The tasks of the script, given what carries out commands. -/
def runner (carryOut : Command → Effect Floor Answer) : TaskRunner Floor String Job where
  manager := ⟨Floor.manager, fun m s => { s with manager := m }⟩
  perform i job := do
    record (.run job.name ((← get).manager.isCancelled i))
    job.during.forM fun c => do
      let answer ← (carryOut c).attempt
      record (.did c.word answer)
    if job.raises then throw .scripted
  done i job := do
    match job.callback with
    | none => return ()
    | some raises =>
      let s ← get
      record (.done job.name (s.manager.isCancelled i) (s.nameOf i))
      if raises then throw .scripted

/-- Carries out a command, with nesting limited to a depth. -/
def perform : Nat → Command → Effect Floor Answer
  | 0, _ => throw .tooDeep
  | depth + 1, command => do
    let R := runner (perform depth)
    match command with
    | .submit name owner during raises callback =>
      let i ← R.submit ⟨name, during, raises, callback⟩ owner
      modify fun s => { s with names := (i, name) :: s.names }
      return .name name
    | .cancel name forget =>
      R.cancel (← named name) forget
      return .nothing
    | .cancelOwned owner => return .count (← R.cancelOwned owner)
    | .owned owner =>
      let s ← get
      return .names ((s.manager.ownedBy owner).map fun i => (s.nameOf i).getD "?")
    | .clear =>
      R.clear
      return .nothing
    | .run =>
      R.runQueued
      return .nothing
    | .unique =>
      let numbers := (← get).names.map Prod.fst
      return .flag (numbers.eraseDups == numbers)

/-- Carries out a command: its answer, what happened meanwhile, and the state after it. A depth of
as many commands as there are is enough, because no command is carried out twice. -/
def step (depth : Nat) (s : Floor) (c : Command) : Except Fault Answer × List Event × Floor :=
  let (answer, s) := (perform depth c).outcome s
  (answer, s.events, { s with events := [] })

end Floor

end DebugDesk.TaskScript
