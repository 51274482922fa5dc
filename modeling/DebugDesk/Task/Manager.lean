import DebugDesk.Fault

/-!
# Task manager

Tasks are handed to an executor and tracked until they end. A task that is cancelled is told so by a
flag, and is not run at all if the executor has not begun it. Task numbers count submissions, so no
two tasks share one.
-/
namespace DebugDesk

/-- Whether tasks may be in flight together, or a new one cancels all earlier ones. -/
inductive TaskMode where
  | concurrent
  | sequential
  deriving DecidableEq, Repr

def TaskMode.ofWord : String → Except Fault TaskMode
  | "concurrent" => .ok .concurrent
  | "sequential" => .ok .sequential
  | word => .error (.unknownMode word)

/-- When an executor runs what is submitted to it. -/
inductive Executor where
  /-- Later. -/
  | deferred
  /-- At once, before the submission is over. -/
  | immediate
  /-- Later, but from submission on it is too late to withdraw. -/
  | started
  deriving DecidableEq, Repr

inductive Progress where
  | waiting
  | running
  | finished
  /-- Cancelled before it began. -/
  | withdrawn
  deriving DecidableEq, Repr

/-- Whether nothing more will come of a task. -/
def Progress.isOver : Progress → Bool
  | finished | withdrawn => true
  | waiting | running => false

structure Task (κ ρ : Type) where
  /-- Who wants it. -/
  owner : Option κ
  work : ρ
  /-- The flag that asks the work to end early. -/
  cancelled : Bool
  progress : Progress

structure TaskManager (κ ρ : Type) where
  mode : TaskMode
  executor : Executor
  /-- All tasks ever submitted, by number. -/
  tasks : List (Task κ ρ)
  /-- The tasks being tracked, in order of submission. -/
  tracked : List Nat
  /-- What the executor has still to run, in order. -/
  queue : List Nat

namespace TaskManager

variable {κ ρ : Type}

def make (mode : TaskMode) (executor : Executor) : TaskManager κ ρ := ⟨mode, executor, [], [], []⟩

def hasTasks (m : TaskManager κ ρ) : Bool := !m.tracked.isEmpty

def task? (m : TaskManager κ ρ) (i : Nat) : Option (Task κ ρ) := m.tasks[i]?

def isCancelled (m : TaskManager κ ρ) (i : Nat) : Bool :=
  ((m.task? i).map Task.cancelled).getD false

def isTracked (m : TaskManager κ ρ) (i : Nat) : Bool := m.tracked.contains i

/-- How far a task is; one that was never submitted is waiting. -/
def progressOf (m : TaskManager κ ρ) (i : Nat) : Progress :=
  ((m.task? i).map Task.progress).getD .waiting

/-- The tracked tasks of an owner; tasks without owner belong together. -/
def ownedBy [DecidableEq κ] (m : TaskManager κ ρ) (owner : Option κ) : List Nat :=
  m.tracked.filter fun i => (m.task? i).map Task.owner = some owner

def modifyTask (m : TaskManager κ ρ) (i : Nat) (f : Task κ ρ → Task κ ρ) : TaskManager κ ρ :=
  { m with tasks := m.tasks.modify i f }

def setProgress (m : TaskManager κ ρ) (i : Nat) (p : Progress) : TaskManager κ ρ :=
  m.modifyTask i fun t => { t with progress := p }

def flag (m : TaskManager κ ρ) (i : Nat) : TaskManager κ ρ :=
  m.modifyTask i fun t => { t with cancelled := true }

def track (m : TaskManager κ ρ) (i : Nat) : TaskManager κ ρ :=
  { m with tracked := m.tracked ++ [i] }

def untrack (m : TaskManager κ ρ) (i : Nat) : TaskManager κ ρ :=
  { m with tracked := m.tracked.erase i }

/-- Sets the flag of a task, which may go on being tracked. -/
def strike (m : TaskManager κ ρ) (i : Nat) (forget : Bool) : TaskManager κ ρ :=
  (if forget then m.untrack i else m).flag i

def forgetAll (m : TaskManager κ ρ) : TaskManager κ ρ := { m with tracked := [] }

/-- Takes a new task over, not yet tracked. An executor that runs it later queues it. -/
def accept (m : TaskManager κ ρ) (work : ρ) (owner : Option κ) : TaskManager κ ρ :=
  let progress := match m.executor with
    | .deferred => Progress.waiting
    | .immediate | .started => .running
  { m with
    tasks := m.tasks ++ [⟨owner, work, false, progress⟩]
    queue := match m.executor with
      | .immediate => m.queue
      | .deferred | .started => m.queue ++ [m.tasks.length] }

end TaskManager

end DebugDesk
