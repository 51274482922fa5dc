import DebugDesk.Effect
import DebugDesk.Task.Manager

/-!
# Running tasks

What a task does, and what is called when it is over, may use the task manager again. The end of a
task is announced once: by the executor, or when it is withdrawn. If the task is tracked then, its
callback is called, and after that it is no longer tracked, even if the callback fails.
-/
namespace DebugDesk

/-- A task manager inside a state, and what its tasks do there. -/
structure TaskRunner (σ κ ρ : Type) where
  manager : Part σ (TaskManager κ ρ)
  /-- The work of a task. -/
  perform : (task : Nat) → ρ → Effect σ Unit
  done : (task : Nat) → ρ → Effect σ Unit

namespace TaskRunner

variable {σ κ ρ : Type} (R : TaskRunner σ κ ρ)

def announce (i : Nat) : Effect σ Unit := do
  let m ← R.manager.read
  if m.isTracked i then
    (m.task? i).toList.forM fun t => (R.done i t.work).quietly
    R.manager.update (·.untrack i)

/-- Runs a task to its end; a failure of its work stays with the task. -/
def execute (i : Nat) : Effect σ Unit := do
  match (← R.manager.read).task? i with
  | some t =>
    R.manager.update (·.setProgress i .running)
    (R.perform i t.work).quietly
    R.manager.update (·.setProgress i .finished)
    R.announce i
  | none => return ()

def withdraw (i : Nat) : Effect σ Unit := do
  if (← R.manager.read).progressOf i = .waiting then
    R.manager.update (·.setProgress i .withdrawn)
    R.announce i

/-- Cancels a tracked task: sets its flag, and withdraws it if possible. It may go on being tracked
until it is over. -/
def cancel (i : Nat) (forget : Bool) : Effect σ Unit := do
  if !(← R.manager.read).isTracked i then throw .untrackedTask
  R.manager.update (·.strike i forget)
  R.withdraw i

/-- Cancels and forgets all tracked tasks of an owner; tells how many. -/
def cancelOwned [DecidableEq κ] (owner : Option κ) : Effect σ Nat := do
  let owned := (← R.manager.read).ownedBy owner
  owned.forM fun i => R.cancel i true
  return owned.length

/-- Cancels all tracked tasks, and then forgets them. -/
def clear : Effect σ Unit := do
  (← R.manager.read).tracked.forM fun i => R.cancel i false
  R.manager.update (·.forgetAll)

/-- Submits a task; tells its number. -/
def submit (work : ρ) (owner : Option κ) : Effect σ Nat := do
  if (← R.manager.read).mode = .sequential then R.clear
  let m ← R.manager.read
  let i := m.tasks.length
  R.manager.update (·.accept work owner)
  if m.executor = .immediate then R.execute i
  R.manager.update (·.track i)
  if ((← R.manager.read).progressOf i).isOver then R.announce i
  return i

/-- Lets the executor run all that it has queued so far, in order, except what was withdrawn. -/
def runQueued : Effect σ Unit := do
  let queued := (← R.manager.read).queue
  R.manager.update fun m => { m with queue := [] }
  queued.forM fun i => do
    if (← R.manager.read).progressOf i != .withdrawn then R.execute i

end TaskRunner

end DebugDesk
