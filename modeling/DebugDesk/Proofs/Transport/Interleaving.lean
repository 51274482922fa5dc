import Mathlib.Logic.Function.Basic
import Mathlib.Logic.Relation
import DebugDesk.Transport.Basic

/-!
# Interleavings of a transport

Threads call a transport while an executor runs its tasks. A step is what happens between two points
at which another thread may come in: the manager's lock is held while tasks are submitted and
cancelled, the queue is changed at once, and flags are read at any time. A request is known by the
number of its task, which its callback carries.
-/
namespace DebugDesk

namespace Interleaving

variable {κ : Type}

/-- How far the work of a task is. -/
inductive Work where
  | ahead
  /-- It has found its flag not set. -/
  | begun
  /-- The request is on the wire. -/
  | posted
  /-- The reply was read, and is to be queued. -/
  | answered (content : Json)
  /-- It has the lock of the queue, and has found its flag not set. -/
  | queueing (content : Json)
  | over

inductive Reason (κ : Type) where
  | discard (owner : κ)
  | shutdown

def Reason.covers : Reason κ → Option κ → Prop
  | .discard o, owner => owner = some o
  | .shutdown, _ => True

def Reason.forgets : Reason κ → Bool
  | .discard _ => true
  | .shutdown => false

/-- What a thread is in the middle of. The cancelling calls know how many tasks there were when they
took the lock. -/
inductive Caller (κ : Type) where
  | idle
  /-- Has handed a task to the executor that is not tracked yet. -/
  | submitting (task : Nat)
  /-- Is about to set the flags of tasks, one after the other. -/
  | cancelling (reason : Reason κ) (before : Nat) (tasks : List Nat)
  /-- Has set the flag of a task, and is about to withdraw it. -/
  | withdrawing (reason : Reason κ) (before : Nat) (task : Nat) (tasks : List Nat)
  | released (reason : Reason κ) (before : Nat)
  /-- Has forgotten all tasks, and is about to empty the queue. -/
  | emptying (before : Nat)

def Caller.holds : Caller κ → Prop
  | .submitting _ | .cancelling .. | .withdrawing .. => True
  | .idle | .released .. | .emptying _ => False

structure Scene (κ : Type) where
  transport : HostTransport κ Nat
  work : Nat → Work
  callers : Nat → Caller κ
  /-- What each poll has still to hand over, in order of their beginning. -/
  polls : List (List (Response κ Nat))
  /-- What was handed over: by which poll, and to whose callback. -/
  delivered : List (Nat × Nat)
  /-- The requests that were posted. -/
  posted : List Nat

namespace Scene

def start (url : String) (headers : Json) (timeout : Float) (executor : Executor) : Scene κ :=
  ⟨.make url headers timeout executor, fun _ => .ahead, fun _ => .idle, [], [], []⟩

def tasks (s : Scene κ) : TaskManager κ (Request κ Nat) := s.transport.tasks

def count (s : Scene κ) : Nat := s.tasks.tasks.length

def Free (s : Scene κ) : Prop := ∀ k, ¬(s.callers k).holds

def QueueFree (s : Scene κ) : Prop := ∀ i content, s.work i ≠ .queueing content

def put (s : Scene κ) (k : Nat) (c : Caller κ) : Scene κ :=
  { s with callers := Function.update s.callers k c }

def setWork (s : Scene κ) (i : Nat) (w : Work) : Scene κ :=
  { s with work := Function.update s.work i w }

def onTasks (s : Scene κ) (f : TaskManager κ (Request κ Nat) → TaskManager κ (Request κ Nat)) :
    Scene κ :=
  { s with transport := { s.transport with tasks := f s.transport.tasks } }

def onTransport (s : Scene κ) (f : HostTransport κ Nat → HostTransport κ Nat) : Scene κ :=
  { s with transport := f s.transport }

/-- Begins a poll, which takes all that is queued. -/
def beginPoll (s : Scene κ) : Scene κ :=
  { s with
    transport := s.transport.emptyQueue
    polls := s.polls ++ [s.transport.queue] }

/-- Takes what a poll has still to hand over. -/
def setPoll (s : Scene κ) (p : Nat) (rest : List (Response κ Nat)) : Scene κ :=
  { s with polls := s.polls.set p rest }

end Scene

end Interleaving

namespace TaskManager

variable {κ ρ : Type}

def settle (m : TaskManager κ ρ) (i : Nat) : TaskManager κ ρ :=
  if (m.progressOf i).isOver then m.untrack i else m

def withdraw (m : TaskManager κ ρ) (i : Nat) : TaskManager κ ρ :=
  if m.progressOf i = .waiting then (m.setProgress i .withdrawn).untrack i else m

end TaskManager

namespace Interleaving

variable {κ : Type}

open Scene

/-- A step of a thread, of a task, or of the executor. -/
inductive Step [DecidableEq κ] : Scene κ → Scene κ → Prop
  | request {s : Scene κ} {k : Nat} {r : Request κ Nat} : s.callers k = .idle → s.Free →
      s.tasks.executor ≠ .immediate → (∀ c ∈ r.callback, c = s.count) →
      Step s ((s.onTasks (·.accept r r.owner)).put k (.submitting s.count))
  | track {s : Scene κ} {k i : Nat} : s.callers k = .submitting i →
      Step s ((s.onTasks fun m => (m.track i).settle i).put k .idle)
  | discard {s : Scene κ} {k : Nat} (o : κ) : s.callers k = .idle → s.Free →
      Step s (s.put k (.cancelling (.discard o) s.count (s.tasks.ownedBy (some o))))
  | shutdown {s : Scene κ} {k : Nat} : s.callers k = .idle → s.Free →
      Step s (s.put k (.cancelling .shutdown s.count s.tasks.tracked))
  | strike {s : Scene κ} {k n i : Nat} {g : Reason κ} {is : List Nat} :
      s.callers k = .cancelling g n (i :: is) → s.tasks.isTracked i = true →
      Step s ((s.onTasks (·.strike i g.forgets)).put k (.withdrawing g n i is))
  | withdraw {s : Scene κ} {k n i : Nat} {g : Reason κ} {is : List Nat} :
      s.callers k = .withdrawing g n i is →
      Step s ((s.onTasks (·.withdraw i)).put k (.cancelling g n is))
  | release {s : Scene κ} {k n : Nat} {g : Reason κ} : s.callers k = .cancelling g n [] →
      Step s (s.put k (.released g n))
  | drop {s : Scene κ} {k n : Nat} {o : κ} : s.callers k = .released (.discard o) n →
      s.QueueFree → Step s ((s.onTransport (·.drop o)).put k .idle)
  | forget {s : Scene κ} {k n : Nat} : s.callers k = .released .shutdown n → s.Free →
      Step s ((s.onTasks (·.forgetAll)).put k (.emptying n))
  | empty {s : Scene κ} {k n : Nat} : s.callers k = .emptying n → s.QueueFree →
      Step s ((s.onTransport (·.emptyQueue)).put k .idle)
  | poll {s : Scene κ} : s.QueueFree → Step s s.beginPoll
  | deliver {s : Scene κ} {p : Nat} {r : Response κ Nat} {rest : List (Response κ Nat)} :
      s.polls[p]? = some (r :: rest) →
      Step s { s.setPoll p rest with delivered := s.delivered ++ [(p, r.callback)] }
  /-- A callback failed, and the others are not called. -/
  | abandon {s : Scene κ} {p : Nat} : Step s (s.setPoll p [])
  | start {s : Scene κ} {i : Nat} : s.tasks.progressOf i = .waiting → i < s.count →
      Step s (s.onTasks (·.setProgress i .running))
  | begin {s : Scene κ} {i : Nat} : s.tasks.progressOf i = .running → s.work i = .ahead →
      Step s (s.setWork i (if s.tasks.isCancelled i then .over else .begun))
  | post {s : Scene κ} {i : Nat} : s.work i = .begun →
      Step s { s.setWork i .posted with posted := s.posted ++ [i] }
  /-- The reply is read, unless the request failed or none is wanted. -/
  | reply {s : Scene κ} {i : Nat} (content : Option Json) : s.work i = .posted →
      Step s (s.setWork i (content.elim .over .answered))
  | check {s : Scene κ} {i : Nat} {content : Json} : s.work i = .answered content →
      s.QueueFree →
      Step s (s.setWork i (if s.tasks.isCancelled i then .over else .queueing content))
  | append {s : Scene κ} {i : Nat} {t : Task κ (Request κ Nat)} {content : Json} :
      s.work i = .queueing content → s.tasks.task? i = some t →
      Step s ((s.onTransport (·.answer t.work content)).setWork i .over)
  | finish {s : Scene κ} {i : Nat} : s.work i = .over → s.tasks.progressOf i = .running →
      Step s (s.onTasks (·.setProgress i .finished))
  | announce {s : Scene κ} {i : Nat} : s.Free →
      Step s (s.onTasks (·.settle i))

abbrev Steps [DecidableEq κ] : Scene κ → Scene κ → Prop := Relation.ReflTransGen Step

def Reachable [DecidableEq κ] (s : Scene κ) : Prop :=
  ∃ url headers timeout executor, Steps (Scene.start url headers timeout executor) s

end Interleaving

end DebugDesk
