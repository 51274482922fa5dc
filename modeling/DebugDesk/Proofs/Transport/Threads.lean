import DebugDesk.Proofs.Effect.Threads
import DebugDesk.Proofs.Task.Walking
import DebugDesk.Proofs.Transport.Exchanges

/-!
# Threads of a transport

What the calls of a transport and its workers do, step by step. Between two steps other threads may
come in. The locks of the transport only rule some of the interleavings out. The lock of the queue
makes one step of what is done to the queue; a flag may be read at any time.
-/
namespace DebugDesk

/-- What a step of a thread belongs to. -/
inductive Duty where
  | calling
  /-- The work of a task, from its beginning to its end. -/
  | working (task : Nat)
  | managing
  deriving DecidableEq

namespace HostLink

variable {σ κ β : Type} (L : HostLink σ κ β)

/-- What is done with what was read, or with the failure to read it. -/
def settleCode (i : Nat) (r : Request κ β) : Except Fault (Option Json) → Code Duty σ Unit
  | .error fault =>
    if fault.isLogged then
      .one (.working i)
        (L.write LogBook.errorKind (.str "error") (.str s!"{r.method.display}: {fault.message}"))
    else .fail fault
  | .ok none => pure ()
  | .ok (some content) => do
    .one (.working i) (L.write LogBook.responseKind (HostTransport.statusOf content) content)
    .one (.working i) (L.transport.update (·.deposit i r content))

def carryOutCode (i : Nat) (r : Request κ β) : Code Duty σ Unit := do
  let t ← .one (.working i) L.transport.read
  if t.tasks.isCancelled i then pure ()
  else do
    let answer ← (Code.one (.working i) (L.exchange r)).attempt
    L.settleCode i r answer

/-- Sets a task running that is known; tells what it is to do. -/
def launch (i : Nat) : Effect σ (Option (Request κ β)) := do
  match (← L.runner.manager.read).task? i with
  | some t =>
    L.runner.manager.update (·.setProgress i .running)
    return some t.work
  | none => return none

def launchTaken (i : Nat) : Effect σ (Option (Request κ β)) := do
  if (← L.runner.manager.read).progressOf i != .withdrawn then L.launch i
  else return none

/-- Works on a task, if there is something to do. -/
def workCode (i : Nat) : Option (Request κ β) → Code Duty σ Unit
  | none => pure ()
  | some r => do
    (L.carryOutCode i r).quietly
    .one (.working i) (L.runner.manager.update (·.setProgress i .finished))
    .one .managing (L.runner.announce i)

def executeCode (i : Nat) : Code Duty σ Unit := .one (.working i) (L.launch i) >>= L.workCode i

def runTakenCode (i : Nat) : Code Duty σ Unit :=
  .one (.working i) (L.launchTaken i) >>= L.workCode i

def take (i : Nat) : Effect σ Bool := do
  if i ∈ (← L.runner.manager.read).queue then
    L.runner.manager.update fun m => { m with queue := m.queue.erase i }
    return true
  else return false

def takeAll : Effect σ (List Nat) := do
  let queued := (← L.runner.manager.read).queue
  L.runner.manager.update fun m => { m with queue := [] }
  return queued

def runOneCode (i : Nat) : Code Duty σ Unit := do
  if ← .one .managing (L.take i) then L.runTakenCode i else pure ()

def runQueuedCode : Code Duty σ Unit := do
  let queued ← .one .managing L.takeAll
  queued.forM L.runTakenCode

def strikeTracked (i : Nat) (forget : Bool) : Effect σ Unit := do
  if !(← L.runner.manager.read).isTracked i then throw .untrackedTask
  L.runner.manager.update (·.strike i forget)

def cancelCode (i : Nat) (forget : Bool) : Code Duty σ Unit := do
  .one .managing (L.strikeTracked i forget)
  .one .managing (L.runner.withdraw i)

def clearCode : Code Duty σ Unit := do
  let m ← .one .managing L.runner.manager.read
  m.tracked.forM fun i => L.cancelCode i false
  .one .managing (L.runner.manager.update (·.forgetAll))

def makeRoomCode : Code Duty σ Unit := do
  let m ← .one .managing L.runner.manager.read
  if m.mode = .sequential then L.clearCode else pure ()

/-- Hands a task over; tells what the manager was like before. -/
def accept (r : Request κ β) : Effect σ (TaskManager κ (Request κ β)) := do
  let m ← L.runner.manager.read
  L.runner.manager.update (·.accept r r.owner)
  return m

def runAtOnceCode (executor : Executor) (i : Nat) : Code Duty σ Unit :=
  if executor = .immediate then L.executeCode i else pure ()

def settleOver (i : Nat) : Effect σ Unit := do
  if ((← L.runner.manager.read).progressOf i).isOver then L.runner.announce i

def submitCode (r : Request κ β) : Code Duty σ Unit := do
  L.makeRoomCode
  let m ← .one .managing (L.accept r)
  L.runAtOnceCode m.executor m.tasks.length
  .one .managing (L.runner.manager.update (·.track m.tasks.length))
  .one .managing (L.settleOver m.tasks.length)

def requestCode (r : Request κ β) : Code Duty σ Unit :=
  if r.method.isVoid then .fail .emptyMethod
  else do
    .one .calling (L.write LogBook.requestKind r.method r.data)
    L.submitCode r

def takeAnswers : Effect σ (List (Response κ β)) := do
  let batch := (← L.transport.read).queue
  L.transport.update (·.emptyQueue)
  return batch

def pollCode : Code Duty σ Unit := do
  let batch ← .one .managing L.takeAnswers
  batch.forM fun r => .one .managing (L.deliver r.callback r.content)

def discardCode [DecidableEq κ] : Option κ → Code Duty σ Unit
  | none => pure ()
  | some o => do
    let m ← .one .managing L.runner.manager.read
    (m.ownedBy (some o)).forM fun i => L.cancelCode i true
    .one .managing (L.transport.update (·.drop o))

def shutdownCode : Code Duty σ Unit := do
  L.clearCode
  .one .managing (L.transport.update (·.emptyQueue))

end HostLink

/-- What a thread is for: a call of the transport, or a worker of its executor, which takes one task
off the queue or all of them. -/
inductive Role (κ β : Type) where
  | request (r : Request κ β)
  | runOne (task : Nat)
  | runQueued
  | poll
  | discard (owner : Option κ)
  | shutdown

namespace Role

variable {σ κ β : Type} [DecidableEq κ] (L : HostLink σ κ β)

def code : Role κ β → Code Duty σ Unit
  | request r => L.requestCode r
  | runOne i => L.runOneCode i
  | runQueued => L.runQueuedCode
  | poll => L.pollCode
  | discard owner => L.discardCode owner
  | shutdown => L.shutdownCode

def effect : Role κ β → Effect σ Unit
  | request r => L.request r
  | runOne i => L.runner.runOne i
  | runQueued => L.runner.runQueued
  | poll => L.poll >>= fun _ => pure ()
  | discard owner => L.discard owner
  | shutdown => L.shutdown

end Role

namespace HostLink

variable {σ κ β : Type} (L : HostLink σ κ β)

theorem atOnce_ite {τ α : Type} (p : Prop) [Decidable p] (c d : Code τ σ α) :
    (if p then c else d).atOnce = if p then c.atOnce else d.atOnce := apply_ite Code.atOnce p c d

theorem atOnce_settleCode (i : Nat) (r : Request κ β) (answer : Except Fault (Option Json)) :
    (L.settleCode i r answer).atOnce = L.settleReading i r answer := by
  rcases answer with fault | _ | content
  · simp only [settleCode, settleReading, atOnce_ite, Code.atOnce_one, Code.atOnce_fail]
  · rfl
  · simp only [settleCode, settleReading, Code.atOnce_bind, Code.atOnce_one]

theorem atOnce_carryOutCode (i : Nat) (r : Request κ β) :
    (L.carryOutCode i r).atOnce = L.carryOut i r := by
  simp only [carryOutCode, carryOut_eq, Code.atOnce_bind, Code.atOnce_one, atOnce_ite,
    Code.atOnce_pure, Code.atOnce_attempt, atOnce_settleCode]

theorem atOnce_executeCode (i : Nat) : (L.executeCode i).atOnce = L.runner.execute i := by
  simp only [executeCode, launch, Code.atOnce_bind, Code.atOnce_one, bind_assoc,
    TaskRunner.execute]
  refine bind_congr fun m => ?_
  cases m.task? i with
  | none => rfl
  | some t =>
    simp only [bind_assoc, pure_bind, workCode, Code.atOnce_bind, Code.atOnce_quietly,
      atOnce_carryOutCode, Code.atOnce_one]
    rfl

theorem atOnce_runTakenCode (i : Nat) : (L.runTakenCode i).atOnce = L.runner.runTaken i := by
  simp only [runTakenCode, launchTaken, Code.atOnce_bind, Code.atOnce_one, bind_assoc,
    TaskRunner.runTaken]
  refine bind_congr fun m => ?_
  split
  · rw [← atOnce_executeCode, executeCode, Code.atOnce_bind, Code.atOnce_one]
  · rfl

theorem atOnce_cancelCode (i : Nat) (forget : Bool) :
    (L.cancelCode i forget).atOnce = L.runner.cancel i forget := by
  simp only [cancelCode, strikeTracked, Code.atOnce_bind, Code.atOnce_one, bind_assoc,
    TaskRunner.cancel]
  refine bind_congr fun m => ?_
  split <;> simp only [bind_assoc]

theorem atOnce_clearCode : L.clearCode.atOnce = L.runner.clear := by
  simp only [clearCode, Code.atOnce_bind, Code.atOnce_one, Code.atOnce_forM, atOnce_cancelCode,
    TaskRunner.clear]

theorem atOnce_makeRoomCode : L.makeRoomCode.atOnce = L.runner.makeRoom := by
  simp only [makeRoomCode, Code.atOnce_bind, Code.atOnce_one, atOnce_ite, atOnce_clearCode,
    Code.atOnce_pure, TaskRunner.makeRoom]

theorem atOnce_submitCode (r : Request κ β) :
    (L.submitCode r).atOnce = L.runner.submit r r.owner >>= fun _ => pure () := by
  have hrun (executor : Executor) (i : Nat) :
      (L.runAtOnceCode executor i).atOnce = L.runner.runAtOnce executor i := by
    simp only [runAtOnceCode, atOnce_ite, atOnce_executeCode, Code.atOnce_pure,
      TaskRunner.runAtOnce]
  simp only [submitCode, accept, settleOver, Code.atOnce_bind, Code.atOnce_one,
    atOnce_makeRoomCode, hrun, TaskRunner.submit_eq, TaskRunner.enroll, bind_assoc, pure_bind,
    bind_pure_unit]

theorem atOnce_requestCode (r : Request κ β) : (L.requestCode r).atOnce = L.request r := by
  unfold requestCode request
  split
  · rfl
  · simp only [Code.atOnce_bind, Code.atOnce_one, atOnce_submitCode]

variable [DecidableEq κ]

theorem atOnce_discardCode (owner : Option κ) : (L.discardCode owner).atOnce = L.discard owner := by
  cases owner with
  | none => rfl
  | some o =>
    simp only [discardCode, discard, TaskRunner.cancelOwned, Code.atOnce_bind, Code.atOnce_one,
      Code.atOnce_forM, atOnce_cancelCode, bind_assoc, pure_bind]

/-- If nothing comes in between, a thread does what its call does. -/
theorem atOnce_code (role : Role κ β) : (role.code L).atOnce = role.effect L := by
  cases role with
  | request r => exact L.atOnce_requestCode r
  | runOne i =>
    simp only [Role.code, Role.effect, runOneCode, take, Code.atOnce_bind, Code.atOnce_one,
      atOnce_ite, atOnce_runTakenCode, Code.atOnce_pure, bind_assoc, TaskRunner.runOne]
    refine bind_congr fun m => ?_
    split <;> simp
  | runQueued =>
    simp only [Role.code, Role.effect, runQueuedCode, takeAll, Code.atOnce_bind, Code.atOnce_one,
      Code.atOnce_forM, atOnce_runTakenCode, bind_assoc, pure_bind, TaskRunner.runQueued_eq]
  | poll =>
    simp only [Role.code, Role.effect, pollCode, takeAnswers, Code.atOnce_bind, Code.atOnce_one,
      Code.atOnce_forM, bind_assoc, pure_bind, poll, bind_pure_unit]
  | discard owner => exact L.atOnce_discardCode owner
  | shutdown =>
    simp only [Role.code, Role.effect, shutdownCode, shutdown, Code.atOnce_bind, Code.atOnce_one,
      atOnce_clearCode]

end HostLink

end DebugDesk
