import DebugDesk.LogBook
import DebugDesk.Task.Runner

/-!
# Transport to the analysis host

Requests are posted by tasks. The answers are queued, and handed to their callbacks only when the
queue is polled. When an owner is discarded, its requests are cancelled and its queued answers are
dropped. All traffic is written into a log book.
-/
namespace DebugDesk

structure Request (κ β : Type) where
  /-- Its name, or another value that stands for it. -/
  method : Json
  data : Json
  owner : Option κ
  /-- Where the answer is wanted. -/
  callback : Option β
  /-- Whether the answer is not even read. -/
  silent : Bool

structure Response (κ β : Type) where
  owner : Option κ
  callback : β
  content : Json

structure Posting where
  url : String
  payload : Json
  headers : Json
  /-- Seconds to wait for the host. -/
  timeout : Float

structure Reply where
  status : Json
  reason : Json
  content : Option Json

def Reply.isSuccess (r : Reply) : Bool := r.status.key? == (Json.int 200).key?

/-- What a host replies that is merely there. -/
def Reply.pong : Reply :=
  ⟨.int 200, .str "OK", some (.object [("status", .str "ok"), ("data", .str "pong")])⟩

structure HostTransport (κ β : Type) where
  url : String
  headers : Json
  timeout : Float
  tasks : TaskManager κ (Request κ β)
  queue : List (Response κ β)

namespace HostTransport

variable {κ β : Type}

def standardTimeout : Float := 10.0

/-- A transport to the host at an address; slashes at its end do not count. -/
def make (url : String) (headers : Json) (timeout : Float) (executor : Executor) :
    HostTransport κ β :=
  { url := String.ofList (url.toList.reverse.dropWhile (· == '/')).reverse
    headers, timeout
    tasks := .make .concurrent executor
    queue := [] }

def urlFor (t : HostTransport κ β) (method : Json) : String := s!"{t.url}/api/{method.display}"

def posting (t : HostTransport κ β) (r : Request κ β) : Posting :=
  { url := t.urlFor r.method
    payload := .object [("method", r.method), ("data", r.data)]
    headers := t.headers
    timeout := t.timeout }

def enqueue (t : HostTransport κ β) (r : Response κ β) : HostTransport κ β :=
  { t with queue := t.queue ++ [r] }

/-- Queues the answer to a request, if it is wanted. -/
def answer (t : HostTransport κ β) (r : Request κ β) (content : Json) : HostTransport κ β :=
  match r.callback with
  | none => t
  | some callback => t.enqueue ⟨r.owner, callback, content⟩

/-- Queues the answer to the request of a task, unless it is cancelled by then. -/
def deposit (t : HostTransport κ β) (task : Nat) (r : Request κ β) (content : Json) :
    HostTransport κ β :=
  if t.tasks.isCancelled task then t else t.answer r content

def emptyQueue (t : HostTransport κ β) : HostTransport κ β := { t with queue := [] }

def drop [DecidableEq κ] (t : HostTransport κ β) (owner : κ) : HostTransport κ β :=
  { t with queue := t.queue.filter fun r => r.owner != some owner }

def statusOf (content : Json) : Json :=
  match content with
  | .object members => (members.lookup "status").getD (.str "ok")
  | _ => .str "ok"

end HostTransport

/-- Failures of a request that are written into the log; others end the task unseen. -/
def Fault.isLogged : Fault → Bool
  | .connectionFailed _ | .hostStatus .. | .unreadableBody | .emptyMethod => true
  | _ => false

/-- A transport inside a state, with the log book, the clock and the network that it uses. -/
structure HostLink (σ κ β : Type) where
  transport : Part σ (HostTransport κ β)
  log : Part σ LogBook
  /-- Seconds since the start of 1970. -/
  now : Effect σ Float
  /-- Sends something over the network and waits for the reply. -/
  post : Posting → Effect σ Reply
  /-- Hands an answer to a callback. -/
  deliver : β → Json → Effect σ Unit

namespace HostLink

variable {σ κ β : Type} (L : HostLink σ κ β)

def write (kind : String) (detail message : Json) : Effect σ Unit := do
  let moment ← L.now
  L.log.update (·.add moment kind detail message)

/-- Posts a request and reads the reply, if it is of interest. -/
def exchange (r : Request κ β) : Effect σ (Option Json) := do
  let reply ← L.post ((← L.transport.read).posting r)
  if !reply.isSuccess then throw (.hostStatus reply.status.display reply.reason.display)
  if r.silent then return none
  match reply.content with
  | some content => return some content
  | none => throw .unreadableBody

/-- The work of a task: posts the request unless it is cancelled, writes down how that ended, and
queues the answer unless the request is cancelled by then. -/
def carryOut (task : Nat) (r : Request κ β) : Effect σ Unit := do
  if (← L.transport.read).tasks.isCancelled task then return ()
  match ← (L.exchange r).attempt with
  | .error fault =>
    if fault.isLogged then
      L.write LogBook.errorKind (.str "error") (.str s!"{r.method.display}: {fault.message}")
    else throw fault
  | .ok none => return ()
  | .ok (some content) =>
    L.write LogBook.responseKind (HostTransport.statusOf content) content
    L.transport.update (·.deposit task r content)

/-- The tasks of the transport. -/
def runner : TaskRunner σ κ (Request κ β) where
  manager :=
    { get := fun s => (L.transport.get s).tasks
      set := fun m s => L.transport.map (fun t => { t with tasks := m }) s }
  perform := L.carryOut
  done := fun _ _ => return ()

def request (r : Request κ β) : Effect σ Unit := do
  if r.method.isVoid then throw .emptyMethod
  L.write LogBook.requestKind r.method r.data
  let _ ← L.runner.submit r r.owner

/-- Hands all answers that are queued by now to their callbacks, in order; tells how many. If a
callback fails, those after it are lost. -/
def poll : Effect σ Nat := do
  let batch := (← L.transport.read).queue
  L.transport.update (·.emptyQueue)
  batch.forM fun r => L.deliver r.callback r.content
  return batch.length

/-- Cancels the requests of an owner and drops its answers. -/
def discard [DecidableEq κ] (owner : Option κ) : Effect σ Unit := do
  match owner with
  | none => return ()
  | some o =>
    let _ ← L.runner.cancelOwned (some o)
    L.transport.update (·.drop o)

/-- Cancels all requests and drops all answers. -/
def shutdown : Effect σ Unit := do
  L.runner.clear
  L.transport.update (·.emptyQueue)

end HostLink

end DebugDesk
