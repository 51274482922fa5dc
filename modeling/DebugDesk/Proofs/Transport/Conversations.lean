import DebugDesk.Proofs.Effect.History
import DebugDesk.Proofs.Task.Once
import DebugDesk.Transport.Basic

/-!
# Conversations with a host

A program uses a transport as it likes, and so do the callbacks of its requests and whatever happens
while a request is on the wire. What happens is kept in a history: every change of the transport,
what was posted and replied, and what the polls handed over.
-/
namespace DebugDesk.Conversation

inductive Program (κ : Type) where
  | stop (fails : Bool)
  /-- Asks for something; one of the callbacks of the world gets the answer, or none. -/
  | request (method data : Json) (owner : Option κ) (callback : Option Nat) (silent : Bool)
      (next : Except Fault Unit → Program κ)
  | runQueued (next : Except Fault Unit → Program κ)
  | runOne (task : Nat) (next : Except Fault Unit → Program κ)
  | poll (next : Except Fault Nat → Program κ)
  | discard (owner : Option κ) (next : Except Fault Unit → Program κ)
  | shutdown (next : Except Fault Unit → Program κ)

structure Callback where
  request : Nat
  name : Nat

abbrev Transport (κ : Type) := HostTransport κ Callback

structure Station (κ : Type) where
  transport : Transport κ
  log : LogBook

inductive Event where
  | posted (number : Nat) (posting : Posting)
  | replied (number : Nat) (result : Except Fault Reply)
  | polled (poll : Nat)
  | handed (poll : Nat) (callback : Callback) (content : Json)
  /-- A callback that the poll called has failed. -/
  | failed (poll : Nat)
  | ended (poll : Nat) (result : Except Fault Nat)

def Event.poll? : Event → Option Nat
  | posted .. | replied .. => none
  | polled p | handed p _ _ | failed p | ended p _ => some p

def Event.isPosting : Event → Bool
  | posted .. => true
  | _ => false

def Event.isPoll : Event → Bool
  | polled _ => true
  | _ => false

def Event.handed? : Event → Option (Callback × Json)
  | handed _ callback content => some (callback, content)
  | _ => none

abbrev Diary (κ : Type) := Traced (Station κ) Event

abbrev Entry (κ : Type) := Moment (Station κ) Event

structure World (κ : Type) where
  /-- What the clock tells after so many moments. -/
  clock : Nat → Except Fault Float
  /-- What happens while something is on the wire, and what comes back. -/
  network : Nat → Posting → Program κ × Except Fault Reply
  /-- What a callback does with an answer; it may well ask again. -/
  callbacks : Nat → Json → Program κ

namespace Station

variable {κ : Type}

def transportPart : Part (Station κ) (Transport κ) where
  get s := s.transport
  set t s := { s with transport := t }

def logPart : Part (Station κ) LogBook where
  get s := s.log
  set l s := { s with log := l }

end Station

variable {κ : Type}

def postings (s : Diary κ) : Nat := s.events.countP Event.isPosting

def polls (s : Diary κ) : Nat := s.events.countP Event.isPoll

/-- The transport of a program, for one of its polls, given what carries out programs. -/
abbrev link (W : World κ) (perform : Program κ → Effect (Diary κ) Unit) (poll : Nat) :
    HostLink (Diary κ) κ Callback where
  transport := Traced.part Station.transportPart
  log := Traced.part Station.logPart
  now := do Effect.ofExcept (W.clock (← Traced.look fun s => s.history.length))
  post posting := do
    let n ← Traced.look postings
    Traced.happen (.posted n posting)
    let _ ← (perform (W.network n posting).1).attempt
    Traced.happen (.replied n (W.network n posting).2)
    Effect.ofExcept (W.network n posting).2
  deliver callback content := do
    Traced.happen (.handed poll callback content)
    match ← (perform (W.callbacks callback.name content)).attempt with
    | .ok _ => return ()
    | .error fault =>
      Traced.happen (.failed poll)
      throw fault

def ask (L : HostLink (Diary κ) κ Callback) (method data : Json) (owner : Option κ)
    (callback : Option Nat) (silent : Bool) : Effect (Diary κ) Unit := do
  let i := (← L.transport.read).tasks.tasks.length
  L.request ⟨method, data, owner, callback.map fun name => ⟨i, name⟩, silent⟩

/-- Polls, with a number for the poll. -/
def conduct (W : World κ) (perform : Program κ → Effect (Diary κ) Unit) : Effect (Diary κ) Nat := do
  let p ← Traced.look polls
  Traced.happen (.polled p)
  let result ← (link W perform p).poll.attempt
  Traced.happen (.ended p result)
  Effect.ofExcept result

variable [DecidableEq κ]

/-- Carries out a program, call by call. -/
def Program.carryOut (W : World κ) (perform : Program κ → Effect (Diary κ) Unit) :
    Program κ → Effect (Diary κ) Unit
  | stop fails => if fails then throw .scripted else return ()
  | request method data owner callback silent next => do
    let answer ← (ask (link W perform 0) method data owner callback silent).attempt
    (next answer).carryOut W perform
  | runQueued next => do
    let answer ← (link W perform 0).runner.runQueued.attempt
    (next answer).carryOut W perform
  | runOne task next => do
    let answer ← ((link W perform 0).runner.runOne task).attempt
    (next answer).carryOut W perform
  | poll next => do
    let answer ← (conduct W perform).attempt
    (next answer).carryOut W perform
  | discard owner next => do
    let answer ← ((link W perform 0).discard owner).attempt
    (next answer).carryOut W perform
  | shutdown next => do
    let answer ← (link W perform 0).shutdown.attempt
    (next answer).carryOut W perform

/-- Carries out a program, with what happens inside of its calls limited to a depth. -/
def perform (W : World κ) : Nat → Program κ → Effect (Diary κ) Unit
  | 0, _ => throw .tooDeep
  | depth + 1, p => p.carryOut W (perform W depth)

def run (W : World κ) (start : Station κ) (depth : Nat) (p : Program κ) : Diary κ :=
  ((perform W depth p).outcome (.start start)).2

/-- A relation that holds across every call holds across every program. -/
theorem Program.respects {P : Diary κ → Diary κ → Prop} [IsPreorder (Diary κ) P] {W : World κ}
    {f : Program κ → Effect (Diary κ) Unit}
    (hask : ∀ method data owner callback silent,
      (ask (link W f 0) method data owner callback silent).Respects P)
    (hrunQueued : (link W f 0).runner.runQueued.Respects P)
    (hrunOne : ∀ i, ((link W f 0).runner.runOne i).Respects P)
    (hpoll : (conduct W f).Respects P)
    (hdiscard : ∀ owner, ((link W f 0).discard owner).Respects P)
    (hshutdown : (link W f 0).shutdown.Respects P) (p : Program κ) :
    (p.carryOut W f).Respects P := by
  induction p with
  | stop fails =>
    cases fails
    · exact .pure ()
    · exact .throw .scripted
  | request method data owner callback silent next ih =>
    exact .bind (hask method data owner callback silent).attempt ih
  | runQueued next ih => exact .bind hrunQueued.attempt ih
  | runOne task next ih => exact .bind (hrunOne task).attempt ih
  | poll next ih => exact .bind hpoll.attempt ih
  | discard owner next ih => exact .bind (hdiscard owner).attempt ih
  | shutdown next ih => exact .bind hshutdown.attempt ih

end DebugDesk.Conversation
