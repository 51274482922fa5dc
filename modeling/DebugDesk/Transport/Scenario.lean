import DebugDesk.Transport.Basic

/-!
# Scripted traffic

A transport whose host is scripted: what it replies, and what happens while a request is on the wire
or an answer is handed over.
-/
namespace DebugDesk.TransportScript

mutual

inductive Command where
  | request (method data : Json) (owner : Option String) (callback : Option Callback)
      (silent : Bool)
  /-- Queues what the host will reply, one request after the other. -/
  | replies (plans : List ReplyPlan)
  | run
  | poll
  | discard (owner : Option String)
  | shutdown
  | url (method : Json)
  | setClock (time : Int)

/-- What is done with an answer: commands, and then a failure or not. -/
inductive Callback where
  | make (name : String) (commands : List Command) (raises : Bool)

inductive ReplyPlan where
  | make (during : List Command) (outcome : Except Fault Reply)

end

mutual

def Command.count : Command → Nat
  | .request _ _ _ (some callback) _ => Callback.count callback + 1
  | .replies plans => ReplyPlan.countAll plans + 1
  | _ => 1

def Callback.count : Callback → Nat
  | .make _ commands _ => Command.countAll commands

def ReplyPlan.count : ReplyPlan → Nat
  | .make during _ => Command.countAll during

def ReplyPlan.countAll : List ReplyPlan → Nat
  | [] => 0
  | p :: rest => ReplyPlan.count p + ReplyPlan.countAll rest

def Command.countAll : List Command → Nat
  | [] => 0
  | c :: rest => Command.count c + Command.countAll rest

end

inductive Answer where
  | nothing
  | count (n : Nat)
  | text (s : String)

structure Wire where
  transport : HostTransport String Callback
  log : LogBook
  clock : Int
  /-- What the host will reply, next first. -/
  replies : List ReplyPlan
  /-- What was sent, latest last. -/
  sent : List Posting
  /-- The answers that were handed over, by callback, latest last. -/
  got : List (String × Json)

namespace Wire

def start (transport : HostTransport String Callback) (log : LogBook) : Wire :=
  ⟨transport, log, 0, [], [], []⟩

/-- Takes the next reply off the script, which goes on with plain answers. -/
def nextReply : Effect Wire ReplyPlan := do
  match (← get).replies with
  | [] => return .make [] (.ok .pong)
  | plan :: rest =>
    modify fun s => { s with replies := rest }
    return plan

/-- The transport on the wire, given what carries out commands. -/
def link (carryOut : Command → Effect Wire Answer) : HostLink Wire String Callback where
  transport := ⟨Wire.transport, fun t s => { s with transport := t }⟩
  log := ⟨Wire.log, fun l s => { s with log := l }⟩
  now := do Effect.ofExcept (TimeOfDay.secondsOfNanos (← get).clock)
  post posting := do
    modify fun s => { s with sent := s.sent ++ [posting] }
    match ← nextReply with
    | .make during outcome =>
      during.forM fun c => do
        let _ ← carryOut c
      Effect.ofExcept outcome
  deliver
    | .make name commands raises, content => do
      modify fun s => { s with got := s.got ++ [(name, content)] }
      commands.forM fun c => do
        let _ ← carryOut c
      if raises then throw .scripted

/-- Carries out a command, with nesting limited to a depth. -/
def perform : Nat → Command → Effect Wire Answer
  | 0, _ => throw .tooDeep
  | depth + 1, command => do
    let L := link (perform depth)
    match command with
    | .request method data owner callback silent =>
      L.request ⟨method, data, owner, callback, silent⟩
      return .nothing
    | .replies plans =>
      modify fun s => { s with replies := s.replies ++ plans }
      return .nothing
    | .run =>
      L.runner.runQueued
      return .nothing
    | .poll => return .count (← L.poll)
    | .discard owner =>
      L.discard owner
      return .nothing
    | .shutdown =>
      L.shutdown
      return .nothing
    | .url method => return .text ((← get).transport.urlFor method)
    | .setClock time =>
      modify fun s => { s with clock := time }
      return .nothing

/-- Carries out a command: its answer and the state after it. A depth of as many commands as there
are is enough, because no command is carried out twice. -/
def step (depth : Nat) (s : Wire) (c : Command) : Except Fault Answer × Wire :=
  (perform depth c).outcome s

def forgetTraffic (s : Wire) : Wire := { s with sent := [], got := [] }

end Wire

end DebugDesk.TransportScript
