import DebugDesk.Session.Animations
import DebugDesk.LogBook
import DebugDesk.Transport.Scenario

/-!
# Transport and log book sessions

Requests to a scripted host, and a log book to which entries are added by a clock that the session
sets.
-/
namespace DebugDesk.Session

def levelName : Level → String
  | .standard => "default"
  | .info => "info"
  | .error => "error"

def entryItems (e : LogEntry) (time : String) : List Report :=
  [.str e.kind, .json e.detail, .json e.message, .str (levelName e.level), .str time]

/-- Sessions tell the time of day without any shift. -/
def zone : Int → Int := fun _ => 0

def entryReport (e : LogEntry) : Report :=
  .orFailed (fun time => .list (entryItems e time)) (e.timeText zone)

def entriesReport (entries : List (LogEntry × String)) : Report :=
  .list (entries.map fun (e, time) => .list (entryItems e time))

structure LogState where
  book : LogBook
  clock : Int := 0

def logStep (s : LogState) (name : String) (args : List Json) : Report × LogState :=
  let now : Except Fault Float := TimeOfDay.secondsOfNanos s.clock
  let add (kind : String) (detail message : Json) : Report × LogState :=
    match now with
    | .ok moment => (entryReport (LogBook.entry moment kind detail message),
        { s with book := s.book.add moment kind detail message })
    | .error fault => (.failed fault, s)
  match name with
  | "clock" => (.null, { s with clock := toInt (arg args 0) })
  | "clear" => (.null, { s with book := s.book.clear })
  | "add" => add (toStr (arg args 0)) (arg args 1) (arg args 2)
  | "requested" => add LogBook.requestKind (arg args 0) (arg args 1)
  | "received" => add LogBook.responseKind (arg args 0) (arg args 1)
  | "error" => add LogBook.errorKind (.str "error") (arg args 0)
  | "snapshot" => (.orFailed entriesReport (s.book.timed zone), s)
  | "entry" =>
    let moment := match arg? args 3 with
      | some .null | none => now
      | some t => .ok (toFloat t)
    (.ofExcept do
      let e := LogEntry.make (← moment) (toStr (arg args 0)) (arg args 1) (arg args 2)
      return .list (entryItems e (← e.timeText zone) ++ [.str e.summary]), s)
  | "level" => (.str (levelName (Level.ofDetail (arg args 0))), s)
  | _ => (.null, s)

def logBookOf (input : Json) : Except Fault LogBook :=
  match field? input "max" with
  | some m => LogBook.make (toInt m)
  | none => .ok LogBook.empty

def logBookSession (input : Json) : Report :=
  .orFailed (fun book => .object [("steps", stepsReport logStep (fun s =>
    ([("len", .nat s.book.size), ("version", .nat s.book.version)], s)) ⟨book, 0⟩ input)])
    (logBookOf input)

open TransportScript

/-- What becomes of a request: a reply, or a failure of the network or of a script. -/
def replyOutcome (spec : Json) : Except Fault Reply :=
  match field spec "exc" with
  | .str "RuntimeError" => .error .scripted
  | .str _ => .error (.connectionFailed (toStr (field spec "text")))
  | _ => .ok
      { status := (spec.get? "status").getD (.int 200)
        reason := (spec.get? "reason").getD (.str "OK")
        content := spec.get? "content" }

def replyPlan (commands : Json → List TransportScript.Command) (spec : Json) : ReplyPlan :=
  .make (commands (field spec "during")) (replyOutcome spec)

/-- The command of a step. Only so many levels of steps inside it are read. -/
def transportCommand : Nat → Json → TransportScript.Command
  | 0, _ => .run
  | levels + 1, j =>
    let (step, args) := stepOf j
    let commands (steps : Json) := (toList steps).map (transportCommand levels)
    match step with
    | "request" =>
      let opts := arg args 2
      let callback := match field opts "callback" with
        | .str name => some (Callback.make name (commands (field opts "then"))
            (toBool (field opts "raises")))
        | _ => none
      .request (arg args 0) (arg args 1) (ownerOf (field opts "owner")) callback
        (toBool (field opts "no_response"))
    | "host" => .replies (args.map (replyPlan commands))
    | "poll" => .poll
    | "discard" => .discard (ownerOf (arg args 0))
    | "shutdown" => .shutdown
    | "url" => .url (arg args 0)
    | "clock" => .setClock (toInt (arg args 0))
    | _ => .run

def transportAnswer : TransportScript.Answer → Report
  | .nothing => .null
  | .count n => .nat n
  | .text s => .str s

def postingReport (p : Posting) : Report :=
  .list [.str p.url, .json p.payload, .json p.headers, .rounded p.timeout]

def plainEntryReport (e : LogEntry) : Report :=
  .list [.str e.kind, .json e.detail, .json e.message, .str (levelName e.level)]

def transportStep (depth : Nat) (s : Wire) (c : TransportScript.Command) : Report × Wire :=
  let (answer, s) := s.step depth c
  (.object [("r", .orFailed transportAnswer answer), ("calls", .list (s.sent.map postingReport)),
    ("got", .list (s.got.map fun (name, content) => .list [.str name, .json content])),
    ("tasks", .nat s.transport.tasks.tracked.length),
    ("log", .list (s.log.entries.map plainEntryReport)), ("version", .nat s.log.version)],
    s.forgetTraffic)

def transportSession (input : Json) : Report :=
  .ofExcept do
    let log ← logBookOf input
    let commands := (toList (field input "steps")).map fun j => transportCommand j.depth j
    let headers := match field? input "headers" with
      | some headers => headers
      | none => .object []
    let transport := HostTransport.make (toStr (field input "url")) headers
      (floatField input "timeout" HostTransport.standardTimeout)
      (executorOf (field input "executor"))
    return .object [("steps", .list
      (reportEach (transportStep (Command.countAll commands)) (.start transport log) commands))]

end DebugDesk.Session
