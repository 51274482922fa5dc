import DebugDesk.Json.Writer
import DebugDesk.TimeOfDay

/-!
# Log book

The traffic with the analysis host: requests sent, responses received, failures. A log book keeps
the latest entries up to a limit and counts its changes, so that a viewer can tell whether to
refresh.
-/
namespace DebugDesk

inductive Level where
  | standard
  | info
  | error
  deriving DecidableEq, Repr

/-- Entries are classified by their detail. -/
def Level.ofDetail : Json → Level
  | .str "error" => .error
  | .str "ok" => .info
  | .str "info" => .info
  | _ => .standard

structure LogEntry where
  /-- Seconds since the start of 1970. -/
  moment : Float
  kind : String
  detail : Json
  message : Json

namespace LogEntry

/-- An empty message is shown as such. -/
def make (moment : Float) (kind : String) (detail message : Json) : LogEntry :=
  { moment, kind, detail
    message := match message with
      | .str "" => .str "(empty)"
      | other => other }

def level (e : LogEntry) : Level := Level.ofDetail e.detail

def timeText (zone : Int → Int) (e : LogEntry) : Except Fault String :=
  TimeOfDay.text zone e.moment

def summary (e : LogEntry) : String :=
  s!"<LogEntry {e.kind} {e.detail.display}: {e.message.display}>"

end LogEntry

structure LogBook where
  maxEntries : Nat
  /-- Oldest first. -/
  entries : List LogEntry
  version : Nat

namespace LogBook

def requestKind : String := "CREQ"

def responseKind : String := "RECV"

def errorKind : String := "CERR"

def standardSize : Nat := 1000

/-- An empty log book; it has to hold at least one entry. -/
def make (maxEntries : Int) : Except Fault LogBook :=
  if maxEntries < 1 then .error (.logTooSmall maxEntries)
  else .ok ⟨maxEntries.toNat, [], 0⟩

def empty : LogBook := ⟨standardSize, [], 0⟩

/-- Appends an entry and drops the oldest ones beyond the limit. -/
def push (b : LogBook) (e : LogEntry) : LogBook :=
  let entries := b.entries ++ [e]
  { b with
    entries := entries.drop (entries.length - b.maxEntries)
    version := b.version + 1 }

/-- The entry made for a message of any type; only its text is kept. -/
def entry (moment : Float) (kind : String) (detail message : Json) : LogEntry :=
  LogEntry.make moment kind detail message.asText

def add (b : LogBook) (moment : Float) (kind : String) (detail message : Json) : LogBook :=
  b.push (entry moment kind detail message)

def clear (b : LogBook) : LogBook := { b with entries := [], version := b.version + 1 }

def timed (b : LogBook) (zone : Int → Int) : Except Fault (List (LogEntry × String)) :=
  b.entries.mapM fun e => return (e, ← e.timeText zone)

def size (b : LogBook) : Nat := b.entries.length

end LogBook

end DebugDesk
