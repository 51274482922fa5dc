import DebugDesk.Session.Apps
import DebugDesk.Session.Writer

/-!
# Command line

The program without a screen. Each line of the input is the list of events before one pass of the
main loop, in JSON. What is seen of the program is told after the run, one line for each look at it.
-/
namespace DebugDesk

def readText (path : String) : IO (Option String) := do
  match ← (IO.FS.readFile path).toBaseIO with
  | .ok text => return some text
  | .error _ => return none

partial def readLines (input : IO.FS.Stream) : IO (List String) := do
  let line ← input.getLine
  if line.isEmpty then return []
  return line :: (← readLines input)

open scoped Session in
/-- Carries out a run; the exit code tells whether it fails. -/
def runProgram (s : Arguments.Start) : IO UInt32 := do
  let text ← match s.graph with
    | some path => readText path
    | none => pure none
  let lines ← readLines (← IO.getStdin)
  let run := App.Run.ofStart s text [] (lines.map Session.eventsOf)
  run.looks.forM fun look => IO.println ((Session.lookReport look).text Session.Report.messageText)
  match run.ending with
  | .ok () => return 0
  | .error fault =>
    IO.eprintln fault.message
    return 1

end DebugDesk

def main (arguments : List String) : IO UInt32 := do
  match DebugDesk.Arguments.parse arguments with
  | .showVersion =>
    IO.print DebugDesk.Arguments.versionText
    return 0
  | .showHelp =>
    IO.print DebugDesk.Arguments.helpText
    return 0
  | .refused =>
    IO.eprint DebugDesk.Arguments.usageText
    return 2
  | .start s => DebugDesk.runProgram s
