import DebugDesk.Desk.Basic
import DebugDesk.Number.Numeral

/-!
# Settings and the command line

The sizes, limits and addresses that the program starts with, and what a command line changes.

`marionette [-h] [-v] [--width N] [--height N] [--host URL] [graph]`. Long options may be
abbreviated as long as they stay unambiguous, values may be joined by an equals sign, and all after
`--` are no options.
-/
namespace DebugDesk.Settings

def programName : String := "marionette"

def version : String := "0.1.0"

def viewportTitle : String := s!"Marionette {version}"

def defaultWidth : Int := 1600

def defaultHeight : Int := 900

def defaultHost : String := "http://127.0.0.1:5200"

def hostTimeout : Float := 10.0

def logEntries : Int := 1000

def menuBarHeight : Float := 20.0

def gridSize : Float := 20.0

def closeStage : Float := 0.25

def headerHeight : Float := 24.0

def minPanelWidth : Float := 120.0

def minPanelHeight : Float := 80.0

def graphPanelSize : Float × Float := (800.0, 600.0)

def clockPanelSize : Float × Float := (200.0, 80.0)

def logPanelSize : Float × Float := (700.0, 300.0)

def cascadeStep : Int := 40

def widget : Desk.WidgetSettings :=
  { Desk.WidgetSettings.standard with
    camera := { CameraSettings.standard with minZoom := 0.1, maxZoom := 5.0, sensitivity := 0.005 }
    clickSuppression := 0.2 }

end DebugDesk.Settings

namespace DebugDesk.Arguments

inductive OptionName where
  | help
  | version
  | width
  | height
  | host
  deriving DecidableEq, Repr

def OptionName.takesValue : OptionName → Bool
  | help | version => false
  | width | height | host => true

def optionNames : List (List Char × OptionName) :=
  [("-h", .help), ("--help", .help), ("-v", .version), ("--version", .version),
    ("--width", .width), ("--height", .height), ("--host", .host)].map
    fun (name, o) => (name.toList, o)

structure Start where
  /-- The file of a graph to show. -/
  graph : Option String
  width : Int
  height : Int
  host : String

def Start.standard : Start :=
  ⟨none, Settings.defaultWidth, Settings.defaultHeight, Settings.defaultHost⟩

inductive Outcome where
  | start (s : Start)
  | showVersion
  | showHelp
  /-- It is refused. -/
  | refused

inductive Argument where
  | value (text : List Char)
  /-- The mark after which all are values. -/
  | separator
  /-- An option; short ones have one dash. To a short one its equals sign is joined as well. -/
  | named (o : OptionName) (short : Bool) (joined : Option (List Char))
  /-- An option that does not exist. -/
  | unknown

/-- Whether an argument is a negative number, which is no option; a line may end after it. -/
def isNegativeNumber (text : List Char) : Bool :=
  let text := if text.getLast? = some '\n' then text.dropLast else text
  let areDigits (cs : List Char) : Bool :=
    !cs.isEmpty && cs.all fun c => (Text.decimalValue? c).isSome
  match text with
  | '-' :: rest =>
    areDigits rest ||
      (let whole := rest.takeWhile (· != '.')
       (whole.isEmpty || areDigits whole) && areDigits ((rest.dropWhile (· != '.')).drop 1))
  | _ => false

/-- The part before the first equals sign, and the part after it if there is one. -/
def splitEquals (text : List Char) : List Char × Option (List Char) :=
  match text.dropWhile (· != '=') with
  | _ :: joined => (text.takeWhile (· != '='), some joined)
  | [] => (text, none)

/-- The options that an argument may stand for, with the value that it joins to each. -/
def candidates (text : List Char) : List Argument :=
  match text with
  | '-' :: '-' :: _ =>
    let (start, joined) := splitEquals text
    (optionNames.filter fun (name, _) => start.isPrefixOf name).map
      fun (_, o) => .named o false joined
  | '-' :: letter :: rest =>
    optionNames.filterMap fun (name, o) =>
      if name = ['-', letter] then some (.named o true (some rest))
      else if text.isPrefixOf name then some (.named o false none)
      else none
  | _ => []

/-- An option by its full name, with what follows the equals sign if there is one. -/
def namedBy (name : List Char) (o : OptionName) (joined : Option (List Char)) : Argument :=
  if name.length = 2 then .named o true (joined.map ('=' :: ·)) else .named o false joined

/-- Classifies an argument before any separator; none if it is ambiguous. -/
def classify (text : List Char) : Option Argument :=
  if text.head? != some '-' || text = ['-'] then some (.value text)
  else
    match optionNames.lookup text with
    | some o => some (namedBy text o none)
    | none =>
      let (name, joined) := splitEquals text
      match joined, optionNames.lookup name with
      | some joined, some o => some (namedBy name o (some joined))
      | _, _ =>
        match candidates text with
        | [one] => some one
        | _ :: _ :: _ => none
        | [] =>
          if isNegativeNumber text || text.contains ' ' then some (.value text) else some .unknown

/-- Classifies all arguments; none if one is ambiguous. -/
def classifyAll : List (List Char) → Option (List Argument)
  | [] => some []
  | text :: rest =>
    if text = ['-', '-'] then some (.separator :: rest.map .value)
    else do return (← classify text) :: (← classifyAll rest)

structure Reading where
  start : Start
  /-- Whether the place of the graph is taken. -/
  graphRead : Bool
  /-- Whether there were arguments that nothing asks for. -/
  surplus : Bool

/-- Takes over the value of an option; none if it does not fit. -/
def setOption (s : Start) (o : OptionName) (value : List Char) : Option Start :=
  match o with
  | .width => (Numeral.integer? value).map fun width => { s with width }
  | .height => (Numeral.integer? value).map fun height => { s with height }
  | .host => some { s with host := String.ofList value }
  | .help | .version => some s

/-- What an option without value asks for. Short ones may be joined to it, and then the first
counts, but neither a value nor another dash may follow one. -/
def flagOutcome (o : OptionName) (short : Bool) (joined : Option (List Char)) : Outcome :=
  let asked : Outcome := if o = .help then .showHelp else .showVersion
  match joined with
  | none => asked
  | some letters =>
    let rest := letters.dropWhile fun c => (optionNames.lookup ['-', c]).isSome
    if short && rest.head? != some '=' && rest.head? != some '-' then asked else .refused

def Reading.takeGraph (r : Reading) (text : List Char) : Reading :=
  if r.graphRead then { r with surplus := true }
  else { r with start := { r.start with graph := some (String.ofList text) }, graphRead := true }

/-- Reads classified arguments from left to right. The separator counts with the graph beside it, so
it is refused once there is one. -/
def read (r : Reading) : List Argument → Outcome
  | [] => if r.surplus then .refused else .start r.start
  | .unknown :: rest => read { r with surplus := true } rest
  | .separator :: .value text :: rest =>
    if r.graphRead then .refused else read (r.takeGraph text) rest
  | .separator :: rest => if r.graphRead then .refused else read { r with graphRead := true } rest
  | .value text :: .separator :: rest =>
    if r.graphRead then .refused else read (r.takeGraph text) rest
  | .value text :: rest => read (r.takeGraph text) rest
  | .named o short none :: .value text :: rest =>
    if o.takesValue then
      match setOption r.start o text with
      | some start => read { r with start } rest
      | none => .refused
    else flagOutcome o short none
  | .named o short none :: _ => if o.takesValue then .refused else flagOutcome o short none
  | .named o short (some text) :: rest =>
    if o.takesValue then
      match setOption r.start o text with
      | some start => read { r with start } rest
      | none => .refused
    else flagOutcome o short (some text)

def parse (arguments : List String) : Outcome :=
  match classifyAll (arguments.map String.toList) with
  | some classified => read ⟨.standard, false, false⟩ classified
  | none => .refused

def versionText : String := s!"{Settings.programName} {Settings.version}\n"

def usageLines : List String :=
  [s!"usage: {Settings.programName} [-h] [-v] [--width WIDTH] [--height HEIGHT] [--host HOST]",
    "                  [graph]"]

def helpLines : List String :=
  usageLines ++ [
    "",
    "Marionette visual debugger shell",
    "",
    "positional arguments:",
    "  graph            JSON graph description to show (default: a sample graph)",
    "",
    "options:",
    "  -h, --help       show this help message and exit",
    "  -v, --version    show program's version number and exit",
    s!"  --width WIDTH    Window width (default: {Settings.defaultWidth})",
    s!"  --height HEIGHT  Window height (default: {Settings.defaultHeight})",
    s!"  --host HOST      Analysis host URL (default: {Settings.defaultHost})"]

def linesText (lines : List String) : String := String.join (lines.map (· ++ "\n"))

def usageText : String := linesText usageLines

def helpText : String := linesText helpLines

end DebugDesk.Arguments
