import DebugDesk.Text.Quoted

/-!
# What can go wrong

Every operation of the library that can fail, fails with a `Fault`: a cause, with the values that
its message shows. `Fault.message` words it.
-/
namespace DebugDesk

inductive Fault where
  /-- Snapping needs a positive grid. -/
  | gridNotPositive (grid : String)
  /-- There is no integer near a value that is not a number. -/
  | notANumber
  /-- There is no integer near an infinite value. -/
  | infinite
  /-- The quotient of two integers lies beyond the largest double. -/
  | quotientTooLarge
  | divisionByZero
  /-- A text is no integer, or one of too many digits. -/
  | notAnInteger (text : String)
  /-- An integer has too many digits to be written. -/
  | integerTooLong
  /-- A color code has neither three nor six characters. -/
  | colorLength (code : String)
  /-- Something is to be drawn in no color. -/
  | noColor
  /-- Two characters of a color code are no hexadecimal number. -/
  | colorDigits (part : String)
  /-- A moment beyond what a clock can tell. -/
  | momentOutOfRange
  /-- A moment in a year that cannot be counted. -/
  | noYear
  | logTooSmall (maxEntries : Int)
  /-- Children of a menu category share labels. -/
  | repeatedLabels (category : String) (labels : List String)
  | emptyPath
  | noSuchItem (label : String) (above : List String)
  /-- A menu path goes on below an action. -/
  | belowAction (path : List String)
  | categoryActivated (label : String) (path : List String)
  /-- A random number was asked for from an empty range. -/
  | emptyRange
  /-- A run of text is given by other than its text and its color. -/
  | runParts (count : Nat)
  | listingLines (minLines maxLines : Int)
  /-- The root of a graph has to be a vertex of it. -/
  | foreignRoot (vertex : String)
  | unknownDirection (word : String)
  /-- A text is not exactly one value. -/
  | notJson
  /-- A description has a value with nothing to go through where items are expected. -/
  | notASequence
  /-- A description has another value where an object is expected. -/
  | notAnObject
  /-- A list or an object cannot be an id. -/
  | notAnId
  | edgeNotObject
  /-- An edge of a description lacks an end, or names a node that is not there. -/
  | unknownNode (edge : String)
  /-- A graph is laid out before its vertices are numbered. -/
  | unnumberedVertices
  | unsizedVertex (id : Int)
  /-- An edge has an end in another graph. -/
  | edgeLeavesGraph (edge : String)
  | engineFailed
  /-- A layout is refused for a reason of the caller's own. -/
  | layoutRefused (reason : String)
  /-- The limits of a camera's zoom are not positive, or out of order. -/
  | zoomLimits (minZoom maxZoom : String)
  | rootOfNegative
  /-- A surface or renderer without a behaviour of its own is used. -/
  | notImplemented
  /-- Something is asked of a thing that is not there. -/
  | missing
  /-- Nothing has the name that something is asked of. -/
  | unknownName
  /-- A graph has no vertex at a position. -/
  | noSuchVertex
  /-- Commands or values nest too deep. -/
  | tooDeep
  /-- An animation answers a frame with a word that is no action. -/
  | unknownAction (word : String)
  | unknownMode (word : String)
  /-- A task is to be cancelled that is not tracked. -/
  | untrackedTask
  /-- A request names no method. -/
  | emptyMethod
  /-- The network did not carry a request. -/
  | connectionFailed (text : String)
  /-- The host refuses a request. -/
  | hostStatus (status reason : String)
  | unreadableBody
  /-- A panel is to be added that some manager has already. -/
  | panelManaged
  /-- A panel is asked of a manager that does not have it. -/
  | panelNotManaged
  /-- The toolkit is asked to change an item that does not exist. -/
  | unknownItem
  /-- A failure that a script asks for. -/
  | scripted
  deriving DecidableEq, Repr, Inhabited

namespace Fault

def message : Fault → String
  | gridNotPositive grid => s!"snap_to_grid: `grid_size` must be positive, got {grid}"
  | notANumber => "not a number"
  | infinite => "infinite"
  | quotientTooLarge => "quotient too large"
  | divisionByZero => "division by zero"
  | notAnInteger text => s!"not an integer: {text}"
  | integerTooLong => "too many digits"
  | colorLength code => s!"hex_to_color: expected '#rrggbb' or '#rgb', got '#{code}'"
  | noColor => "no color"
  | colorDigits part => s!"invalid hexadecimal number {part}"
  | momentOutOfRange => "moment out of range"
  | noYear => "moment without a year"
  | logTooSmall n => s!"LogBook.__init__: `max_entries` must be at least 1, got {n}"
  | repeatedLabels category labels =>
    s!"Category.__init__: '{category}': duplicate child labels {Text.quotedList labels}"
  | emptyPath => "find: empty menu path"
  | noSuchItem label above => s!"find: no menu item '{label}' at {Text.quotedTuple above}"
  | belowAction path =>
    s!"find: menu item {Text.quotedTuple path} is an action, it has no children"
  | categoryActivated label path =>
    s!"activate: menu item '{label}' at {Text.quotedTuple path} is a category, not an action"
  | emptyRange => "empty range"
  | runParts n => s!"a run of {n} parts"
  | listingLines low high =>
    s!"DebugContentProvider: need 1 <= min_lines <= max_lines, got {low}, {high}"
  | foreignRoot vertex => s!"Graph.root: {vertex} does not belong to this graph"
  | unknownDirection word =>
    s!"Graph.get_linked_edges: unknown direction {word}; "
      ++ "expected `direction_out` or `direction_in`."
  | notJson => "not a value"
  | notASequence => "not a sequence"
  | notAnObject => "not an object"
  | notAnId => "not an id"
  | edgeNotObject => "an edge is not an object"
  | unknownNode edge => s!"Graph.from_json: edge {edge} refers to an unknown node"
  | unnumberedVertices =>
    "compute_layout: graph has vertices without identifiers; call `update_identifiers` first"
  | unsizedVertex id => s!"compute_layout: no size given for vertex {id}"
  | edgeLeavesGraph edge => s!"compute_layout: {edge} has an endpoint outside the graph"
  | engineFailed => "compute_layout: layout engine failed"
  | layoutRefused reason => s!"compute_layout: {reason}"
  | zoomLimits low high => s!"Camera: need 0 < min_zoom <= max_zoom, got {low}, {high}"
  | rootOfNegative => "root of a negative number"
  | notImplemented => "not implemented"
  | missing => "missing"
  | unknownName => "unknown name"
  | noSuchVertex => "no such vertex"
  | tooDeep => "too deep"
  | unknownAction word =>
    s!"Animator.render_frame: unknown action {word}, expected one of " ++
      "`action_continue`, `action_finish`, `action_cancel`."
  | unknownMode word =>
    s!"Unknown mode '{word}'; valid values: 'concurrent', 'sequential'."
  | untrackedTask => "no such task"
  | emptyMethod => "HostTransport.request: `method` must be a non-empty string"
  | connectionFailed text => text
  | hostStatus status reason => s!"While calling analysis host: HTTP {status} {reason}"
  | unreadableBody => "no JSON in response body"
  | panelManaged => "the panel is already managed"
  | panelNotManaged => "the panel is not managed by this manager"
  | unknownItem => "unknown item"
  | scripted => "scripted failure"

end Fault

end DebugDesk
