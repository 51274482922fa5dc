import DebugDesk.Animation.Animator
import DebugDesk.Animation.Scenario
import DebugDesk.App.Arguments
import DebugDesk.App.Program
import DebugDesk.App.Scenario
import DebugDesk.Camera
import DebugDesk.Color
import DebugDesk.Desk.Basic
import DebugDesk.Desk.Content
import DebugDesk.Desk.Frame
import DebugDesk.Desk.Host
import DebugDesk.Desk.Panels
import DebugDesk.Desk.Widget
import DebugDesk.Drawing.EdgeRoute
import DebugDesk.Drawing.Operation
import DebugDesk.Drawing.Style
import DebugDesk.Drawing.VertexBox
import DebugDesk.Effect
import DebugDesk.Fault
import DebugDesk.Geometry.Matrix
import DebugDesk.Graph.Basic
import DebugDesk.Graph.Content
import DebugDesk.Graph.Described
import DebugDesk.Json.Basic
import DebugDesk.Json.Reader
import DebugDesk.Json.Writer
import DebugDesk.Layout.Basic
import DebugDesk.Layout.Placed
import DebugDesk.Layout.Sugiyama
import DebugDesk.Layout.Sugiyama.Alignment
import DebugDesk.Layout.Sugiyama.Layers
import DebugDesk.Layout.Sugiyama.Ordering
import DebugDesk.Layout.Sugiyama.Ranks
import DebugDesk.LogBook
import DebugDesk.Main
import DebugDesk.Menu
import DebugDesk.Number.Binary64
import DebugDesk.Number.Comparison
import DebugDesk.Number.Decimal
import DebugDesk.Number.Grid
import DebugDesk.Number.Scalar
import DebugDesk.Number.Sorting
import DebugDesk.Panel.Basic
import DebugDesk.Panel.Closing
import DebugDesk.Panel.Scenario
import DebugDesk.Panel.Workspace
import DebugDesk.Proofs.Animation.Frames
import DebugDesk.Proofs.Animation.Incidents
import DebugDesk.Proofs.App.Descriptions
import DebugDesk.Proofs.App.Fetching
import DebugDesk.Proofs.App.Runs
import DebugDesk.Proofs.Camera.Limits
import DebugDesk.Proofs.Camera.Marking
import DebugDesk.Proofs.Camera.Moving
import DebugDesk.Proofs.Camera.Pinching
import DebugDesk.Proofs.Camera.Transforms
import DebugDesk.Proofs.Color.Codes
import DebugDesk.Proofs.Desk.Hands
import DebugDesk.Proofs.Desk.LogPanels
import DebugDesk.Proofs.Desk.WindowRuns
import DebugDesk.Proofs.Drawing.Clicking
import DebugDesk.Proofs.Drawing.Fanning
import DebugDesk.Proofs.Drawing.Lettering
import DebugDesk.Proofs.Drawing.Recoloring
import DebugDesk.Proofs.Graph.Editing
import DebugDesk.Proofs.Graph.Flows
import DebugDesk.Proofs.Graph.RoundTrips
import DebugDesk.Proofs.Layout.Columns
import DebugDesk.Proofs.Layout.Parts
import DebugDesk.Proofs.Layout.Repeats
import DebugDesk.Proofs.Menu.Paths
import DebugDesk.Proofs.Number.Snapping
import DebugDesk.Proofs.Panel.Closings
import DebugDesk.Proofs.Panel.Departures
import DebugDesk.Proofs.Panel.Dragging
import DebugDesk.Proofs.Panel.Fading
import DebugDesk.Proofs.Panel.Frames
import DebugDesk.Proofs.Panel.Gestures
import DebugDesk.Proofs.Panel.StackRuns
import DebugDesk.Proofs.Panel.Stacking
import DebugDesk.Proofs.Panel.Suppression
import DebugDesk.Proofs.Task.Callbacks
import DebugDesk.Proofs.Task.Succession
import DebugDesk.Proofs.Transport.Accounting
import DebugDesk.Proofs.Transport.Cancelling
import DebugDesk.Proofs.Transport.Discarding
import DebugDesk.Proofs.Transport.Faithful
import DebugDesk.Proofs.Transport.LateDiscards
import DebugDesk.Proofs.Transport.Settling
import DebugDesk.Proofs.Transport.Uninterrupted
import DebugDesk.Proofs.View.Cameras
import DebugDesk.Proofs.View.Centering
import DebugDesk.Proofs.View.Drawing
import DebugDesk.Proofs.View.Economy
import DebugDesk.Proofs.View.Repainting
import DebugDesk.Proofs.View.Suppressing
import DebugDesk.Random.Twister
import DebugDesk.Session.Animations
import DebugDesk.Session.Apps
import DebugDesk.Session.Cameras
import DebugDesk.Session.Drawings
import DebugDesk.Session.Graphs
import DebugDesk.Session.Hosts
import DebugDesk.Session.Layouts
import DebugDesk.Session.Panels
import DebugDesk.Session.Reading
import DebugDesk.Session.Report
import DebugDesk.Session.Surfaces
import DebugDesk.Session.Transports
import DebugDesk.Session.Views
import DebugDesk.Session.Widgets
import DebugDesk.Session.Writer
import DebugDesk.Task.Manager
import DebugDesk.Task.Runner
import DebugDesk.Task.Scenario
import DebugDesk.Text.Character
import DebugDesk.Text.Printable
import DebugDesk.Text.Quoted
import DebugDesk.TimeOfDay
import DebugDesk.Toolkit.Basic
import DebugDesk.Toolkit.Drawlist
import DebugDesk.Transport.Basic
import DebugDesk.Transport.Scenario
import DebugDesk.View.Basic
import DebugDesk.View.Pipeline
import DebugDesk.View.Pointer
