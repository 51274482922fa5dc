import DebugDesk.Drawing.VertexBox
import DebugDesk.Number.Sorting

/-!
# Edge routes

The edges that leave a vertex form a fan: sorted by where their targets are, the left half is the
true branch, the right half the false branch, and a middle one is direct. Each edge is a polyline
along the axes: down and across to a target below, around its own box to a target above, and around
the right side back into its own box.
-/
namespace DebugDesk

inductive Branch where
  | whenTrue
  | whenFalse
  | direct
  deriving DecidableEq, Repr

def Branch.name : Branch → String
  | whenTrue => "true"
  | whenFalse => "false"
  | direct => "direct"

structure EdgePlacement (α : Type) where
  /-- The position of the edge in the graph. -/
  edge : Nat
  source : VertexDrawing α
  target : VertexDrawing α

/-- A routed edge. -/
structure Route (α : Type) where
  edge : Nat
  source : Nat
  target : Nat
  kind : Branch
  points : List (Point α)

/-- A route after the text of its edge. -/
def Route.summary {α : Type} (r : Route α) (edge : String) : String :=
  s!"<RoutedEdge {edge} ({r.kind.name}), {r.points.length} points>"

structure Fan (α : Type) where
  source : VertexDrawing α
  targets : List (Nat × VertexDrawing α)

/-- The fans collected last, and their routes once they have been asked for. -/
structure EdgeRoutes (α : Type) where
  fans : List (Fan α)
  routed : Option (List (Route α))

/-- The lines that an edge follows. -/
inductive Guide where
  /-- Down from where it leaves its source. -/
  | start
  /-- Across, where it first turns. -/
  | bend
  /-- Past its source. -/
  | side
  /-- Across, where it turns to a target above. -/
  | approach
  deriving DecidableEq, Repr

/-- A coordinate of a corner: that of a guide, or one measured for this corner alone. -/
inductive Position (α : Type) where
  | on (guide : Guide) (value : α)
  | alone (value : α)

namespace Position

variable {α : Type}

def value : Position α → α
  | on _ x => x
  | alone x => x

/-- Positions on one guide meet, also where its coordinate is not a number. -/
def meets [Scalar α] : Position α → Position α → Bool
  | on g x, on h y => g == h || x == y
  | p, q => p.value == q.value

end Position

structure Corner (α : Type) where
  x : Position α
  y : Position α

namespace Corner

variable {α : Type}

def meets [Scalar α] (c d : Corner α) : Bool := c.x.meets d.x && c.y.meets d.y

def point (c : Corner α) : Point α := ⟨c.x.value, c.y.value⟩

end Corner

namespace EdgeRoutes

variable {α : Type} [Scalar α]

def empty : EdgeRoutes α := ⟨[], none⟩

/-- Adds an edge to the fan of its source, or begins one. -/
def addToFans (fans : List (Fan α)) (p : EdgePlacement α) : List (Fan α) :=
  if fans.any (·.source.vertex == p.source.vertex) then
    fans.map fun f =>
      if f.source.vertex == p.source.vertex then
        { f with targets := f.targets ++ [(p.edge, p.target)] }
      else f
  else fans ++ [⟨p.source, [(p.edge, p.target)]⟩]

/-- Groups edges by source, in the order of first appearance, in place of the ones before. -/
def ofPlacements (placements : List (EdgePlacement α)) : EdgeRoutes α :=
  ⟨placements.foldl addToFans [], none⟩

/-- The branch of the edge at `index` of a fan of `n`, and its slot: the halves take the slots left
and right of the center. -/
def slotOf (n index : Nat) : Branch × Int :=
  let half := n / 2
  if index < half then (.whenTrue, (index : Int) - half)
  else if n - half ≤ index then (.whenFalse, (index : Int) - (n - half : Nat) + 1)
  else (.direct, 0)

def dropRepeats (last : Corner α) : List (Corner α) → List (Corner α)
  | [] => []
  | c :: rest => if c.meets last then dropRepeats last rest else c :: dropRepeats c rest

/-- The corners of an edge after its first two points. -/
def corners (pad : α) (source target : VertexDrawing α) (startX : α) (bend : Position α) :
    List (Corner α) :=
  if target.vertex = source.vertex then
    let side := .on .side (source.right + pad)
    [⟨side, bend⟩, ⟨side, .alone source.midY⟩, ⟨.alone source.right, .alone source.midY⟩]
  else if target.midY < source.bottom then
    let side := .on .side
      (if target.midX < startX then source.x - pad else source.right + pad)
    let approach := .on .approach (target.bottom + pad)
    [⟨side, bend⟩, ⟨side, approach⟩, ⟨.alone target.midX, approach⟩,
      ⟨.alone target.midX, .alone target.bottom⟩]
  else [⟨.alone target.midX, bend⟩, ⟨.alone target.midX, .alone target.y⟩]

/-- The polyline of an edge that leaves the bottom of its source at `startX`. -/
def routeEdge (style : EdgeStyle α) (source target : VertexDrawing α) (startX : α) :
    List (Point α) :=
  let start : Corner α := ⟨.on .start startX, .alone source.bottom⟩
  let bend : Position α := .on .bend (source.bottom + style.paddingLine)
  (start :: dropRepeats start (⟨start.x, bend⟩ ::
    corners style.paddingLine source target startX bend)).map Corner.point

/-- The routes of a fan, from left to right. -/
def routeFan (style : EdgeStyle α) (f : Fan α) : List (Route α) :=
  let sorted := Sorting.sortOn (fun t => t.2.midX) f.targets
  let step := f.source.width * style.paddingBetweenEdges
  sorted.zipIdx.map fun ((edge, target), index) =>
    let (kind, slot) := slotOf sorted.length index
    let startX := f.source.midX + Scalar.ofInt slot * step
    ⟨edge, f.source.vertex, target.vertex, kind, routeEdge style f.source target startX⟩

/-- All routes, computed the first time they are asked for. -/
def route (style : EdgeStyle α) (e : EdgeRoutes α) : List (Route α) × EdgeRoutes α :=
  match e.routed with
  | some routes => (routes, e)
  | none =>
    let routes := e.fans.flatMap (routeFan style)
    (routes, { e with routed := some routes })

/-- The color of an edge; it depends on whether its source is selected. -/
def colorOf (style : EdgeStyle α) (selected : Bool) : Branch → Ink
  | .whenTrue => if selected then style.colorTrueSelected else style.colorTrue
  | .whenFalse => if selected then style.colorFalseSelected else style.colorFalse
  | .direct => if selected then style.colorDirectSelected else style.colorDirect

def paint (style : EdgeStyle α) (selected : Nat → Bool) (routes : List (Route α)) :
    List (DrawOp α) :=
  routes.map fun r => .polyline r.points (colorOf style (selected r.source) r.kind) style.lineWidth

end EdgeRoutes

end DebugDesk
