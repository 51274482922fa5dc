import DebugDesk.Number.Scalar

/-!
# Layouts

A layout gives every vertex of a graph a box, addressed by the identifier of the vertex. A layout
engine cuts a graph into parts and lays them out one by one: it sees sizes, edges and roots and
answers with centers and ranks. The layout of the latest graph is kept for as long as the same graph
has as many vertices.
-/
namespace DebugDesk

structure Size (α : Type) where
  width : α
  height : α
  deriving Repr

/-- The placement of one vertex; the point is the center. -/
structure LayoutBox (α : Type) where
  x : α
  y : α
  width : α
  height : α
  rank : Nat

namespace LayoutBox

variable {α : Type} [Scalar α]

def top (b : LayoutBox α) : α := b.y - b.height / 2.0

def bottom (b : LayoutBox α) : α := b.y + b.height / 2.0

def summary (b : LayoutBox Float) : String :=
  let n := Decimal.fixed 1
  s!"LayoutBox(x={n b.x}, y={n b.y}, width={n b.width}, height={n b.height}, rank={b.rank})"

end LayoutBox

/-- Boxes by identifier, in the order in which they were placed, and the extent of them all. -/
structure Layout (α : Type) where
  boxes : List (Int × LayoutBox α)
  width : α
  height : α

namespace Layout

variable {α : Type}

def box? (l : Layout α) (id : Int) : Option (LayoutBox α) := l.boxes.lookup id

def size (l : Layout α) : Nat := l.boxes.length

end Layout

namespace Layout

/-- How vertices are cut into groups, with the edges between them. -/
abbrev Grouping := List Int → List (Int × Int) → List (List Int)

/-- A way to cut vertices into groups that leaves none out, takes none twice, and makes no empty
group. -/
structure Partitions (group : Grouping) : Prop where
  perm : ∀ {ids : List Int}, ids.Nodup → ∀ edges, (group ids edges).flatten.Perm ids
  inhabited : ∀ {ids : List Int}, ids.Nodup → ∀ edges, ∀ vertices ∈ group ids edges, vertices ≠ []

end Layout

/-- One part of a graph, as a layout engine gets it. -/
structure Component (α : Type) where
  /-- Ascending. -/
  vertices : List Int
  /-- In the order of the graph, without repeats. -/
  edges : List (Int × Int)
  sizeOf : Int → Size α
  /-- Where the layering starts. -/
  roots : List Int
  nodeSpacing : α
  rankSpacing : α

structure Placement (α : Type) where
  center : Point α
  rank : Nat

/-- Lays out a part: answers for every vertex, or fails. -/
abbrev ComponentEngine (α : Type) := Component α → Except Fault (Int → Placement α)

/-- Cuts a graph into parts and lays them out. -/
structure LayoutEngine (α : Type) where
  group : Layout.Grouping
  partitions : Layout.Partitions group
  place : ComponentEngine α

/-- What is held: whose layout it is, of how many vertices, and the layout. -/
structure LayoutCache (κ α : Type) where
  held : Option (κ × Nat × Layout α)

namespace LayoutCache

variable {κ α : Type} [DecidableEq κ]

def empty : LayoutCache κ α := ⟨none⟩

def result? (c : LayoutCache κ α) : Option (Layout α) := c.held.map fun (_, _, l) => l

def lookup? (c : LayoutCache κ α) (key : κ) (count : Nat) : Option (Layout α) :=
  match c.held with
  | some (k, n, l) => if k = key ∧ n = count then some l else none
  | none => none

def validFor (c : LayoutCache κ α) (key : κ) (count : Nat) : Bool := (c.lookup? key count).isSome

/-- The layout held, or else a new one, which is then held; a failure leaves the cache empty. -/
def get {m : Type → Type} [Monad m] (c : LayoutCache κ α) (key : κ) (count : Nat)
    (compute : Unit → m (Except Fault (Layout α))) :
    m (Except Fault (Layout α) × LayoutCache κ α) :=
  match c.lookup? key count with
  | some l => return (.ok l, c)
  | none => do
    match ← compute () with
    | .ok l => return (.ok l, ⟨some (key, count, l)⟩)
    | .error fault => return (.error fault, empty)

end LayoutCache

end DebugDesk
