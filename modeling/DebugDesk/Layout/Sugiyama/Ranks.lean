import DebugDesk.Fault

/-!
# Layering a graph

The edges that lead back to a vertex on the current path of a depth-first search are turned around,
so that no cycle is left. Then the rank of a vertex is one more than the greatest rank of the
vertices that lead to it, and the vertices of a rank form a layer. Vertices are numbered from zero,
and edges are addressed by their position.
-/
namespace DebugDesk.Sugiyama

structure Arc where
  source : Nat
  target : Nat
  deriving DecidableEq, Repr, Inhabited

def Arc.reverse (a : Arc) : Arc := ⟨a.target, a.source⟩

/-- A graph whose vertices know the edges at them, in a fixed order. -/
structure Digraph where
  size : Nat
  arcs : Array Arc
  /-- The edges at each vertex. -/
  touching : Array (List Nat)

namespace Digraph

def arc (g : Digraph) (a : Nat) : Arc := g.arcs.getD a default

def edgesAt (g : Digraph) (v : Nat) : List Nat := g.touching.getD v []

def entering (g : Digraph) (v : Nat) : List Nat :=
  (g.edgesAt v).filter fun a => (g.arc a).target == v

def leaving (g : Digraph) (v : Nat) : List Nat :=
  (g.edgesAt v).filter fun a => (g.arc a).source == v

def predecessors (g : Digraph) (v : Nat) : List Nat :=
  (g.entering v).map fun a => (g.arc a).source

def successors (g : Digraph) (v : Nat) : List Nat :=
  (g.leaving v).map fun a => (g.arc a).target

end Digraph

inductive Mark where
  | unseen
  | onPath
  | done
  deriving DecidableEq, Repr

structure Search where
  marks : Array Mark
  /-- Edges that lead back, the latest first. -/
  feedback : List Nat

def Search.mark (s : Search) (v : Nat) : Mark := s.marks.getD v .done

def Search.set (s : Search) (v : Nat) (m : Mark) : Search :=
  { s with marks := s.marks.setIfInBounds v m }

/-- Searches from a vertex; a path is never longer than the number of vertices. -/
def visit (g : Digraph) : Nat → Search → Nat → Search
  | 0, s, _ => s
  | fuel + 1, s, v =>
    let s := (g.leaving v).foldl (fun s a =>
      let target := (g.arc a).target
      match s.mark target with
      | .unseen => visit g fuel s target
      | .onPath => { s with feedback := a :: s.feedback }
      | .done => s) (s.set v .onPath)
    s.set v .done

/-- The edges that lead back, when the search starts from the given vertices in turn. -/
def feedback (g : Digraph) (starts : List Nat) : List Nat :=
  (starts.foldl (fun s v => if s.mark v = .unseen then visit g (g.size + 1) s v else s)
    ⟨Array.replicate g.size .unseen, []⟩).feedback

/-- The graph with the edges that lead back turned around. -/
def withoutCycles (g : Digraph) (starts : List Nat) : Digraph :=
  { g with arcs := (feedback g starts).foldl (fun arcs a => arcs.modify a Arc.reverse) g.arcs }

structure Ranking where
  ranks : Array (Option Nat)
  layers : Array (List Nat)
  /-- Which edges leave a vertex that has a rank. -/
  scanned : Array Bool

namespace Ranking

def rank? (r : Ranking) (v : Nat) : Option Nat := (r.ranks[v]?).join

/-- Gives a vertex its rank; all vertices that lead to it must have theirs. -/
def assign (r : Ranking) (g : Digraph) (v : Nat) : Option Ranking := do
  let above ← (g.predecessors v).mapM r.rank?
  let rank := (above.map (· + 1)).foldl max 0
  let layers := if rank = r.layers.size then r.layers.push [] else r.layers
  return { r with
    ranks := r.ranks.setIfInBounds v (some rank)
    layers := layers.modify rank (· ++ [v]) }

/-- Ranks a vertex, and adds to the next round the vertices to which nothing leads that has no
rank. -/
def advance (g : Digraph) (state : Ranking × List Nat) (v : Nat) :
    Option (Ranking × List Nat) := do
  let (r, next) := state
  let r ← r.assign g v
  let r := { r with
    scanned := (g.leaving v).foldl (fun marks a => marks.setIfInBounds a true) r.scanned }
  let ready (x : Nat) : Bool := (g.entering x).all fun a => r.scanned.getD a false
  return (r, (g.successors v).foldl (fun next x =>
    if ready x && !next.contains x then next ++ [x] else next) next)

/-- Ranks vertices round by round until no more are ready. -/
def rounds (g : Digraph) : Nat → Ranking → List Nat → Option Ranking
  | _, r, [] => some r
  | 0, _, _ => none
  | fuel + 1, r, todo => do
    let (r, next) ← todo.foldlM (advance g) (r, [])
    rounds g fuel r next

/-- The ranking from the given vertices on, and those to which no edge leads. -/
def ofDigraph (g : Digraph) (starts : List Nat) : Option Ranking :=
  let others := (List.range g.size).filter fun v =>
    (g.entering v).isEmpty && !starts.contains v
  rounds g (g.size + 1)
    ⟨Array.replicate g.size none, #[], Array.replicate g.arcs.size false⟩ (starts ++ others)

end Ranking

end DebugDesk.Sugiyama
