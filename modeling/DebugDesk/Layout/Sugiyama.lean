import DebugDesk.Layout.Placed
import DebugDesk.Layout.Sugiyama.Alignment

/-!
# The layered layout engine

Layers by longest paths after turning cycles open, dummies on long edges, crossing reduction by
barycenters, and coordinates from four alignments.
-/
namespace DebugDesk.Sugiyama

/-- A component with its vertices numbered in ascending order and its edges sorted. -/
def Digraph.ofComponent (c : Component Float) : Digraph :=
  let number (id : Int) : Nat := c.vertices.idxOf id
  let numbered := c.edges.map fun e => (number e.1, number e.2)
  let sorted := numbered.mergeSort fun e f => e.1 < f.1 || (e.1 == f.1 && e.2 ≤ f.2)
  { size := c.vertices.length
    arcs := (sorted.map fun e => ⟨e.1, e.2⟩).toArray
    touching := ((List.range c.vertices.length).map fun v =>
      (numbered.filter fun e => e.1 == v || e.2 == v).map sorted.idxOf).toArray }

def upperMedian (xs : List Float) : Float :=
  (Sorting.sortOn id xs).getD (xs.length / 2) 0.0

def placeComponent : ComponentEngine Float := fun c => do
  let cyclic := Digraph.ofComponent c
  let roots := c.roots.map fun id => c.vertices.idxOf id
  let g := withoutCycles cyclic (roots ++ List.range cyclic.size)
  match Ranking.ofDigraph g roots with
  | none => throw .engineFailed
  | some ranking =>
    let sizes := c.vertices.map c.sizeOf
    let sizeOf (v : Nat) : Float × Float :=
      ((sizes[v]?).map fun s => (s.width, s.height)).getD (0, 0)
    let layers := Layers.ofRanking g ranking sizeOf
      (upperMedian (sizes.map Size.width)) (upperMedian (sizes.map Size.height))
    let ordered := (Ordered.ofLayers layers).reduceCrossings
    let xs := horizontal ordered c.nodeSpacing
    let ys := vertical ordered.layers c.rankSpacing
    if ranking.ranks.any Option.isNone then throw .engineFailed
    return fun id =>
      let v := c.vertices.idxOf id
      let rank := (ranking.rank? v).getD 0
      ⟨⟨xs.getD v 0.0, ys.getD rank 0.0⟩, rank⟩

def engine : LayoutEngine Float := ⟨Layout.connected, Layout.connected_partitions, placeComponent⟩

end DebugDesk.Sugiyama
