import DebugDesk.Layout.Sugiyama.Ranks

/-!
# Proper layers

An edge over several ranks goes through one dummy node in each rank between its ends. Nodes are the
vertices followed by the dummies; each knows its rank, its size, and its neighbours in the layers
next to its own.
-/
namespace DebugDesk.Sugiyama

/-- The nodes of a long edge: its ends and, from the first one on, a dummy per rank between them. -/
structure Chain where
  upper : Nat
  lower : Nat
  upperRank : Nat
  lowerRank : Nat
  firstDummy : Nat
  deriving Repr

def Chain.node (c : Chain) (rank : Nat) : Nat :=
  if rank = c.upperRank then c.upper
  else if rank = c.lowerRank then c.lower
  else c.firstDummy + (rank - c.upperRank - 1)

structure Node where
  rank : Nat
  width : Float
  height : Float
  /-- The long edge that a dummy lies on. -/
  chain : Option Chain
  /-- Neighbours in the layer above. -/
  above : List Nat
  /-- Neighbours in the layer below. -/
  below : List Nat
  deriving Inhabited

/-- Direction of the layer that is looked at. -/
inductive Side where
  | up
  | down
  deriving DecidableEq, Repr

def Node.neighbours (n : Node) : Side → List Nat
  | .up => n.above
  | .down => n.below

def Node.isDummy (n : Node) : Bool := n.chain.isSome

structure Layers where
  nodes : Array Node
  layers : Array (List Nat)

namespace Layers

def node (l : Layers) (v : Nat) : Node := l.nodes.getD v default

def layer (l : Layers) (r : Nat) : List Nat := l.layers.getD r []

def beside? (l : Layers) (rank : Nat) : Side → Option Nat
  | .up => if 0 < rank then some (rank - 1) else none
  | .down => if rank + 1 < l.layers.size then some (rank + 1) else none

/-- The long edges, and the layers with a dummy of theirs in each rank they pass. -/
structure Spanning where
  chains : Array (Option Chain)
  dummies : Array (Nat × Chain)
  layers : Array (List Nat)

/-- Adds the dummies of one edge, rank by rank downward. -/
def Spanning.add (size : Nat) (rank : Nat → Nat) (s : Spanning) (a : Arc) : Spanning :=
  let top := rank a.source
  let bottom := rank a.target
  if bottom - top > 1 then
    let chain : Chain := ⟨a.source, a.target, top, bottom, size + s.dummies.size⟩
    let ranks := (List.range (bottom - top - 1)).map (· + top + 1)
    { chains := s.chains.push (some chain)
      dummies := s.dummies ++ (ranks.map fun r => (r, chain)).toArray
      layers := ranks.foldl (fun layers r => layers.modify r (· ++ [chain.node r])) s.layers }
  else { s with chains := s.chains.push none }

/-- The neighbours of a vertex toward one side. Where a neighbour is further than one rank away, the
first edge between the two tells the dummy instead. -/
def neighboursOf (g : Digraph) (rank : Nat → Nat) (chains : Array (Option Chain)) (v : Nat)
    (side : Side) : List Nat :=
  let (ends, wanted) := match side with
    | .up => (g.predecessors v, rank v - 1)
    | .down => (g.successors v, rank v + 1)
  ends.map fun x =>
    if rank x = wanted then x
    else
      let first := (g.edgesAt v).find? fun a => (g.arc a).source == x || (g.arc a).target == x
      match first.bind fun a => (chains[a]?).join with
      | some chain => chain.node wanted
      | none => x

/-- The layers of a ranked graph, in which dummies have the given width and height. -/
def ofRanking (g : Digraph) (r : Ranking) (sizeOf : Nat → Float × Float)
    (dummyWidth dummyHeight : Float) : Layers :=
  let rank (v : Nat) : Nat := (r.rank? v).getD 0
  let spanning := g.arcs.foldl (Spanning.add g.size rank) ⟨#[], #[], r.layers⟩
  let vertices := (List.range g.size).map fun v =>
    { rank := rank v
      width := (sizeOf v).1
      height := (sizeOf v).2
      chain := none
      above := neighboursOf g rank spanning.chains v .up
      below := neighboursOf g rank spanning.chains v .down }
  let dummies := spanning.dummies.map fun (rank, chain) =>
    { rank
      width := dummyWidth
      height := dummyHeight
      chain := some chain
      above := [chain.node (rank - 1)]
      below := [chain.node (rank + 1)] }
  ⟨vertices.toArray ++ dummies, spanning.layers⟩

end Layers

end DebugDesk.Sugiyama
