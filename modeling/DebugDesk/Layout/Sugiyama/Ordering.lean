import DebugDesk.Layout.Sugiyama.Layers
import DebugDesk.Number.Sorting

/-!
# Order inside the layers

A layer whose edges to the next one cross is sorted by the barycenters of its neighbours there; then
one pass exchanges neighbours where that saves crossings. Layers are treated from the top down, from
the bottom up if there were crossings, and from the top down again.
-/
namespace DebugDesk.Sugiyama

/-- The layers with the position of each node in its layer, and the place that its neighbours see it
at, between 0 and 1. -/
structure Ordered where
  layers : Layers
  position : Array Nat
  place : Array Float

namespace Ordered

def positionOf (o : Ordered) (v : Nat) : Nat := o.position.getD v 0

def placeOf (o : Ordered) (v : Nat) : Float := o.place.getD v 0.0

/-- Gives the nodes of a layer their positions in order, and evenly spread places. -/
def number (o : Ordered) (layer : List Nat) : Ordered :=
  let n := layer.length
  let step : Float := if 1 < n then 1.0 / Float.ofNat (n - 1) else 1.0
  layer.zipIdx.foldl (fun o (v, i) =>
    { o with
      position := o.position.setIfInBounds v i
      place := o.place.setIfInBounds v (Float.ofNat i * step) }) o

def ofLayers (l : Layers) : Ordered :=
  l.layers.foldl number
    ⟨l, Array.replicate l.nodes.size 0, Array.replicate l.nodes.size 0.0⟩

/-- How many pairs of a list are in descending order. -/
def descents : List Nat → Nat
  | [] => 0
  | x :: xs => (xs.countP (· < x)) + descents xs

/-- The crossings between a layer and the one on a side of it. -/
def crossings (o : Ordered) (layer : List Nat) (side : Side) : Nat :=
  descents (layer.flatMap fun v =>
    (((o.layers.node v).neighbours side).map o.positionOf).mergeSort)

/-- The places of the neighbours of a node. -/
def seen (o : Ordered) (v : Nat) (side : Side) : List Float :=
  ((o.layers.node v).neighbours side).map o.placeOf

/-- Moves the place of a node to the mean of its neighbours' places. -/
def toBarycenter (side : Side) (o : Ordered) (v : Nat) : Ordered :=
  let places := o.seen v side
  if places.isEmpty then o
  else
    let mean := places.foldl (· + ·) 0.0 / Float.ofNat places.length
    { o with place := o.place.setIfInBounds v mean }

/-- Crossings of the edges of two nodes in their order, and in the other order. -/
def crossingsOfPair (left right : List Float) : Nat × Nat :=
  right.foldl (fun (straight, exchanged) r =>
    let k := left.countP fun l => r < l
    (straight + k, exchanged + (left.length - k))) (0, 0)

/-- One pass that exchanges neighbours in a layer where that saves crossings. -/
def exchange (o : Ordered) (side : Side) : List Nat → List Nat × Nat
  | v :: w :: rest =>
    let (straight, exchanged) := crossingsOfPair (o.seen v side) (o.seen w side)
    let (first, second) := if exchanged < straight then (w, v) else (v, w)
    let (tail, n) := exchange o side (second :: rest)
    (first :: tail, min straight exchanged + n)
  | layer => (layer, 0)
  termination_by layer => layer.length

/-- Orders one layer by the layer on a side of it, and tells how many crossings are left. -/
def orderLayer (o : Ordered) (r : Nat) (side : Side) : Ordered × Nat :=
  let layer := o.layers.layer r
  if crossings o layer side = 0 then (o, 0)
  else
    let o := if (o.layers.beside? r side).isSome then layer.foldl (toBarycenter side) o else o
    let sorted := Sorting.sortOn o.placeOf layer
    let (layer, n) := exchange o side sorted
    let o := { o with layers.layers := o.layers.layers.setIfInBounds r layer }
    (o.number layer, n)

/-- Orders the given layers in turn, and adds up the crossings left. -/
def pass (o : Ordered) (side : Side) (ranks : List Nat) : Ordered × Nat :=
  ranks.foldl (fun (o, n) r =>
    let (o, k) := o.orderLayer r side
    (o, n + k)) (o, 0)

def reduceCrossings (o : Ordered) : Ordered :=
  let ranks := List.range o.layers.layers.size
  let (o, n) := o.pass .up ranks
  let o := if n = 0 then o else (o.pass .down ranks.reverse).1
  (o.pass .up ranks).1

end Ordered

end DebugDesk.Sugiyama
