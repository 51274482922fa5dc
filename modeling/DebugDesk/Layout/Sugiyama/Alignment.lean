import DebugDesk.Layout.Sugiyama.Ordering
import DebugDesk.Number.Scalar

/-!
# Horizontal coordinates

Nodes are aligned with a median neighbour in the next layer into vertical blocks, in four ways: from
the top or from the bottom, from the left or from the right. Edges that cross the inner part of a
long edge do not align. Each way packs its blocks; a node goes to the mean of the two middle
coordinates of the four.
-/
namespace DebugDesk.Sugiyama

open Scalar

/-- Pairs of nodes, the upper one first, that may not be aligned. -/
abbrev Conflicts := List (Nat × Nat)

/-- How far the conflicts of a layer have been collected. -/
structure Sweep where
  /-- The nodes since the last inner segment, this one included; the latest first. -/
  stretch : List Nat
  /-- The position in the layer above from which edges do not cross that segment. -/
  start : Nat
  found : Conflicts

/-- Closes a stretch of a layer at a node: an edge of the stretch conflicts if it ends outside the
positions from `start` to `stop`. -/
def Sweep.close (o : Ordered) (s : Sweep) (stop : Nat) : Sweep :=
  let found := s.stretch.reverse.flatMap fun low =>
    ((o.layers.node low).above.filter fun high =>
      o.positionOf high < s.start || stop < o.positionOf high).map fun high => (high, low)
  ⟨[], stop, s.found ++ found⟩

/-- Takes one more node of a layer of rank `r`; `last` tells that it is the last one. -/
def Sweep.step (o : Ordered) (r : Nat) (last : Bool) (s : Sweep) (v : Nat) : Sweep :=
  let s := { s with stretch := v :: s.stretch }
  match (o.layers.node v).chain with
  | none => s
  | some chain =>
    let high := chain.node (r - 1)
    if (o.layers.node high).isDummy then s.close o (o.positionOf high)
    else if last then s.close o ((o.layers.layer (r - 1)).length - 1)
    else s

def conflicts (o : Ordered) : Conflicts :=
  (List.range (o.layers.layers.size - 1)).flatMap fun i =>
    let r := i + 1
    let layer := o.layers.layer r
    (layer.zipIdx.foldl (fun (s : Sweep) (v, k) => s.step o r (k + 1 == layer.length) v)
      ⟨[], 0, []⟩).found

/-- One of the four ways: the side of the next layer, and whether layers run from the left. -/
structure Way where
  side : Side
  fromLeft : Bool

/-- The blocks: each node knows the root of its block and the next node of it, round in a cycle. -/
structure Blocks where
  root : Array Nat
  next : Array Nat

def Blocks.rootOf (b : Blocks) (v : Nat) : Nat := b.root.getD v v

def Blocks.nextOf (b : Blocks) (v : Nat) : Nat := b.next.getD v v

/-- The two middle elements of a list, or the one. -/
def medians (xs : List Nat) : List Nat :=
  match xs with
  | [] => []
  | _ =>
    let i := (xs.length - 1) / 2
    if xs.length % 2 = 1 then (xs.drop i).take 1 else (xs.drop i).take 2

def Way.layer (w : Way) (o : Ordered) (r : Nat) : List Nat :=
  let layer := o.layers.layer r
  if w.fromLeft then layer else layer.reverse

def Way.ranks (w : Way) (o : Ordered) : List Nat :=
  let ranks := List.range o.layers.layers.size
  match w.side with
  | .up => ranks
  | .down => ranks.reverse

/-- Aligns a node with the one at position `m` of the next layer, unless it is aligned already, the
edge conflicts, or it crosses the last alignment. -/
def alignWith (conflicts : Conflicts) (w : Way) (near : List Nat) (v : Nat)
    (state : Blocks × Option Nat) (m : Nat) : Blocks × Option Nat :=
  let (b, last) := state
  let u := near.getD m 0
  let pair := match w.side with
    | .down => (v, u)
    | .up => (u, v)
  let apart := match last with
    | none => true
    | some k => if w.fromLeft then k < m else m < k
  if b.nextOf v == v && !conflicts.contains pair && apart then
    let root := b.rootOf u
    (⟨b.root.setIfInBounds v root, (b.next.setIfInBounds u v).setIfInBounds v root⟩, some m)
  else state

/-- The blocks of one way. -/
def align (o : Ordered) (conflicts : Conflicts) (w : Way) : Blocks :=
  let alone := Array.range o.layers.nodes.size
  (w.ranks o).foldl (fun b r =>
    match o.layers.beside? r w.side with
    | none => b
    | some near =>
      let near := o.layers.layer near
      ((w.layer o r).foldl (fun state v =>
        let positions := (((o.layers.node v).neighbours w.side).map o.positionOf).mergeSort
        let positions := if w.fromLeft then positions else positions.reverse
        (medians positions).foldl (alignWith conflicts w near v) state) (b, none)).1)
    ⟨alone, alone⟩

/-- Coordinates of blocks while they are packed. A shift not yet known is infinite. -/
structure Packing where
  sink : Array Nat
  shift : Array Float
  x : Array (Option Float)

namespace Packing

def sinkOf (p : Packing) (v : Nat) : Nat := p.sink.getD v v

def shiftOf (p : Packing) (v : Nat) : Float := p.shift.getD v 0.0

def xOf (p : Packing) (v : Nat) : Float := ((p.x[v]?).join).getD 0.0

end Packing

/-- The nodes of the block of `v`, beginning with it. -/
def Blocks.members (b : Blocks) (v : Nat) : List Nat :=
  let rec follow : Nat → Nat → List Nat
    | 0, _ => []
    | fuel + 1, u => if u = v then [] else u :: follow fuel (b.nextOf u)
  v :: follow b.next.size (b.nextOf v)

/-- The node before another one in its layer, seen in the way's direction. -/
def Way.previous? (w : Way) (o : Ordered) (v : Nat) : Option Nat :=
  let layer := o.layers.layer (o.layers.node v).rank
  let position := o.positionOf v
  if w.fromLeft then
    if position = 0 then none else layer[position - 1]?
  else layer[position + 1]?

/-- Places a block next to the blocks before it, which are placed first. -/
def place (o : Ordered) (b : Blocks) (w : Way) (spacing : Float) : Nat → Packing → Nat → Packing
  | 0, p, _ => p
  | fuel + 1, p, v =>
    if ((p.x[v]?).join).isSome then p
    else
      (b.members v).foldl (fun p u =>
        match w.previous? o u with
        | none => p
        | some before =>
          let gap := spacing + ((o.layers.node before).width + (o.layers.node u).width) / 2.0
          let other := b.rootOf before
          let p := place o b w spacing fuel p other
          let p := if p.sinkOf v = v then
              { p with sink := p.sink.setIfInBounds v (p.sinkOf other) }
            else p
          if p.sinkOf v = p.sinkOf other then
            { p with x := p.x.setIfInBounds v (some (greater (p.xOf v) (p.xOf other + gap))) }
          else
            let s := p.sinkOf other
            { p with
              shift := p.shift.setIfInBounds s
                (lesser (p.shiftOf s) (p.xOf v - (p.xOf other + gap))) })
        { p with x := p.x.setIfInBounds v (some 0.0) }

def infinite : Float := 1.0 / 0.0

/-- The coordinate of each node in one way. -/
def coordinates (o : Ordered) (conflicts : Conflicts) (spacing : Float) (w : Way) :
    Array Float :=
  let n := o.layers.nodes.size
  let b := align o conflicts w
  let packed := (w.ranks o).foldl (fun p r =>
    (w.layer o r).foldl (fun p v =>
      if b.rootOf v = v then place o b w spacing (n + 1) p v else p) p)
    ⟨Array.range n, Array.replicate n infinite, Array.replicate n none⟩
  (Array.range n).map fun v =>
    let root := b.rootOf v
    let x := packed.xOf root
    let x := if !w.fromLeft && x != 0.0 then -x else x
    let s := packed.shiftOf (packed.sinkOf root)
    if s < infinite then (if w.fromLeft then x + s else x - s) else x

def ways : List Way := [⟨.up, true⟩, ⟨.up, false⟩, ⟨.down, true⟩, ⟨.down, false⟩]

/-- The mean of the two middle ones of four coordinates. -/
def middle (xs : List Float) : Float :=
  let sorted := Sorting.sortOn id xs
  (sorted.getD 1 0.0 + sorted.getD 2 0.0) / 2.0

def horizontal (o : Ordered) (spacing : Float) : Array Float :=
  let conflicts := conflicts o
  let all := ways.map (coordinates o conflicts spacing)
  (Array.range o.layers.nodes.size).map fun v => middle (all.map fun xs => xs.getD v 0.0)

/-- The vertical center of each layer, from the top. -/
def vertical (l : Layers) (spacing : Float) : List Float :=
  (l.layers.toList.foldl (fun (done, y) layer =>
    let half := greatest 0.0 (layer.map fun v => (l.node v).height / 2.0)
    ((y + half) :: done, y + (2.0 * half + spacing))) (([] : List Float), 0.0)).1.reverse

end DebugDesk.Sugiyama
