import DebugDesk.Session.Graphs
import DebugDesk.Layout.Placed
import DebugDesk.Layout.Basic
import DebugDesk.Layout.Sugiyama

/-!
# Layout reports

Layouts of described graphs, and sessions with a layout cache.
-/
namespace DebugDesk.Session

def sizeOfList (j : Json) : Size Float := ⟨toFloat (arg (toList j) 0), toFloat (arg (toList j) 1)⟩

def byId (l : Layout Float) : List (Int × LayoutBox Float) :=
  l.boxes.mergeSort fun a b => a.1 ≤ b.1

def layoutFields (l : Layout Float) : List (String × Report) :=
  [("width", .rounded l.width), ("height", .rounded l.height), ("len", .int l.size),
    ("boxes", .list ((byId l).map fun (id, b) => .list [.int id, .rounded b.x, .rounded b.y,
      .rounded b.width, .rounded b.height, .rounded b.top, .rounded b.bottom, .int b.rank]))]

def layoutReport (input : Json) : Report :=
  .orFailed id do
    let g ← describedGraph (field input "graph")
    let all : Size Float := match field? input "size" with
      | some s => sizeOfList s
      | none => ⟨100, 50⟩
    let special : List (Int × Size Float) ← match field input "sizes" with
      | .object members => members.mapM fun (id, s) => return (← Numeral.read id, sizeOfList s)
      | _ => pure []
    let unsized := (toList (field input "unsized")).map toInt
    let sizes := ((special ++ g.vertices.map fun v => (v.id, all)).filter fun (id, _) =>
      !unsized.contains id)
    let l ← Layout.ofGraph Sugiyama.engine g sizes (floatField input "node_spacing" 40)
      (floatField input "rank_spacing" 60)
    return .object (layoutFields l ++ if toBool (field input "repr") then
        [("repr", .strings ((byId l).map fun (_, b) => b.summary))]
      else [])

structure CacheState where
  /-- The graphs made so far; names stand for their positions, the latest first. -/
  graphs : Array Graph := #[]
  names : List (String × Nat) := []
  cache : LayoutCache Nat Float := .empty
  computed : Nat := 0

namespace CacheState

def named (s : CacheState) (name : String) : Except Fault (Nat × Graph) :=
  match (s.names.lookup name).bind fun i => s.graphs[i]?.map (i, ·) with
  | some found => .ok found
  | none => .error .unknownName

def keep (s : CacheState) (name : String) (g : Graph) : CacheState :=
  { s with graphs := s.graphs.push g, names := (name, s.graphs.size) :: s.names }

/-- The layout of a graph, by the cache, and how many boxes it has. -/
def layOut (s : CacheState) (i : Nat) (g : Graph) (fails : Bool) : Report × CacheState :=
  let compute : Unit → Id (Except Fault (Layout Float)) := fun _ =>
    if fails then .error (.layoutRefused "test")
    else Layout.ofGraph Sugiyama.engine g (g.vertices.map fun v => (v.id, ⟨10, 10⟩)) 40 60
  let (result, cache) := Id.run (s.cache.get i g.size compute)
  (.orFailed (fun l => .nat l.size) result,
    { s with cache, computed := if s.cache.validFor i g.size then s.computed else s.computed + 1 })

end CacheState

def cacheStep (s : CacheState) (name : String) (args : List Json) : Report × CacheState :=
  let key := toStr (arg args 0)
  let withGraph (f : Nat → Graph → Report × CacheState) : Report × CacheState :=
    match s.named key with
    | .ok (i, g) => f i g
    | .error fault => (.failed fault, s)
  match name with
  | "graph" =>
    match graphOf (arg args 1) with
    | .ok g => (.null, s.keep key g)
    | .error f => (.failed f, s)
  | "add_vertex" => withGraph fun i g =>
    (.null, { s with graphs := s.graphs.setIfInBounds i g.addVertex.updateIdentifiers })
  | "get" => withGraph fun i g => s.layOut i g (arg? args 1).isSome
  | "valid" => withGraph fun i g => (.bool (s.cache.validFor i g.size), s)
  | "invalidate" => (.null, { s with cache := .empty })
  | _ => (.null, s)

def layoutCacheSession (input : Json) : Report :=
  .object [("steps", stepsReport cacheStep (fun s => ([("computed", .nat s.computed),
    ("result", .opt (fun l => .nat l.size) s.cache.result?)], s)) ({} : CacheState) input)]

end DebugDesk.Session
