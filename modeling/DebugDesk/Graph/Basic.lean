import DebugDesk.Graph.Content

/-!
# Flow graphs

A graph is a sequence of vertices and a sequence of edges. A vertex is addressed by its position,
and carries an identifier once the vertices have been numbered. An edge may lead to or from a vertex
of another graph; whoever lays the graph out refuses such edges. Graphs that several parts of a
program share and change are kept in one store and referred to by number.
-/
namespace DebugDesk

/-- The identifier of a vertex before the vertices are numbered. -/
def unassigned : Int := -1

structure Vertex where
  id : Int
  lines : List TextLine
  selected : Bool

namespace Vertex

def raw (v : Vertex) : String := TextLine.rawLines v.lines

def summary (v : Vertex) : String := s!"<Vertex {v.id}, {v.lines.length} lines>"

/-- A vertex of another graph, as good as new. -/
def stranger : Vertex := ⟨unassigned, [], false⟩

end Vertex

/-- What an edge leads to or from, seen from a graph. -/
inductive Endpoint where
  /-- The vertex of the graph at a position. -/
  | inside (index : Nat)
  /-- A vertex of another graph, told apart by a number. -/
  | outside (number : Nat) (id : Int)
  deriving DecidableEq, Repr

structure Edge where
  source : Endpoint
  target : Endpoint
  deriving DecidableEq, Repr

def Edge.isSelfLoop (e : Edge) : Bool := e.source = e.target

inductive Direction where
  | out
  | into
  deriving DecidableEq, Repr

/-- The place among so many that a position stands for; negative positions count from the end. -/
def placeAmong (count : Nat) (position : Int) : Except Fault Nat :=
  let place := if position < 0 then position + count else position
  if 0 ≤ place ∧ place < count then .ok place.toNat else .error .noSuchVertex

structure Graph where
  vertices : List Vertex
  edges : List Edge
  /-- The position of the root, if one was set. -/
  rootSet : Option Nat
  provider : ContentProvider

namespace Graph

def empty (provider : ContentProvider) : Graph := ⟨[], [], none, provider⟩

/-- The position of the root: the one set, else the first vertex. -/
def root? (g : Graph) : Option Nat :=
  match g.rootSet with
  | some i => some i
  | none => if g.vertices.isEmpty then none else some 0

def size (g : Graph) : Nat := g.vertices.length

/-- The vertex at a position; negative positions count from the end. -/
def locate (g : Graph) (position : Int) : Except Fault Nat := placeAmong g.size position

/-- Makes a vertex the root; it has to be one of the graph. -/
def setRoot (g : Graph) : Endpoint → Except Fault Graph
  | .inside i => .ok { g with rootSet := some i }
  | .outside _ id => .error (.foreignRoot { Vertex.stranger with id }.summary)

def addVertex (g : Graph) : Graph :=
  let (lines, provider) := g.provider.provide
  { g with vertices := g.vertices ++ [⟨unassigned, lines, false⟩], provider }

def addEdge (g : Graph) (source target : Endpoint) : Graph :=
  { g with edges := g.edges ++ [⟨source, target⟩] }

def updateIdentifiers (g : Graph) : Graph :=
  { g with vertices := g.vertices.zipIdx.map fun (v, i) => { v with id := i } }

def verifyIntegrity (g : Graph) : Bool := g.vertices.all (·.id != unassigned)

def scan (g : Graph) (id : Int) : Option Nat := g.vertices.findIdx? (·.id == id)

/-- The position of a vertex with an identifier: the position of that number if it has it, else the
first that has it. -/
def getVertex (g : Graph) (id : Int) : Option Nat :=
  if 0 ≤ id ∧ (g.vertices[id.toNat]?.map Vertex.id) = some id then some id.toNat else g.scan id

def idOf (g : Graph) : Endpoint → Int
  | .inside i => (g.vertices[i]?.map Vertex.id).getD unassigned
  | .outside _ id => id

def edgeSummary (g : Graph) (e : Edge) : String := s!"<Edge {g.idOf e.source} -> {g.idOf e.target}>"

def summary (g : Graph) : String :=
  s!"<Graph: {g.vertices.length} vertices, {g.edges.length} edges>"

def linkedEdges (g : Graph) (vertex : Endpoint) (d : Direction) : List Nat :=
  (g.edges.zipIdx.filter fun (e, _) =>
    match d with
    | .out => e.source == vertex
    | .into => e.target == vertex).map (·.2)

def direction (word : String) : Except Fault Direction :=
  if word = "out" then .ok .out
  else if word = "in" then .ok .into
  else .error (.unknownDirection word)

/-- Makes one vertex the only selected one, or none; tells whether that changed anything. -/
def select (g : Graph) (choice : Option Endpoint) : Graph × Bool :=
  let wanted (i : Nat) : Bool := choice == some (.inside i)
  ({ g with vertices := g.vertices.zipIdx.map fun (v, i) => { v with selected := wanted i } },
    g.vertices.zipIdx.any fun (v, i) => v.selected != wanted i)

def selected? (g : Graph) : Option Nat := g.vertices.findIdx? (·.selected)

def modifyVertex (g : Graph) (i : Nat) (f : Vertex → Vertex) : Graph :=
  { g with vertices := g.vertices.modify i f }

def addLines (g : Graph) (i : Nat) (lines : List TextLine) : Graph :=
  g.modifyVertex i fun v => { v with lines := v.lines ++ lines }

end Graph

abbrev GraphStore := List Graph

namespace GraphStore

/-- The graph of a number; an empty one if there is none. -/
def graph (s : GraphStore) (ref : Nat) : Graph := s.getD ref (Graph.empty .nothing)

/-- Adds a graph, under the number that is the size of the store. -/
def push (s : GraphStore) (g : Graph) : GraphStore := s ++ [g]

def put (s : GraphStore) (ref : Nat) (g : Graph) : GraphStore := s.set ref g

def change (s : GraphStore) (ref : Nat) (f : Graph → Graph) : GraphStore := s.modify ref f

theorem graph_push (s : GraphStore) (g : Graph) (ref : Nat) :
    (s.push g).graph ref = s.graph ref ∨
      s.graph ref = .empty .nothing ∧ (s.push g).graph ref = g := by
  rcases Nat.lt_trichotomy ref s.length with h | rfl | h
  · exact .inl (by simp [graph, push, List.getElem?_append_left h])
  · exact .inr ⟨by simp [graph], by simp [graph, push]⟩
  · have hout : (s ++ [g]).length ≤ ref := by
      rw [List.length_append]
      exact h
    exact .inl (by simp [graph, push, Nat.le_of_lt h, List.getElem?_eq_none hout])

theorem graph_put (s : GraphStore) (ref : Nat) (g : Graph) (r : Nat) :
    (s.put ref g).graph r = s.graph r ∨ r = ref ∧ (s.put ref g).graph r = g := by
  by_cases hr : ref = r
  · subst hr
    rcases Nat.lt_or_ge ref s.length with h | h
    · exact .inr ⟨rfl, by simp [graph, put, h]⟩
    · exact .inl (by simp [graph, put, h])
  · exact .inl (by simp [graph, put, hr])

theorem graph_change (s : GraphStore) (ref : Nat) (f : Graph → Graph) (r : Nat) :
    (s.change ref f).graph r = s.graph r ∨ r = ref ∧ (s.change ref f).graph r = f (s.graph r) := by
  by_cases hr : ref = r
  · subst hr
    rcases Nat.lt_or_ge ref s.length with h | h
    · exact .inr ⟨rfl, by simp [graph, change, h]⟩
    · exact .inl (by simp [graph, change, h])
  · exact .inl (by simp [graph, change, hr])

theorem graph_of_length_le {s : GraphStore} {ref : Nat} (h : s.length ≤ ref) :
    s.graph ref = .empty .nothing := by simp [graph, h]

theorem graph_change_self {s : GraphStore} {ref : Nat} (h : ref < s.length) (f : Graph → Graph) :
    (s.change ref f).graph ref = f (s.graph ref) := by simp [graph, change, h]

end GraphStore

namespace Graph

def ofPairs (provider : ContentProvider) (n : Nat) (pairs : List (Nat × Nat)) : Graph :=
  let g := (List.range n).foldl (fun g _ => g.addVertex) (empty provider)
  (pairs.foldl (fun g (a, b) => g.addEdge (.inside a) (.inside b)) g).updateIdentifiers

/-- Branches, a join, and a loop back from the last but one vertex. -/
def sample (provider : ContentProvider) : Graph :=
  ofPairs provider 11
    [(0, 1), (0, 2), (1, 3), (1, 4), (2, 5), (3, 6), (4, 6), (5, 7), (5, 8), (6, 9), (7, 9), (8, 9),
      (9, 10), (9, 2)]

variable {σ : Type}

abbrev Draw (σ : Type) := StateT σ (Except Fault)

def drawRange (source : RandomSource σ) (low high : Nat) : Draw σ Nat := fun s =>
  source.range low high s

def drawUnit (source : RandomSource σ) : Draw σ Float := fun s => .ok (source.unit s)

/-- An edge from one of the three vertices before it to each vertex but the first. -/
def drawTree (source : RandomSource σ) (n : Nat) : Draw σ (List (Nat × Nat)) :=
  (List.range (n - 1)).mapM fun i => do
    let parent ← drawRange source (i - 2) (i + 1)
    return (parent, i + 1)

/-- With some probability a branch forward, and with another an edge back. -/
def drawExtra (source : RandomSource σ) (branch back : Float) (n i : Nat) :
    Draw σ (List (Nat × Nat)) := do
  let forward ←
    if (← drawUnit source) < branch then pure [(i, ← drawRange source (i + 1) n)] else pure []
  let backward ←
    if 0 < i then
      if (← drawUnit source) < back then pure [(i, ← drawRange source 0 i)] else pure []
    else pure []
  return forward ++ backward

/-- A random graph with at least one vertex. -/
def random (source : RandomSource σ) (provider : ContentProvider) (vertices : Int)
    (branch back : Float) : Draw σ Graph := do
  let n := (max vertices 1).toNat
  let tree ← drawTree source n
  let extra ← (List.range (n - 1)).mapM (drawExtra source branch back n)
  return ofPairs provider n (tree ++ extra.flatten)

end Graph

end DebugDesk
