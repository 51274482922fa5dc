import Mathlib.Data.List.Forall2
import DebugDesk.Effect
import DebugDesk.Graph.Described
import DebugDesk.Proofs.Graph.Numbering

/-!
# What descriptions describe

A description has its nodes keyed by scalars. If all its edges have ends among the nodes, it
describes a graph; if one names a node that is not there, and all before it have their ends, it is
dangling. All other descriptions are malformed.
-/
namespace DebugDesk.Graph

variable {g : Graph} {places : Places} {description node edge : Json} {nodes edges : List Json}
  {name : String} {key : Json.Key} {position i j : Nat}

/-- The items in a field of a description; there are none if the field is absent. -/
def itemsIn (name : String) (description : Json) : Except Fault (List Json) := do
  itemsOf (← fieldOr (.list []) name description)

/-- The key of the node at a position, if it is an object and has no other id than a scalar. -/
def nodeKey? (position : Nat) : Json → Option Json.Key
  | .object members => ((members.lookup "id").getD (.int position)).key?
  | _ => none

def Unused (nodes : List Json) (key : Json.Key) : Prop :=
  ∀ i node, nodes[i]? = some node → nodeKey? i node ≠ some key

/-- The last node that has a key is at a position. -/
structure LastWith (nodes : List Json) (key : Json.Key) (i : Nat) : Prop where
  has : ∃ node, nodes[i]? = some node ∧ nodeKey? i node = some key
  last : ∀ j node, i < j → nodes[j]? = some node → nodeKey? j node ≠ some key

/-- One end of an edge names the node at a position. -/
def Names (nodes : List Json) (name : String) (edge : Json) (i : Nat) : Prop :=
  ∃ members id key, edge = .object members ∧ members.lookup name = some id ∧
    id.key? = some key ∧ LastWith nodes key i

/-- One end of an edge is not there, or names a node that is not there. -/
def Lacks (nodes : List Json) (name : String) (edge : Json) : Prop :=
  ∃ members, edge = .object members ∧ (members.lookup name = none ∨
    ∃ id key, members.lookup name = some id ∧ id.key? = some key ∧ Unused nodes key)

def Joins (nodes : List Json) (edge : Json) (e : Edge) : Prop :=
  ∃ source target, e = ⟨.inside source, .inside target⟩ ∧
    Names nodes "source" edge source ∧ Names nodes "target" edge target

/-- The target of an edge does not matter if the source is not there. -/
def Dangles (nodes : List Json) (edge : Json) : Prop :=
  Lacks nodes "source" edge ∨
    (∃ source, Names nodes "source" edge source) ∧ Lacks nodes "target" edge

/-- Some edge dangles, and all before it lead from one node to another. -/
inductive SomeDangles (nodes : List Json) : List Json → Prop where
  | here {edge : Json} {rest : List Json} (h : Dangles nodes edge) :
      SomeDangles nodes (edge :: rest)
  | later {edge : Json} {rest : List Json} (h : ∃ e, Joins nodes edge e)
      (hrest : SomeDangles nodes rest) : SomeDangles nodes (edge :: rest)

def Keyed (nodes : List Json) : Prop :=
  ∀ i node, nodes[i]? = some node → (nodeKey? i node).isSome = true

structure Parts (description : Json) (nodes edges : List Json) : Prop where
  nodesIn : itemsIn "nodes" description = .ok nodes
  edgesIn : itemsIn "edges" description = .ok edges
  keyed : Keyed nodes

/-- A graph is the one that a description describes: its vertices are numbered and stand for the
nodes, and its edges for the edges. -/
def Describes (description : Json) (g : Graph) : Prop :=
  ∃ nodes edges, Parts description nodes edges ∧
    g.vertices.map Vertex.id = (List.range nodes.length).map Int.ofNat ∧
    List.Forall₂ (Joins nodes) edges g.edges

/-- The edges of a description all lead from one of its nodes to another. -/
def Linked (description : Json) : Prop :=
  ∃ nodes edges, Parts description nodes edges ∧ ∀ edge ∈ edges, ∃ e, Joins nodes edge e

/-- An edge of a description dangles before any other is malformed. -/
def Dangling (description : Json) : Prop :=
  ∃ nodes edges, Parts description nodes edges ∧ SomeDangles nodes edges

/-- A reading succeeds exactly if it is possible, and then finds something good. It fails for want
of a node exactly if something is lacking. -/
inductive Reads {α : Type} (good : α → Prop) (possible lacking : Prop) (r : Except Fault α) :
    Prop where
  | found (a : α) (eq : r = .ok a) (good : good a) (can : possible) (none : ¬ lacking)
  | lacks (edge : String) (eq : r = .error (.unknownNode edge)) (cannot : ¬ possible)
      (lacking : lacking)
  /-- Something is malformed. -/
  | fails (fault : Fault) (eq : r = .error fault) (shape : ∀ edge, fault ≠ .unknownNode edge)
      (cannot : ¬ possible) (none : ¬ lacking)

namespace Reads

variable {α β : Type} {good : α → Prop} {good' : β → Prop} {p p' l l' : Prop} {r : Except Fault α}

theorem congr (h : Reads good p l r) (hp : p ↔ p') (hl : l ↔ l') : Reads good p' l' r := by
  rwa [← propext hp, ← propext hl]

theorem imp {good' : α → Prop} (h : Reads good p l r) (hg : ∀ a, good a → good' a) :
    Reads good' p l r := by
  cases h with
  | found a eq ha can none => exact .found a eq (hg a ha) can none
  | lacks edge eq cannot lacking => exact .lacks edge eq cannot lacking
  | fails fault eq shape cannot none => exact .fails fault eq shape cannot none

theorem pure {a : α} (h : good a) : Reads good True False (.ok a) := .found a rfl h trivial id

/-- One reading after another: the first one decides if it fails. -/
theorem bind {f : α → Except Fault β} (h : Reads good p l r)
    (hf : ∀ a, r = .ok a → good a → Reads good' p' l' (f a)) :
    Reads good' (p ∧ p') (l ∨ p ∧ l') (r >>= f) := by
  cases h with
  | found a eq ha can none =>
    subst eq
    refine (hf a rfl ha).congr ?_ ?_
    · simp [can]
    · simp [can, none]
  | lacks edge eq cannot lacking =>
    subst eq
    exact .lacks edge rfl (fun h => cannot h.1) (.inl lacking)
  | fails fault eq shape cannot none =>
    subst eq
    exact .fails fault rfl shape (fun h => cannot h.1) fun h => h.elim none fun h => cannot h.1

end Reads

theorem reads_itemsIn (name : String) (description : Json) :
    Reads (fun _ => True) (∃ items, itemsIn name description = .ok items) False
      (itemsIn name description) := by
  cases hread : itemsIn name description with
  | ok items => exact .found items rfl trivial ⟨items, rfl⟩ id
  | error fault =>
    refine .fails fault rfl (fun edge => ?_) (by simp) id
    cases description with
    | object members =>
      have hitems : itemsIn name (.object members) =
        itemsOf ((members.lookup name).getD (.list [])) := rfl
      rw [hitems] at hread
      revert hread
      cases (members.lookup name).getD (.list []) <;> simp +contextual [itemsOf, eq_comm]
    | _ =>
      cases hread
      simp

/-- The key of a node is read. -/
theorem reads_key (position : Nat) (node : Json) :
    Reads (fun key => nodeKey? position node = some key) (nodeKey? position node).isSome False
      (fieldOr (.int position) "id" node >>= idKey) := by
  cases node with
  | object members =>
    have hread : (fieldOr (.int position) "id" (.object members) >>= idKey) =
      idKey ((members.lookup "id").getD (.int position)) := rfl
    rw [hread, idKey, nodeKey?]
    cases ((members.lookup "id").getD (.int position)).key? with
    | none => exact .fails .notAnId rfl (by simp) (by simp) id
    | some key => exact .found key rfl rfl rfl id
  | _ => exact .fails .notAnObject rfl (by simp) (by simp [nodeKey?]) id

structure Placed (nodes : List Json) (g : Graph) (places : Places) : Prop where
  size : g.size = nodes.length
  edges : g.edges = []
  found : ∀ key i, places.lookup key = some i → LastWith nodes key i
  missed : ∀ key, places.lookup key = none → Unused nodes key
  keyed : Keyed nodes

theorem placed_empty (provider : ContentProvider) : Placed [] (empty provider) [] :=
  ⟨rfl, rfl, fun _ _ h => (by cases h), fun _ _ _ _ h => (by simp at h),
    fun _ _ h => (by simp at h)⟩

theorem getElem?_concat {node' : Json} (h : (nodes ++ [node])[i]? = some node') :
    nodes[i]? = some node' ∨ i = nodes.length ∧ node' = node := by
  rcases Nat.lt_trichotomy i nodes.length with hi | rfl | hi
  · exact .inl (by rwa [List.getElem?_append_left hi] at h)
  · exact .inr ⟨rfl, by simpa using h.symm⟩
  · obtain ⟨k, hk⟩ := Nat.exists_eq_succ_of_ne_zero (Nat.sub_ne_zero_of_lt hi)
    rw [List.getElem?_append_right (Nat.le_of_lt hi), hk] at h
    simp at h

theorem Placed.addVertex (h : Placed nodes g places)
    (hkey : nodeKey? nodes.length node = some key) :
    Placed (nodes ++ [node]) g.addVertex ((key, nodes.length) :: places) := by
  have hlast : (nodes ++ [node])[nodes.length]? = some node := by simp
  refine ⟨?_, h.edges, fun key' i hi => ?_, fun key' hi => ?_, fun i node' hi => ?_⟩
  · simp only [Graph.size, Graph.addVertex, List.length_append, List.length_singleton]
    exact congrArg (· + 1) h.size
  · rw [List.lookup_cons] at hi
    split at hi
    next heq =>
      cases hi
      refine ⟨⟨node, hlast, (beq_iff_eq.mp heq) ▸ hkey⟩, fun j node' hj hn => ?_⟩
      have hlt : j < nodes.length + 1 := by
        simpa using (List.getElem?_eq_some_iff.mp hn).1
      omega
    next hne =>
      obtain ⟨⟨node', hn, hk⟩, hafter⟩ := h.found key' i hi
      have hlt := (List.getElem?_eq_some_iff.mp hn).1
      refine ⟨⟨node', (List.getElem?_append_left hlt).trans hn, hk⟩, fun j node'' hj hn' => ?_⟩
      rcases getElem?_concat hn' with hn' | ⟨rfl, rfl⟩
      · exact hafter j node'' hj hn'
      · intro hk'
        rw [hkey] at hk'
        simp [Option.some.inj hk'] at hne
  · rw [List.lookup_cons] at hi
    split at hi
    · cases hi
    next hne =>
      intro i node' hn
      rcases getElem?_concat hn with hn | ⟨rfl, rfl⟩
      · exact h.missed key' hi i node' hn
      · intro hk'
        rw [hkey] at hk'
        simp [Option.some.inj hk'] at hne
  · rcases getElem?_concat hi with hi | ⟨rfl, rfl⟩
    · exact h.keyed i node' hi
    · simp [hkey]

theorem addNodes_cons (g : Graph) (places : Places) (node : Json) (rest : List Json) :
    addNodes g places (node :: rest) =
      ((fieldOr (.int g.size) "id" node >>= idKey) >>= fun key =>
        addNodes g.addVertex ((key, g.size) :: places) rest) := by
  rw [addNodes, bind_assoc]

/-- Nodes are read unless one of them has no key. -/
theorem reads_addNodes (h : Placed nodes g places) (rest : List Json) :
    Reads (fun r => Placed (nodes ++ rest) r.1 r.2) (Keyed (nodes ++ rest)) False
      (addNodes g places rest) := by
  induction rest generalizing nodes g places with
  | nil =>
    rw [List.append_nil]
    exact .found (g, places) rfl h h.keyed id
  | cons node rest ih =>
    rw [addNodes_cons, h.size, List.append_cons]
    refine ((reads_key nodes.length node).bind fun key _ hkey => ih (h.addVertex hkey)).congr ?_ ?_
    · refine and_iff_right_of_imp fun hkeyed => hkeyed nodes.length node ?_
      simp
    · simp

variable {provider : ContentProvider}

theorem names_object {members : List (String × Json)} :
    Names nodes name (.object members) i ↔
      ∃ id key, members.lookup name = some id ∧ id.key? = some key ∧ LastWith nodes key i := by
  constructor
  · rintro ⟨members', id, key, hm, h⟩
    cases hm
    exact ⟨id, key, h⟩
  · rintro ⟨id, key, h⟩
    exact ⟨members, id, key, rfl, h⟩

theorem lacks_object {members : List (String × Json)} :
    Lacks nodes name (.object members) ↔ members.lookup name = none ∨
      ∃ id key, members.lookup name = some id ∧ id.key? = some key ∧ Unused nodes key := by
  constructor
  · rintro ⟨members', hm, h⟩
    cases hm
    exact h
  · exact fun h => ⟨members, rfl, h⟩

theorem LastWith.not_unused (h : LastWith nodes key i) : ¬ Unused nodes key := by
  obtain ⟨node, hn, hk⟩ := h.has
  exact fun hunused => hunused i node hn hk

/-- The end of an edge is read. -/
theorem reads_endOf (h : Placed nodes g places) (name : String) (edge : Json) :
    Reads (Names nodes name edge) (∃ i, Names nodes name edge i) (Lacks nodes name edge)
      (endOf places name edge) := by
  cases edge with
  | object members =>
    simp only [names_object, lacks_object]
    cases hid : members.lookup name with
    | none =>
      exact .lacks (Json.object members).nested (by simp only [endOf, hid]) (by simp) (.inl rfl)
    | some id =>
      cases hkey : id.key? with
      | none =>
        refine .fails .notAnId ?_ (by simp) (by simp [hkey]) (by simp [hkey])
        simp only [endOf, hid, idKey, hkey, Effect.error_bind]
      | some key =>
        cases hplace : places.lookup key with
        | none =>
          have hunused := h.missed key hplace
          refine .lacks (Json.object members).nested ?_ ?_ (.inr ⟨id, key, rfl, hkey, hunused⟩)
          · simp only [endOf, hid, idKey, hkey, Effect.ok_bind, hplace]
          · rintro ⟨i, id', key', hid', hkey', hlast⟩
            cases hid'
            cases hkey.symm.trans hkey'
            exact hlast.not_unused hunused
        | some i =>
          have hlast := h.found key i hplace
          refine .found i ?_ (names_object.mpr ⟨id, key, hid, hkey, hlast⟩)
            ⟨i, id, key, rfl, hkey, hlast⟩ ?_
          · simp only [endOf, hid, idKey, hkey, Effect.ok_bind, hplace]
          · rintro (hnone | ⟨id', key', hid', hkey', hunused⟩)
            · cases hnone
            · cases hid'
              cases hkey.symm.trans hkey'
              exact hlast.not_unused hunused
  | _ => exact .fails .edgeNotObject rfl (by simp) (by simp [Names]) (by simp [Lacks])

def endsOf (places : Places) (edge : Json) : Except Fault Edge := do
  let source ← endOf places "source" edge
  let target ← endOf places "target" edge
  return ⟨.inside source, .inside target⟩

theorem reads_endsOf (h : Placed nodes g places) (edge : Json) :
    Reads (Joins nodes edge) (∃ e, Joins nodes edge e) (Dangles nodes edge)
      (endsOf places edge) := by
  refine ((reads_endOf h "source" edge).bind fun source _ hs =>
    (reads_endOf h "target" edge).bind fun target _ ht =>
    .pure ⟨source, target, rfl, hs, ht⟩).congr ?_ ?_
  · constructor
    · rintro ⟨⟨source, hs⟩, ⟨target, ht⟩, -⟩
      exact ⟨_, source, target, rfl, hs, ht⟩
    · rintro ⟨e, source, target, -, hs, ht⟩
      exact ⟨⟨source, hs⟩, ⟨target, ht⟩, trivial⟩
  · simp [Dangles]

theorem addEdges_cons (g : Graph) (places : Places) (edge : Json) (rest : List Json) :
    addEdges g places (edge :: rest) = (endsOf places edge >>= fun e =>
      addEdges (g.addEdge e.source e.target) places rest) := by
  simp only [addEdges, endsOf, bind_assoc, pure_bind]

theorem someDangles_cons {rest : List Json} : SomeDangles nodes (edge :: rest) ↔
    Dangles nodes edge ∨ (∃ e, Joins nodes edge e) ∧ SomeDangles nodes rest := by
  constructor
  · intro h
    cases h with
    | here h => exact .inl h
    | later h hrest => exact .inr ⟨h, hrest⟩
  · rintro (h | ⟨h, hrest⟩)
    · exact .here h
    · exact .later h hrest

/-- Edges are read up to the first one that does not lead from one node to another. -/
theorem reads_addEdges {g₀ : Graph} (h : Placed nodes g₀ places) (g : Graph)
    (edges : List Json) :
    Reads (fun g' => g'.vertices = g.vertices ∧
        ∃ added, g'.edges = g.edges ++ added ∧ List.Forall₂ (Joins nodes) edges added)
      (∀ edge ∈ edges, ∃ e, Joins nodes edge e) (SomeDangles nodes edges)
      (addEdges g places edges) := by
  induction edges generalizing g with
  | nil =>
    refine .found g rfl ⟨rfl, [], (List.append_nil _).symm, .nil⟩ (by simp) fun h => ?_
    cases h
  | cons edge rest ih =>
    rw [addEdges_cons]
    refine ((reads_endsOf h edge).bind fun e _ he => (ih (g.addEdge e.source e.target)).imp
      fun g' hg' => ?_).congr ?_ someDangles_cons.symm
    · obtain ⟨hvertices, added, hedges, hjoins⟩ := hg'
      refine ⟨hvertices, e :: added, ?_, .cons he hjoins⟩
      rw [hedges, Graph.addEdge, List.append_assoc, List.singleton_append]
    · simp

theorem nodesOf_eq (description : Json) (provider : ContentProvider) :
    nodesOf description provider =
      (itemsIn "nodes" description >>= fun nodes => addNodes (empty provider) [] nodes) := by
  rw [nodesOf, itemsIn, bind_assoc]

theorem ofJson_eq (description : Json) (provider : ContentProvider) :
    ofJson description provider = (nodesOf description provider >>= fun r =>
      itemsIn "edges" description >>= fun edges => addEdges r.1 r.2 edges >>= fun g =>
      .ok g.updateIdentifiers) := by
  simp only [ofJson, itemsIn, bind_assoc]
  rfl

theorem reads_nodesOf (description : Json) (provider : ContentProvider) :
    Reads (fun r => ∃ nodes, itemsIn "nodes" description = .ok nodes ∧ Placed nodes r.1 r.2)
      (∃ nodes, itemsIn "nodes" description = .ok nodes ∧ Keyed nodes) False
      (nodesOf description provider) := by
  have hnodes : ∀ nodes, itemsIn "nodes" description = .ok nodes →
      Reads (fun r => ∃ nodes, itemsIn "nodes" description = .ok nodes ∧ Placed nodes r.1 r.2)
        (∃ nodes, itemsIn "nodes" description = .ok nodes ∧ Keyed nodes) False
        (addNodes (empty provider) [] nodes) := by
    intro nodes hnodes
    have hread := reads_addNodes (placed_empty provider) nodes
    refine (hread.imp fun r hr => ⟨nodes, hnodes, hr⟩).congr ⟨fun h => ⟨nodes, hnodes, h⟩, ?_⟩ .rfl
    rintro ⟨nodes', hnodes', hkeyed⟩
    cases hnodes.symm.trans hnodes'
    exact hkeyed
  rw [nodesOf_eq]
  refine ((reads_itemsIn "nodes" description).bind fun nodes h _ => hnodes nodes h).congr ?_ ?_
  · refine and_iff_right_of_imp ?_
    rintro ⟨nodes, hnodes, -⟩
    exact ⟨nodes, hnodes⟩
  · simp

theorem Parts.exists_iff (h : Parts description nodes edges) (P : List Json → List Json → Prop) :
    (∃ nodes edges, Parts description nodes edges ∧ P nodes edges) ↔ P nodes edges := by
  constructor
  · rintro ⟨nodes', edges', h', hP⟩
    cases h.nodesIn.symm.trans h'.nodesIn
    cases h.edgesIn.symm.trans h'.edgesIn
    exact hP
  · exact fun hP => ⟨nodes, edges, h, hP⟩

/-- The edges of a description are read, once its nodes are. -/
theorem reads_edges {r : Graph × Places}
    (h : ∃ nodes, itemsIn "nodes" description = .ok nodes ∧ Placed nodes r.1 r.2)
    (hedges : itemsIn "edges" description = .ok edges) :
    Reads (Describes description) (Linked description) (Dangling description)
      (addEdges r.1 r.2 edges >>= fun g => .ok g.updateIdentifiers) := by
  obtain ⟨nodes, hnodes, hplaced⟩ := h
  have hparts : Parts description nodes edges := ⟨hnodes, hedges, hplaced.keyed⟩
  refine ((reads_addEdges hplaced r.1 edges).bind fun g _ hg => .pure ?_).congr ?_ ?_
  · obtain ⟨hvertices, added, hadded, hjoins⟩ := hg
    refine ⟨nodes, edges, hparts, ?_, ?_⟩
    · rw [ids_updateIdentifiers, Graph.size, hvertices]
      exact congrArg (fun n => (List.range n).map Int.ofNat) hplaced.size
    · change List.Forall₂ (Joins nodes) edges g.edges
      rwa [hadded, hplaced.edges, List.nil_append]
  · rw [and_true]
    exact (hparts.exists_iff fun nodes edges => ∀ edge ∈ edges, ∃ e, Joins nodes edge e).symm
  · rw [and_false, or_false]
    exact (hparts.exists_iff SomeDangles).symm

/-- A description is read as the graph that it describes exactly if it is linked. -/
theorem reads_ofJson (description : Json) (provider : ContentProvider) :
    Reads (Describes description) (Linked description) (Dangling description)
      (ofJson description provider) := by
  -- Whatever is linked or dangling has parts, so its nodes and edges can be read.
  have hread : ∀ P : List Json → List Json → Prop,
      (∃ nodes, itemsIn "nodes" description = .ok nodes ∧ Keyed nodes) ∧
        (∃ edges, itemsIn "edges" description = .ok edges) ∧
        (∃ nodes edges, Parts description nodes edges ∧ P nodes edges) ↔
      ∃ nodes edges, Parts description nodes edges ∧ P nodes edges := by
    refine fun P => ⟨fun h => h.2.2, ?_⟩
    rintro ⟨nodes, edges, hparts, hP⟩
    exact ⟨⟨nodes, hparts.nodesIn, hparts.keyed⟩, ⟨edges, hparts.edgesIn⟩, nodes, edges, hparts,
      hP⟩
  rw [ofJson_eq]
  refine ((reads_nodesOf description provider).bind fun r _ hr =>
    (reads_itemsIn "edges" description).bind fun edges he _ => reads_edges hr he).congr ?_ ?_
  · exact hread fun nodes edges => ∀ edge ∈ edges, ∃ e, Joins nodes edge e
  · rw [false_or, false_or]
    exact hread SomeDangles

end DebugDesk.Graph
