import Mathlib.Data.List.Induction
import Mathlib.Data.Set.Function
import DebugDesk.Proofs.Graph.Describing

/-!
# Round trips

The keys in a description say which nodes an edge joins, and nothing else: the description of the
graph that is read from it joins the same positions, and the keys may be exchanged for others. If
several nodes have one key, it names the last of them. Descriptions of graphs have the positions as
keys, so they are read as they were written.
-/
namespace DebugDesk.Graph

variable {g : Graph} {places : Places} {description edge : Json} {nodes edges : List Json}
  {name : String} {key : Json.Key} {provider : ContentProvider} {i j : Nat}

/-- An edge is an object, and its ends are scalars as far as they are there. -/
def Scalars (edge : Json) : Prop :=
  ∃ members, edge = .object members ∧ ∀ name ∈ ["source", "target"],
    ∀ id, members.lookup name = some id → id.key?.isSome = true

/-- A description whose nodes have keys and whose edges refer to keys. -/
structure Keys (description : Json) (nodes edges : List Json) : Prop where
  parts : Parts description nodes edges
  scalars : ∀ edge ∈ edges, Scalars edge

/-- One end of an edge is not there, or names a node that is not there. -/
def Loose (nodes : List Json) (edge : Json) : Prop :=
  Lacks nodes "source" edge ∨ Lacks nodes "target" edge

/-- An edge leads from the node at one position to the one at another. -/
def Leads (nodes : List Json) (edge : Json) (ends : Nat × Nat) : Prop :=
  Names nodes "source" edge ends.1 ∧ Names nodes "target" edge ends.2

def between (ends : Nat × Nat) : Edge := ⟨.inside ends.1, .inside ends.2⟩

def numberedNodes (size : Nat) : List Json :=
  (List.range size).map fun i : Nat => .object [("id", .int i)]

def numberedEdge (ends : Nat × Nat) : Json :=
  .object [("source", .int ends.1), ("target", .int ends.2)]

/-- The description of a graph with so many vertices, and edges between positions. -/
def numbered (size : Nat) (ends : List (Nat × Nat)) : Json :=
  .object [("nodes", .list (numberedNodes size)), ("edges", .list (ends.map numberedEdge))]

theorem LastWith.eq (h : LastWith nodes key i) (h' : LastWith nodes key j) : i = j := by
  obtain ⟨a, ha, hka⟩ := h.has
  obtain ⟨b, hb, hkb⟩ := h'.has
  rcases Nat.lt_trichotomy i j with hij | hij | hij
  · exact absurd hkb (h.last j b hij hb)
  · exact hij
  · exact absurd hka (h'.last i a hij ha)

theorem Names.eq (h : Names nodes name edge i) (h' : Names nodes name edge j) : i = j := by
  obtain ⟨members, id, key, rfl, hid, hkey, hlast⟩ := h
  obtain ⟨id', key', hid', hkey', hlast'⟩ := names_object.mp h'
  cases hid.symm.trans hid'
  cases hkey.symm.trans hkey'
  exact hlast.eq hlast'

theorem Names.not_lacks (h : Names nodes name edge i) : ¬ Lacks nodes name edge := by
  obtain ⟨members, id, key, rfl, hid, hkey, hlast⟩ := h
  rw [lacks_object]
  rintro (hnone | ⟨id', key', hid', hkey', hunused⟩)
  · simp [hid] at hnone
  · cases hid.symm.trans hid'
    cases hkey.symm.trans hkey'
    exact hlast.not_unused hunused

theorem Names.lt_length (h : Names nodes name edge i) : i < nodes.length := by
  obtain ⟨members, id, key, rfl, hid, hkey, ⟨node, hn, -⟩, -⟩ := h
  exact (List.getElem?_eq_some_iff.mp hn).1

/-- A key that a node has is the one of the last such node. -/
theorem unused_or_lastWith (nodes : List Json) (key : Json.Key) :
    Unused nodes key ∨ ∃ i, LastWith nodes key i := by
  -- From the end, since the last node that has a key is the one that counts.
  induction nodes using List.reverseRecOn with
  | nil => exact .inl fun i node h => absurd h (by simp)
  | append_singleton nodes node ih =>
    by_cases hkey : nodeKey? nodes.length node = some key
    · refine .inr ⟨nodes.length, ⟨node, by simp, hkey⟩, fun j node' hj hn => ?_⟩
      have hlt := (List.getElem?_eq_some_iff.mp hn).1
      simp only [List.length_append, List.length_singleton] at hlt
      omega
    rcases ih with hunused | ⟨i, ⟨node', hn, hk⟩, hafter⟩
    · refine .inl fun i node' hn => ?_
      rcases getElem?_concat hn with hn | ⟨rfl, rfl⟩
      · exact hunused i node' hn
      · exact hkey
    · have hlt := (List.getElem?_eq_some_iff.mp hn).1
      refine .inr ⟨i, ⟨node', (List.getElem?_append_left hlt).trans hn, hk⟩, ?_⟩
      intro j node'' hj hn'
      rcases getElem?_concat hn' with hn' | ⟨rfl, rfl⟩
      · exact hafter j node'' hj hn'
      · exact hkey

theorem scalars_object {source target : Json} (hs : source.key?.isSome = true)
    (ht : target.key?.isSome = true) :
    Scalars (.object [("source", source), ("target", target)]) := by
  refine ⟨_, rfl, fun name hname id hid => ?_⟩
  simp only [List.mem_cons, List.not_mem_nil, or_false] at hname
  rcases hname with rfl | rfl
  · cases hid
    exact hs
  · cases hid
    exact ht

theorem Scalars.names_or_lacks (h : Scalars edge) (nodes : List Json) (name : String)
    (hname : name ∈ ["source", "target"]) :
    (∃ i, Names nodes name edge i) ∨ Lacks nodes name edge := by
  obtain ⟨members, rfl, hscalar⟩ := h
  simp only [names_object, lacks_object]
  cases hid : members.lookup name with
  | none => exact .inr (.inl rfl)
  | some id =>
    obtain ⟨key, hkey⟩ := Option.isSome_iff_exists.mp (hscalar name hname id hid)
    rcases unused_or_lastWith nodes key with hunused | ⟨i, hlast⟩
    · exact .inr (.inr ⟨id, key, rfl, hkey, hunused⟩)
    · exact .inl ⟨i, id, key, rfl, hkey, hlast⟩

theorem Joins.leads {e : Edge} (h : Joins nodes edge e) :
    ∃ ends, e = between ends ∧ Leads nodes edge ends := by
  obtain ⟨source, target, rfl, hs, ht⟩ := h
  exact ⟨(source, target), rfl, hs, ht⟩

theorem Leads.joins {ends : Nat × Nat} (h : Leads nodes edge ends) :
    Joins nodes edge (between ends) :=
  ⟨ends.1, ends.2, rfl, h.1, h.2⟩

theorem Leads.eq {a b : Nat × Nat} (h : Leads nodes edge a) (h' : Leads nodes edge b) : a = b :=
  Prod.ext (h.1.eq h'.1) (h.2.eq h'.2)

theorem Leads.not_loose {ends : Nat × Nat} (h : Leads nodes edge ends) : ¬ Loose nodes edge :=
  fun hloose => hloose.elim h.1.not_lacks h.2.not_lacks

theorem Scalars.leads_or_loose (h : Scalars edge) (nodes : List Json) :
    (∃ ends, Leads nodes edge ends) ∨ Loose nodes edge := by
  rcases h.names_or_lacks nodes "source" (by simp) with ⟨s, hs⟩ | hs
  · rcases h.names_or_lacks nodes "target" (by simp) with ⟨t, ht⟩ | ht
    · exact .inl ⟨(s, t), hs, ht⟩
    · exact .inr (.inr ht)
  · exact .inr (.inl hs)

theorem someDangles_iff (h : ∀ edge ∈ edges, Scalars edge) :
    SomeDangles nodes edges ↔ ∃ edge ∈ edges, Loose nodes edge := by
  induction edges with
  | nil =>
    simp only [List.not_mem_nil, false_and, exists_false, iff_false]
    intro hdangles
    cases hdangles
  | cons edge rest ih =>
    have hrest : ∀ edge ∈ rest, Scalars edge := fun edge he => h edge (List.mem_cons_of_mem _ he)
    have hedge : Scalars edge := h edge List.mem_cons_self
    rw [someDangles_cons, ih hrest, List.exists_mem_cons_iff]
    constructor
    · rintro ((hs | ⟨-, ht⟩) | ⟨-, hlater⟩)
      · exact .inl (.inl hs)
      · exact .inl (.inr ht)
      · exact .inr hlater
    · intro hloose
      rcases hedge.leads_or_loose nodes with ⟨ends, hends⟩ | hhere
      · refine .inr ⟨⟨_, hends.joins⟩, hloose.resolve_left hends.not_loose⟩
      · refine .inl ?_
        rcases hedge.names_or_lacks nodes "source" (by simp) with hs | hs
        · exact hhere.elim .inl fun ht => .inr ⟨hs, ht⟩
        · exact .inl hs

theorem Keys.dangling_iff (h : Keys description nodes edges) :
    Dangling description ↔ ∃ edge ∈ edges, Loose nodes edge :=
  (h.parts.exists_iff SomeDangles).trans (someDangles_iff h.scalars)

theorem Keys.linked_iff (h : Keys description nodes edges) :
    Linked description ↔ ∀ edge ∈ edges, ¬ Loose nodes edge := by
  refine (h.parts.exists_iff fun nodes edges => ∀ edge ∈ edges, ∃ e, Joins nodes edge e).trans ?_
  refine forall₂_congr fun edge he => ⟨fun hjoins => ?_, fun hloose => ?_⟩
  · obtain ⟨e, hjoins⟩ := hjoins
    obtain ⟨ends, -, hleads⟩ := hjoins.leads
    exact hleads.not_loose
  · obtain ⟨ends, hleads⟩ := ((h.scalars edge he).leads_or_loose nodes).resolve_right hloose
    exact ⟨_, hleads.joins⟩

/-- The graph with so many vertices, numbered, and edges between positions. -/
def ofEnds (provider : ContentProvider) (size : Nat) (ends : List (Nat × Nat)) : Graph :=
  { (addVertex^[size] (empty provider)).updateIdentifiers with edges := ends.map between }

theorem addNodes_eq {r : Graph × Places} (h : addNodes g places nodes = .ok r) :
    r.1 = addVertex^[nodes.length] g := by
  induction nodes generalizing g places with
  | nil =>
    cases h
    rfl
  | cons node rest ih =>
    rw [addNodes_cons] at h
    obtain ⟨key, -, h⟩ := Effect.bind_eq_ok h
    exact ih h

theorem addEdges_eq {g' : Graph} (h : addEdges g places edges = .ok g') :
    g' = { g with edges := g'.edges } := by
  induction edges generalizing g with
  | nil =>
    cases h
    rfl
  | cons edge rest ih =>
    rw [addEdges_cons] at h
    obtain ⟨e, -, h⟩ := Effect.bind_eq_ok h
    have hrest := ih h
    exact hrest

theorem size_iterate_addVertex (g : Graph) (n : Nat) : (addVertex^[n] g).size = g.size + n := by
  induction n generalizing g with
  | zero => rfl
  | succ n ih =>
    have hsize : g.addVertex.size = g.size + 1 := by simp [Graph.size, Graph.addVertex]
    rw [Function.iterate_succ_apply, ih, hsize]
    omega

theorem ids_ofEnds (provider : ContentProvider) (size : Nat) (ends : List (Nat × Nat)) :
    (ofEnds provider size ends).vertices.map Vertex.id = (List.range size).map Int.ofNat := by
  have hids := ids_updateIdentifiers (addVertex^[size] (empty provider))
  rw [size_iterate_addVertex] at hids
  rw [show (empty provider).size = 0 from rfl, Nat.zero_add] at hids
  exact hids

theorem size_ofEnds (provider : ContentProvider) (size : Nat) (ends : List (Nat × Nat)) :
    (ofEnds provider size ends).size = size := by
  have hlength := congrArg List.length (ids_ofEnds provider size ends)
  simpa [Graph.size] using hlength

theorem exists_leads_of_joins {es : List Edge} (h : List.Forall₂ (Joins nodes) edges es) :
    ∃ ends, es = ends.map between ∧ List.Forall₂ (Leads nodes) edges ends := by
  induction h with
  | nil => exact ⟨[], rfl, .nil⟩
  | cons hjoins _ ih =>
    obtain ⟨e, rfl, he⟩ := hjoins.leads
    obtain ⟨ends, rfl, hends⟩ := ih
    exact ⟨e :: ends, rfl, .cons he hends⟩

theorem leads_rightUnique : Relator.RightUnique (Leads nodes) := fun _ _ _ h h' => h.eq h'

theorem not_loose {ends : List (Nat × Nat)} (h : List.Forall₂ (Leads nodes) edges ends) :
    ∀ edge ∈ edges, ¬ Loose nodes edge := by
  induction h with
  | nil => simp
  | cons hleads _ ih => exact List.forall_mem_cons.mpr ⟨hleads.not_loose, ih⟩

/-- Edges that are not loose lead somewhere. -/
theorem exists_leads (h : ∀ edge ∈ edges, Scalars edge)
    (hloose : ∀ edge ∈ edges, ¬ Loose nodes edge) :
    ∃ ends, List.Forall₂ (Leads nodes) edges ends := by
  induction edges with
  | nil => exact ⟨[], .nil⟩
  | cons edge rest ih =>
    rw [List.forall_mem_cons] at h hloose
    obtain ⟨e, he⟩ := (h.1.leads_or_loose nodes).resolve_right hloose.1
    obtain ⟨ends, hends⟩ := ih h.2 hloose.2
    exact ⟨e :: ends, .cons he hends⟩

theorem lt_length_of_leads {ends : List (Nat × Nat)}
    (h : List.Forall₂ (Leads nodes) edges ends) :
    ∀ e ∈ ends, e.1 < nodes.length ∧ e.2 < nodes.length := by
  induction h with
  | nil => simp
  | cons hleads _ ih =>
    exact List.forall_mem_cons.mpr ⟨⟨hleads.1.lt_length, hleads.2.lt_length⟩, ih⟩

theorem describes_eq {ends : List (Nat × Nat)} (h : Parts description nodes edges)
    (hends : List.Forall₂ (Leads nodes) edges ends)
    (hread : ofJson description provider = .ok g) (hg : Describes description g) :
    g = ofEnds provider nodes.length ends := by
  have hjoins : List.Forall₂ (Joins nodes) edges g.edges :=
    ((h.exists_iff fun nodes edges =>
      g.vertices.map Vertex.id = (List.range nodes.length).map Int.ofNat ∧
        List.Forall₂ (Joins nodes) edges g.edges).mp hg).2
  obtain ⟨ends', hedges, hends'⟩ := exists_leads_of_joins hjoins
  cases List.right_unique_forall₂' leads_rightUnique hends' hends
  rw [ofJson_eq, nodesOf_eq, h.nodesIn, Effect.ok_bind, h.edgesIn] at hread
  obtain ⟨r, hnodes, hread⟩ := Effect.bind_eq_ok hread
  rw [Effect.ok_bind] at hread
  obtain ⟨g', hadd, hread⟩ := Effect.bind_eq_ok hread
  cases hread
  have hvertices := addEdges_eq hadd
  rw [addNodes_eq hnodes] at hvertices
  rw [ofEnds, ← hedges, hvertices]
  rfl

theorem Keys.ofJson_eq {ends : List (Nat × Nat)} (h : Keys description nodes edges)
    (hends : List.Forall₂ (Leads nodes) edges ends) (provider : ContentProvider) :
    ofJson description provider = .ok (ofEnds provider nodes.length ends) := by
  have hlinked : Linked description := h.linked_iff.mpr (not_loose hends)
  have hread := reads_ofJson description provider
  cases hread with
  | found g eq good can none => rw [eq, describes_eq h.parts hends eq good]
  | lacks edge eq cannot lacking => exact absurd hlinked cannot
  | fails fault eq shape cannot none => exact absurd hlinked cannot

theorem Keys.ofJson_eq_unknownNode_iff (h : Keys description nodes edges)
    (provider : ContentProvider) :
    (∃ edge, ofJson description provider = .error (.unknownNode edge)) ↔
      ∃ edge ∈ edges, Loose nodes edge := by
  rw [← h.dangling_iff]
  have hread := reads_ofJson description provider
  cases hread with
  | found g eq good can none => simp [eq, none]
  | lacks edge eq cannot lacking => simp [eq, lacking]
  | fails fault eq shape cannot none => simp [eq, none, shape]

theorem toJson_eq_numbered {ends : List (Nat × Nat)}
    (hids : g.vertices.map Vertex.id = (List.range g.size).map Int.ofNat)
    (hedges : g.edges = ends.map between) (hends : ∀ e ∈ ends, e.1 < g.size ∧ e.2 < g.size) :
    g.toJson = numbered g.size ends := by
  have hnodes : (g.vertices.map fun v => Json.object [("id", .int v.id)]) =
      numberedNodes g.size := by
    have hmap := congrArg (List.map fun n : Int => Json.object [("id", .int n)]) hids
    simpa only [List.map_map, Function.comp_def, Int.ofNat_eq_natCast, numberedNodes] using hmap
  have hlinks : (g.edges.map fun e =>
      Json.object [("source", .int (g.idOf e.source)), ("target", .int (g.idOf e.target))]) =
      ends.map numberedEdge := by
    rw [hedges, List.map_map]
    refine List.map_congr_left fun e he => ?_
    obtain ⟨hs, ht⟩ := hends e he
    simp only [Function.comp_def, between, numberedEdge, idOf_inside hids hs, idOf_inside hids ht]
  rw [toJson, numbered, hnodes, hlinks]

theorem toJson_ofEnds (provider : ContentProvider) {size : Nat} {ends : List (Nat × Nat)}
    (hends : ∀ e ∈ ends, e.1 < size ∧ e.2 < size) :
    (ofEnds provider size ends).toJson = numbered size ends := by
  have hsize := size_ofEnds provider size ends
  have hids : (ofEnds provider size ends).vertices.map Vertex.id =
      (List.range (ofEnds provider size ends).size).map Int.ofNat := by
    rw [hsize, ids_ofEnds]
  have hjson := toJson_eq_numbered hids rfl (by rwa [hsize])
  rwa [hsize] at hjson

theorem getElem?_numberedNodes {size : Nat} (hi : i < size) :
    (numberedNodes size)[i]? = some (.object [("id", .int i)]) := by
  rw [numberedNodes, List.getElem?_map, List.getElem?_range hi, Option.map_some]

theorem nodeKey?_numberedNodes {size : Nat} {node : Json}
    (h : (numberedNodes size)[i]? = some node) : nodeKey? i node = some (.number (i : Int)) := by
  have hi : i < size := by simpa [numberedNodes] using (List.getElem?_eq_some_iff.mp h).1
  cases (getElem?_numberedNodes hi).symm.trans h
  rfl

theorem lastWith_numberedNodes {size : Nat} (hi : i < size) :
    LastWith (numberedNodes size) (.number (i : Int)) i := by
  refine ⟨⟨_, getElem?_numberedNodes hi, rfl⟩, fun j node hj hn => ?_⟩
  rw [nodeKey?_numberedNodes hn]
  simp only [ne_eq, Option.some.injEq, Json.Key.number.injEq, Rat.intCast_inj, Int.natCast_inj]
  omega

theorem leads_numberedEdge {size : Nat} {ends : Nat × Nat}
    (hends : ends.1 < size ∧ ends.2 < size) :
    Leads (numberedNodes size) (numberedEdge ends) ends :=
  ⟨names_object.mpr ⟨_, _, rfl, rfl, lastWith_numberedNodes hends.1⟩,
    names_object.mpr ⟨_, _, rfl, rfl, lastWith_numberedNodes hends.2⟩⟩

theorem parts_numbered (size : Nat) (ends : List (Nat × Nat)) :
    Parts (numbered size ends) (numberedNodes size) (ends.map numberedEdge) :=
  ⟨rfl, rfl, fun i node h => by rw [nodeKey?_numberedNodes h]; rfl⟩

theorem keys_numbered (size : Nat) (ends : List (Nat × Nat)) :
    Keys (numbered size ends) (numberedNodes size) (ends.map numberedEdge) := by
  refine ⟨parts_numbered size ends, fun edge he => ?_⟩
  obtain ⟨e, -, rfl⟩ := List.mem_map.mp he
  exact scalars_object rfl rfl

/-- Numbered descriptions are read as they are written. -/
theorem ofJson_numbered (provider : ContentProvider) {size : Nat} {ends : List (Nat × Nat)}
    (hends : ∀ e ∈ ends, e.1 < size ∧ e.2 < size) :
    ofJson (numbered size ends) provider = .ok (ofEnds provider size ends) := by
  have hleads : List.Forall₂ (Leads (numberedNodes size)) (ends.map numberedEdge) ends :=
    List.forall₂_map_left_iff.mpr
      (List.forall₂_same.mpr fun e he => leads_numberedEdge (hends e he))
  have hsize : (numberedNodes size).length = size := by simp [numberedNodes]
  have hread := (keys_numbered size ends).ofJson_eq hleads provider
  rwa [hsize] at hread

/-- A graph that a program has made: it adds vertices, edges between vertices that are there, of
this graph or of others, and lines, sets roots, selects vertices, numbers them, and reads
descriptions. -/
inductive Made : Graph → Prop where
  | empty (provider : ContentProvider) : Made (empty provider)
  | addVertex {g : Graph} (h : Made g) : Made g.addVertex
  | addEdge {g : Graph} (h : Made g) {source target : Endpoint} (hs : g.HasEnd source)
      (ht : g.HasEnd target) : Made (g.addEdge source target)
  | setRoot {g g' : Graph} (h : Made g) (vertex : Endpoint) (hset : g.setRoot vertex = .ok g') :
      Made g'
  | addLines {g : Graph} (h : Made g) (i : Nat) (lines : List TextLine) : Made (g.addLines i lines)
  | select {g : Graph} (h : Made g) (choice : Option Endpoint) : Made (g.select choice).1
  | updateIdentifiers {g : Graph} (h : Made g) : Made g.updateIdentifiers
  | read {g : Graph} {description : Json} {provider : ContentProvider}
      (hread : ofJson description provider = .ok g) : Made g

theorem describes_of_ofJson (h : ofJson description provider = .ok g) :
    Describes description g := by
  have hread := reads_ofJson description provider
  rw [h] at hread
  cases hread with
  | found g' eq good can none => exact Except.ok.inj eq ▸ good
  | lacks edge eq cannot lacking => cases eq
  | fails fault eq shape cannot none => cases eq

theorem built_ofJson (h : ofJson description provider = .ok g) : g.Built := by
  obtain ⟨nodes, edges, -, hids, hjoins⟩ := describes_of_ofJson h
  obtain ⟨ends, hedges, hends⟩ := exists_leads_of_joins hjoins
  have hsize : g.size = nodes.length := by
    have hlength := congrArg List.length hids
    simpa [Graph.size] using hlength
  refine ⟨⟨nodes.length, 0, by simpa using hids⟩, fun e he i hi => ?_⟩
  rw [hedges] at he
  obtain ⟨pair, hpair, rfl⟩ := List.mem_map.mp he
  obtain ⟨hs, ht⟩ := lt_length_of_leads hends pair hpair
  rw [hsize]
  rcases hi with hi | hi
  · cases hi
    exact hs
  · cases hi
    exact ht

theorem ids_addLines (g : Graph) (i : Nat) (lines : List TextLine) :
    (g.addLines i lines).vertices.map Vertex.id = g.vertices.map Vertex.id := by
  refine List.ext_getElem? fun j => ?_
  simp only [addLines, modifyVertex, List.getElem?_map, List.getElem?_modify]
  cases g.vertices[j]? with
  | none => rfl
  | some v =>
    by_cases h : i = j
    · simp [h]
    · simp [h]

theorem size_addLines (g : Graph) (i : Nat) (lines : List TextLine) :
    (g.addLines i lines).size = g.size := by simp [Graph.size, addLines, modifyVertex]

theorem Made.built (h : Made g) : g.Built := by
  induction h with
  | empty provider => exact built_empty provider
  | addVertex _ ih => exact ih.addVertex
  | addEdge _ hs ht ih => exact ih.addEdge hs ht
  | setRoot _ vertex hset ih =>
    cases vertex with
    | inside i =>
      cases hset
      exact ⟨ih.ids, ih.ends⟩
    | outside number id => cases hset
  | addLines _ i lines ih =>
    refine ⟨?_, ?_⟩
    · rw [ids_addLines]
      exact ih.ids
    · rw [size_addLines]
      exact ih.ends
  | select _ choice ih => exact ih.select choice
  | updateIdentifiers _ ih => exact ih.updateIdentifiers
  | read hread => exact built_ofJson hread

theorem Built.exists_ends (h : g.Built) (hwithin : ∀ e ∈ g.edges, ∃ ends, e = between ends) :
    ∃ ends : List (Nat × Nat),
      g.edges = ends.map between ∧ ∀ e ∈ ends, e.1 < g.size ∧ e.2 < g.size := by
  choose! f hf using hwithin
  refine ⟨g.edges.map f, ?_, fun e he => ?_⟩
  · rw [List.map_map]
    exact (List.map_id g.edges).symm.trans (List.map_congr_left fun e he => hf e he)
  · obtain ⟨edge, hedge, rfl⟩ := List.mem_map.mp he
    have hends := h.ends edge hedge
    rw [hf edge hedge] at hends
    exact ⟨hends _ (.inl rfl), hends _ (.inr rfl)⟩

/-- Graphs are described by their positions, and are read from that as they were written. -/
theorem Made.ofJson_toJson (h : Made g) (hv : g.verifyIntegrity = true)
    (hwithin : ∀ e ∈ g.edges, ∃ ends, e = between ends) (provider : ContentProvider) :
    ∃ g', ofJson g.toJson provider = .ok g' ∧
      g'.vertices.map Vertex.id = g.vertices.map Vertex.id ∧ g'.edges = g.edges ∧
      g'.toJson = g.toJson := by
  obtain ⟨ends, hedges, hends⟩ := h.built.exists_ends hwithin
  have hids := h.built.ids_of_verifyIntegrity hv
  have hjson := toJson_eq_numbered hids hedges hends
  rw [hjson]
  exact ⟨ofEnds provider g.size ends, ofJson_numbered provider hends,
    (ids_ofEnds provider g.size ends).trans hids.symm, hedges.symm, toJson_ofEnds provider hends⟩

def nodeKeys (nodes : List Json) : List (Option Json.Key) := nodes.mapIdx nodeKey?

def endKey? (name : String) (edge : Json) : Option Json.Key := (edge.get? name).bind Json.key?

def RenamesEnds (ρ : Json.Key → Json.Key) (edge edge' : Json) : Prop :=
  ∀ name ∈ ["source", "target"], endKey? name edge' = (endKey? name edge).map ρ

/-- Nodes and edges that are others with renamed keys. -/
structure Renames (ρ : Json.Key → Json.Key) (nodes edges nodes' edges' : List Json) : Prop where
  nodes : nodeKeys nodes' = (nodeKeys nodes).map (Option.map ρ)
  edges : List.Forall₂ (RenamesEnds ρ) edges edges'

def occurring (nodes edges : List Json) : Set Json.Key :=
  {key | some key ∈ nodeKeys nodes ∨
    ∃ edge ∈ edges, ∃ name ∈ ["source", "target"], endKey? name edge = some key}

/-- Two readings come to the same graph, or both lack a node. -/
def SameReading (r r' : Except Fault Graph) : Prop :=
  (∀ g, r = .ok g ↔ r' = .ok g) ∧
    ((∃ edge, r = .error (.unknownNode edge)) ↔ ∃ edge, r' = .error (.unknownNode edge))

theorem nodeKeys_getElem?_eq_some :
    (nodeKeys nodes)[i]? = some (some key) ↔
      ∃ node, nodes[i]? = some node ∧ nodeKey? i node = some key := by
  rw [nodeKeys, List.getElem?_mapIdx, Option.map_eq_some_iff]

theorem lastWith_iff : LastWith nodes key i ↔ (nodeKeys nodes)[i]? = some (some key) ∧
    ∀ j, i < j → (nodeKeys nodes)[j]? ≠ some (some key) := by
  simp only [ne_eq, nodeKeys_getElem?_eq_some, not_exists, not_and]
  exact ⟨fun h => ⟨h.has, fun j hj node hn => h.last j node hj hn⟩,
    fun h => ⟨h.1, fun j node hj hn => h.2 j hj node hn⟩⟩

theorem endKey?_object {members : List (String × Json)} :
    endKey? name (.object members) = some key ↔
      ∃ id, members.lookup name = some id ∧ id.key? = some key := by
  rw [endKey?, Json.get?, Option.bind_eq_some_iff]

theorem names_iff :
    Names nodes name edge i ↔ ∃ key, endKey? name edge = some key ∧ LastWith nodes key i := by
  cases edge with
  | object members =>
    simp only [names_object, endKey?_object]
    constructor
    · rintro ⟨id, key, hid, hkey, hlast⟩
      exact ⟨key, ⟨id, hid, hkey⟩, hlast⟩
    · rintro ⟨key, ⟨id, hid, hkey⟩, hlast⟩
      exact ⟨id, key, hid, hkey, hlast⟩
  | _ => simp [Names, endKey?, Json.get?]

theorem mem_occurring_of_endKey? (hedge : edge ∈ edges) (hname : name ∈ ["source", "target"])
    (h : endKey? name edge = some key) : key ∈ occurring nodes edges :=
  .inr ⟨edge, hedge, name, hname, h⟩

variable {ρ : Json.Key → Json.Key} {edge' : Json} {nodes' edges' : List Json}

/-- A key stands where its new name does. -/
theorem Renames.getElem?_iff (h : Renames ρ nodes edges nodes' edges')
    (hρ : Set.InjOn ρ (occurring nodes edges)) (hkey : key ∈ occurring nodes edges) (i : Nat) :
    (nodeKeys nodes')[i]? = some (some (ρ key)) ↔ (nodeKeys nodes)[i]? = some (some key) := by
  rw [h.nodes, List.getElem?_map]
  constructor
  · intro hat
    simp only [Option.map_eq_some_iff] at hat
    obtain ⟨_, hi, key', rfl, hρkey⟩ := hat
    have hkey' : key' ∈ occurring nodes edges := .inl (List.mem_of_getElem? hi)
    rw [hi, hρ hkey' hkey hρkey]
  · intro hat
    rw [hat, Option.map_some, Option.map_some]

theorem Renames.lastWith_iff (h : Renames ρ nodes edges nodes' edges')
    (hρ : Set.InjOn ρ (occurring nodes edges)) (hkey : key ∈ occurring nodes edges) :
    LastWith nodes' (ρ key) i ↔ LastWith nodes key i := by
  rw [Graph.lastWith_iff, Graph.lastWith_iff]
  simp only [ne_eq, h.getElem?_iff hρ hkey]

theorem Renames.names_iff (h : Renames ρ nodes edges nodes' edges')
    (hρ : Set.InjOn ρ (occurring nodes edges)) (hedge : edge ∈ edges)
    (hends : RenamesEnds ρ edge edge') (hname : name ∈ ["source", "target"]) :
    Names nodes' name edge' i ↔ Names nodes name edge i := by
  rw [Graph.names_iff, Graph.names_iff, hends name hname]
  constructor
  · rintro ⟨_, hkey', hlast⟩
    obtain ⟨key, hkey, rfl⟩ := Option.map_eq_some_iff.mp hkey'
    exact ⟨key, hkey, (h.lastWith_iff hρ (mem_occurring_of_endKey? hedge hname hkey)).mp hlast⟩
  · rintro ⟨key, hkey, hlast⟩
    exact ⟨ρ key, by rw [hkey, Option.map_some],
      (h.lastWith_iff hρ (mem_occurring_of_endKey? hedge hname hkey)).mpr hlast⟩

theorem Renames.leads_iff (h : Renames ρ nodes edges nodes' edges')
    (hρ : Set.InjOn ρ (occurring nodes edges)) (hedge : edge ∈ edges)
    (hends : RenamesEnds ρ edge edge') (ends : Nat × Nat) :
    Leads nodes' edge' ends ↔ Leads nodes edge ends :=
  and_congr (h.names_iff hρ hedge hends (by simp)) (h.names_iff hρ hedge hends (by simp))

theorem Renames.length_eq (h : Renames ρ nodes edges nodes' edges') :
    nodes'.length = nodes.length := by
  have hlength := congrArg List.length h.nodes
  simpa [nodeKeys] using hlength

/-- Renamed edges lead where they did. -/
theorem Renames.forall₂_leads_iff (h : Renames ρ nodes edges nodes' edges')
    (hρ : Set.InjOn ρ (occurring nodes edges)) (ends : List (Nat × Nat)) :
    List.Forall₂ (Leads nodes') edges' ends ↔ List.Forall₂ (Leads nodes) edges ends := by
  have hmem : List.Forall₂ (fun edge edge' => edge ∈ edges ∧ RenamesEnds ρ edge edge')
      edges edges' := (List.forall₂_and_left edges edges').mpr ⟨fun _ he => he, h.edges⟩
  have hleads : List.Forall₂ (fun edge edge' => ∀ e, Leads nodes' edge' e ↔ Leads nodes edge e)
      edges edges' := hmem.imp fun edge edge' he => h.leads_iff hρ he.1 he.2
  clear hmem h hρ
  induction hleads generalizing ends with
  | nil => simp
  | cons hiff _ ih =>
    cases ends with
    | nil => simp
    | cons e rest =>
      rw [List.forall₂_cons, List.forall₂_cons]
      exact and_congr (hiff e) (ih rest)

theorem Keys.sameReading {description' : Json} (h : Keys description nodes edges)
    (h' : Keys description' nodes' edges') (hren : Renames ρ nodes edges nodes' edges')
    (hρ : Set.InjOn ρ (occurring nodes edges)) (provider : ContentProvider) :
    SameReading (ofJson description provider) (ofJson description' provider) := by
  by_cases hends : ∃ ends, List.Forall₂ (Leads nodes) edges ends
  · obtain ⟨ends, hends⟩ := hends
    have hends' := (hren.forall₂_leads_iff hρ ends).mpr hends
    rw [h.ofJson_eq hends, h'.ofJson_eq hends', hren.length_eq]
    exact ⟨fun _ => .rfl, .rfl⟩
  -- Which edge is found to lack a node may differ, as ends are looked up one by one.
  · have hloose : ∃ edge ∈ edges, Loose nodes edge := by
      by_contra hnone
      exact hends (exists_leads h.scalars fun edge he hl => hnone ⟨edge, he, hl⟩)
    have hloose' : ∃ edge ∈ edges', Loose nodes' edge := by
      by_contra hnone
      obtain ⟨ends, hends'⟩ := exists_leads h'.scalars fun edge he hl => hnone ⟨edge, he, hl⟩
      exact hends ⟨ends, (hren.forall₂_leads_iff hρ ends).mp hends'⟩
    obtain ⟨edge, hread⟩ := (h.ofJson_eq_unknownNode_iff provider).mpr hloose
    obtain ⟨edge', hread'⟩ := (h'.ofJson_eq_unknownNode_iff provider).mpr hloose'
    rw [hread, hread']
    exact ⟨fun g => by simp, by simp⟩

/-- A description whose nodes have keys is read by them alone: it lacks a node exactly if one of
its edges is loose; else the graph that is read is described by the positions of the nodes that
the edges name. Injective renamings change nothing, and the description of a graph that a program
has made is read as that graph. -/
theorem ofJson_by_keys (provider : ContentProvider) :
    (∀ description nodes edges, Keys description nodes edges →
      ((∃ edge, ofJson description provider = .error (.unknownNode edge)) ↔
        ∃ edge ∈ edges, Loose nodes edge) ∧
      ((∀ edge ∈ edges, ¬ Loose nodes edge) → ∃ g ends,
        ofJson description provider = .ok g ∧ g.toJson = numbered nodes.length ends ∧
          List.Forall₂ (Leads nodes) edges ends)) ∧
    (∀ description nodes edges description' nodes' edges' ρ, Keys description nodes edges →
      Keys description' nodes' edges' → Renames ρ nodes edges nodes' edges' →
      Set.InjOn ρ (occurring nodes edges) →
      SameReading (ofJson description provider) (ofJson description' provider)) ∧
    (∀ g, Made g → g.verifyIntegrity = true → (∀ e ∈ g.edges, ∃ ends, e = between ends) →
      ∃ g', ofJson g.toJson provider = .ok g' ∧
        g'.vertices.map Vertex.id = g.vertices.map Vertex.id ∧ g'.edges = g.edges ∧
        g'.toJson = g.toJson) := by
  refine ⟨fun description nodes edges h => ⟨h.ofJson_eq_unknownNode_iff provider, fun hloose => ?_⟩,
    fun _ _ _ _ _ _ ρ h h' hren hρ => h.sameReading h' hren hρ provider,
    fun g h hv hwithin => h.ofJson_toJson hv hwithin provider⟩
  obtain ⟨ends, hends⟩ := exists_leads h.scalars hloose
  exact ⟨ofEnds provider nodes.length ends, ends, h.ofJson_eq hends provider,
    toJson_ofEnds provider (lt_length_of_leads hends), hends⟩

def namedNodes : List Json := [.object [("id", .str "entry")], .object []]

def namedEdges : List Json := [.object [("source", .str "entry"), ("target", .bool true)]]

/-- The same with null for the name, and a name for the other node. -/
def renamedNodes : List Json := [.object [("id", .null)], .object [("id", .str "exit")]]

def renamedEdges : List Json := [.object [("source", .null), ("target", .str "exit")]]

def otherName (key : Json.Key) : Json.Key := if key = .text "entry" then .null else .text "exit"

def describing (nodes edges : List Json) : Json :=
  .object [("nodes", .list nodes), ("edges", .list edges)]

theorem keyed_pair {a b : Json} (ha : (nodeKey? 0 a).isSome = true)
    (hb : (nodeKey? 1 b).isSome = true) : Keyed [a, b] := by
  intro i node h
  rcases i with _ | _ | i
  · cases h
    exact ha
  · cases h
    exact hb
  · cases h

theorem keys_named : Keys (describing namedNodes namedEdges) namedNodes namedEdges :=
  ⟨⟨rfl, rfl, keyed_pair rfl rfl⟩, List.forall_mem_singleton.mpr (scalars_object rfl rfl)⟩

theorem keys_renamed : Keys (describing renamedNodes renamedEdges) renamedNodes renamedEdges :=
  ⟨⟨rfl, rfl, keyed_pair rfl rfl⟩, List.forall_mem_singleton.mpr (scalars_object rfl rfl)⟩

theorem renames_named : Renames otherName namedNodes namedEdges renamedNodes renamedEdges := by
  refine ⟨rfl, .cons (fun name hname => ?_) .nil⟩
  simp only [List.mem_cons, List.not_mem_nil, or_false] at hname
  rcases hname with rfl | rfl
  · rfl
  · rfl

theorem otherName_injOn : Set.InjOn otherName (occurring namedNodes namedEdges) := by
  have hkey : ∀ key ∈ occurring namedNodes namedEdges,
      key = .text "entry" ∨ key = .number 1 := by
    rintro key (hnode | ⟨edge, hedge, name, hname, hend⟩)
    · simpa [nodeKeys, namedNodes, nodeKey?, Json.key?] using hnode
    · cases List.mem_singleton.mp hedge
      simp only [List.mem_cons, List.not_mem_nil, or_false] at hname
      rcases hname with rfl | rfl
      · exact .inl (Option.some.inj hend).symm
      · exact .inr (Option.some.inj hend).symm
  intro a ha b hb hab
  rcases hkey a ha with rfl | rfl
  · rcases hkey b hb with rfl | rfl
    · rfl
    · cases hab
  · rcases hkey b hb with rfl | rfl
    · cases hab
    · rfl

def namedGraph : Graph :=
  ((empty .nothing).addVertex.addVertex.addEdge (.inside 0) (.inside 1)).updateIdentifiers

theorem leads_named : ∀ edge ∈ namedEdges, Leads namedNodes edge (0, 1) := by
  have hsource : LastWith namedNodes (.text "entry") 0 := by
    refine ⟨⟨_, rfl, rfl⟩, fun j node hj hn => ?_⟩
    rcases j with _ | _ | j
    · omega
    · cases hn
      decide
    · cases hn
  have htarget : LastWith namedNodes (.number 1) 1 := by
    refine ⟨⟨_, rfl, rfl⟩, fun j node hj hn => ?_⟩
    rcases j with _ | _ | j
    · omega
    · omega
    · cases hn
  exact List.forall_mem_singleton.mpr ⟨names_object.mpr ⟨_, _, rfl, rfl, hsource⟩,
    names_object.mpr ⟨_, _, rfl, rfl, htarget⟩⟩

theorem made_namedGraph : Made namedGraph :=
  (((Made.empty .nothing).addVertex.addVertex).addEdge (by decide) (by decide)).updateIdentifiers

theorem named_by_keys :
    (∃ g ends, ofJson (describing namedNodes namedEdges) .nothing = .ok g ∧
      g.toJson = numbered 2 ends ∧ List.Forall₂ (Leads namedNodes) namedEdges ends) ∧
    SameReading (ofJson (describing namedNodes namedEdges) .nothing)
      (ofJson (describing renamedNodes renamedEdges) .nothing) ∧
    ∃ g', ofJson namedGraph.toJson .nothing = .ok g' ∧
      g'.vertices.map Vertex.id = namedGraph.vertices.map Vertex.id ∧
      g'.edges = namedGraph.edges ∧ g'.toJson = namedGraph.toJson := by
  obtain ⟨hread, hsame, hback⟩ := ofJson_by_keys .nothing
  refine ⟨(hread _ _ _ keys_named).2 ?_, hsame _ _ _ _ _ _ otherName keys_named keys_renamed
    renames_named otherName_injOn, hback namedGraph made_namedGraph rfl ?_⟩
  · exact fun edge he => (leads_named edge he).not_loose
  · exact List.forall_mem_singleton.mpr ⟨(0, 1), rfl⟩

end DebugDesk.Graph
