import DebugDesk.Graph.Basic

/-!
# Graphs as they are built

Vertices are numbered all at once, and those that are added have no identifier, so the identifiers
are the positions up to some place, and none from there on.
-/
namespace DebugDesk.Graph

variable {g : Graph}

/-- A graph that was made by adding vertices and edges and by numbering. -/
structure Built (g : Graph) : Prop where
  ids : ∃ n fresh, g.vertices.map Vertex.id =
    (List.range n).map Int.ofNat ++ List.replicate fresh unassigned
  ends : ∀ e ∈ g.edges, ∀ i, e.source = .inside i ∨ e.target = .inside i → i < g.size

def HasEnd (g : Graph) : Endpoint → Prop
  | .inside i => i < g.size
  | .outside .. => True

instance (g : Graph) : (e : Endpoint) → Decidable (g.HasEnd e)
  | .inside i => inferInstanceAs (Decidable (i < g.size))
  | .outside .. => inferInstanceAs (Decidable True)

theorem built_empty (provider : ContentProvider) : (empty provider).Built :=
  ⟨⟨0, 0, rfl⟩, nofun⟩

theorem Built.addVertex (h : g.Built) : g.addVertex.Built := by
  obtain ⟨n, fresh, hids⟩ := h.ids
  constructor
  · refine ⟨n, fresh + 1, ?_⟩
    simp only [Graph.addVertex, List.map_append, hids, List.replicate_succ', List.append_assoc]
    rfl
  · intro e he i hi
    have := h.ends e he i hi
    simp only [size, Graph.addVertex, List.length_append, List.length_singleton] at this ⊢
    omega

theorem Built.addEdge (h : g.Built) {source target : Endpoint} (hs : g.HasEnd source)
    (ht : g.HasEnd target) : (g.addEdge source target).Built := by
  refine ⟨h.ids, ?_⟩
  intro e he i hi
  rcases List.mem_append.mp he with he | he
  · exact h.ends e he i hi
  · obtain rfl : e = ⟨source, target⟩ := by simpa using he
    rcases hi with rfl | rfl
    · exact hs
    · exact ht

theorem size_updateIdentifiers (g : Graph) : g.updateIdentifiers.size = g.size := by
  simp [size, updateIdentifiers]

theorem ids_updateIdentifiers (g : Graph) :
    g.updateIdentifiers.vertices.map Vertex.id = (List.range g.size).map Int.ofNat := by
  have h : g.updateIdentifiers.vertices.map Vertex.id =
      (g.vertices.zipIdx.map Prod.snd).map Int.ofNat := by
    simp only [updateIdentifiers, List.map_map]
    rfl
  rw [h, List.zipIdx_map_snd, ← List.range_eq_range', size]

def Numbered (g : Graph) : Prop := g.vertices.map Vertex.id = (List.range g.size).map Int.ofNat

theorem idOf_congr {h : Graph} (hids : h.vertices.map Vertex.id = g.vertices.map Vertex.id)
    (i : Nat) : h.idOf (.inside i) = g.idOf (.inside i) := by
  simp only [idOf, ← List.getElem?_map, hids]

theorem lt_of_idOf_eq {i : Nat} (h : g.idOf (.inside i) = i) : i < g.size := by
  refine Nat.lt_of_not_le fun hi => ?_
  rw [idOf, List.getElem?_eq_none hi, Option.map_none, Option.getD_none, unassigned] at h
  omega

theorem idOf_inside (hids : g.vertices.map Vertex.id = (List.range g.size).map Int.ofNat)
    {i : Nat} (hi : i < g.size) : g.idOf (.inside i) = i := by
  have hid := congrArg (·[i]?) hids
  simp only [List.getElem?_map, List.getElem?_range hi, Option.map_some] at hid
  rw [idOf, hid, Option.getD_some, Int.ofNat_eq_natCast]

theorem Numbered.id_eq (h : g.Numbered) {vertex : Vertex} {i : Nat}
    (hmem : (vertex, i) ∈ g.vertices.zipIdx) : vertex.id = i := by
  have hvertex : g.vertices[i]? = some vertex := List.mem_zipIdx_iff_getElem?.mp hmem
  have hi : i < g.size := (List.getElem?_eq_some_iff.mp hvertex).1
  have hid := idOf_inside h hi
  rwa [idOf, hvertex] at hid

/-- Vertices that are numbered by position stay as they are. -/
theorem updateIdentifiers_eq_self
    (h : g.vertices.map Vertex.id = (List.range g.size).map Int.ofNat) :
    g.updateIdentifiers = g := by
  have hvertices :
      (g.vertices.zipIdx.map fun x => { x.1 with id := (x.2 : Int) }) = g.vertices := by
    refine List.ext_getElem (by simp) fun i hi hi' => ?_
    have hid := congrArg (·[i]?) h
    have hid : g.vertices[i].id = i := by simpa [hi', Graph.size] using hid
    simp [← hid]
  change { g with vertices := g.vertices.zipIdx.map fun x => { x.1 with id := (x.2 : Int) } } = g
  rw [hvertices]

theorem verifyIntegrity_iff (g : Graph) :
    g.verifyIntegrity = true ↔ unassigned ∉ g.vertices.map Vertex.id := by
  simp [verifyIntegrity, List.all_eq_true]

theorem verifyIntegrity_updateIdentifiers (g : Graph) :
    g.updateIdentifiers.verifyIntegrity = true := by
  rw [verifyIntegrity_iff, ids_updateIdentifiers]
  simp [unassigned]

theorem Built.updateIdentifiers (h : g.Built) : g.updateIdentifiers.Built := by
  refine ⟨⟨g.size, 0, ?_⟩, ?_⟩
  · rw [ids_updateIdentifiers]
    simp
  · rw [size_updateIdentifiers]
    exact h.ends

theorem size_select (g : Graph) (choice : Option Endpoint) : (g.select choice).1.size = g.size := by
  simp [size, select]

theorem ids_select (g : Graph) (choice : Option Endpoint) :
    (g.select choice).1.vertices.map Vertex.id = g.vertices.map Vertex.id := by
  have h : (g.select choice).1.vertices.map Vertex.id =
      (g.vertices.zipIdx.map Prod.fst).map Vertex.id := by
    simp only [select, List.map_map]
    rfl
  rw [h, List.zipIdx_map_fst]

theorem Built.select (h : g.Built) (choice : Option Endpoint) : (g.select choice).1.Built := by
  constructor
  · rw [ids_select]
    exact h.ids
  · rw [size_select]
    exact h.ends

/-- A graph all of whose vertices have identifiers is numbered by position. -/
theorem Built.ids_of_verifyIntegrity (h : g.Built) (hv : g.verifyIntegrity = true) :
    g.vertices.map Vertex.id = (List.range g.size).map Int.ofNat := by
  obtain ⟨n, fresh, hids⟩ := h.ids
  have hassigned := g.verifyIntegrity_iff.mp hv
  have hfresh : fresh = 0 := by
    rcases fresh with _ | fresh
    · rfl
    · exact absurd (hids ▸ List.mem_append_right _ (by simp)) hassigned
  subst hfresh
  have hsize : g.size = n := by
    have hlength := congrArg List.length hids
    simpa [size] using hlength
  rw [hids, hsize]
  simp

end DebugDesk.Graph
