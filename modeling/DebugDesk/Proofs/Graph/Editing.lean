import DebugDesk.Proofs.Graph.Numbering
import Mathlib.Data.Set.Subsingleton

/-!
# Graphs as they are edited

Vertices and edges are added, the vertices are numbered, and one of them is selected, in any order.
The identifiers are always the positions up to the number of vertices there were at the last
numbering, and at most one vertex is selected.
-/
namespace DebugDesk.Graph

inductive Edit where
  | addVertex
  | addEdge (source target : Endpoint)
  | number
  | select (choice : Option Endpoint)

def edit (g : Graph) : Edit → Graph
  | .addVertex => g.addVertex
  | .addEdge source target => g.addEdge source target
  | .number => g.updateIdentifiers
  | .select choice => (g.select choice).1

def edits (g : Graph) (es : List Edit) : Graph := es.foldl edit g

/-- How many vertices are numbered after an edit, if so many were before. -/
def countAfter (g : Graph) (k : Nat) : Edit → Nat
  | .number => g.size
  | _ => k

/-- How many vertices there were at the last numbering; without one it is the number given. -/
def lastCount (g : Graph) (k : Nat) : List Edit → Nat
  | [] => k
  | e :: es => lastCount (g.edit e) (g.countAfter k e) es

variable {g : Graph} {k : Nat}

/-- The first vertices have their positions as identifiers, and the others have none. -/
structure NumberedTo (g : Graph) (k : Nat) : Prop where
  le : k ≤ g.size
  ids : g.vertices.map Vertex.id =
    (List.range k).map Int.ofNat ++ List.replicate (g.size - k) unassigned

theorem numberedTo_empty (provider : ContentProvider) : (empty provider).NumberedTo 0 :=
  ⟨Nat.zero_le _, rfl⟩

theorem NumberedTo.edit (h : g.NumberedTo k) (e : Edit) :
    (g.edit e).NumberedTo (g.countAfter k e) := by
  cases e with
  | addVertex =>
    have hsize : g.addVertex.size = g.size + 1 := by simp [size, addVertex]
    have hle := h.le
    refine ⟨hsize ▸ Nat.le_succ_of_le h.le, ?_⟩
    change g.addVertex.vertices.map Vertex.id = _ ++ List.replicate (g.addVertex.size - k) _
    rw [hsize, show g.size + 1 - k = (g.size - k) + 1 by omega, List.replicate_succ',
      ← List.append_assoc]
    exact List.map_append.trans (congrArg (· ++ [unassigned]) h.ids)
  | addEdge source target => exact ⟨h.le, h.ids⟩
  | number =>
    have hsize : g.updateIdentifiers.size = g.size := size_updateIdentifiers g
    refine ⟨hsize.ge, ?_⟩
    change g.updateIdentifiers.vertices.map Vertex.id =
      _ ++ List.replicate (g.updateIdentifiers.size - g.size) _
    rw [hsize, Nat.sub_self, List.replicate_zero, List.append_nil]
    exact ids_updateIdentifiers g
  | select choice =>
    refine ⟨(size_select g choice).symm ▸ h.le, ?_⟩
    change (g.select choice).1.vertices.map Vertex.id =
      _ ++ List.replicate ((g.select choice).1.size - k) _
    rw [ids_select, size_select]
    exact h.ids

theorem NumberedTo.edits (h : g.NumberedTo k) (es : List Edit) :
    (g.edits es).NumberedTo (g.lastCount k es) := by
  induction es generalizing g k with
  | nil => exact h
  | cons e es ih => exact ih (h.edit e)

theorem NumberedTo.verifyIntegrity_iff (h : g.NumberedTo k) :
    g.verifyIntegrity = true ↔ k = g.size := by
  have hrange : unassigned ∉ (List.range k).map Int.ofNat := by simp [unassigned]
  have hle := h.le
  rw [Graph.verifyIntegrity_iff, h.ids, List.mem_append, List.mem_replicate]
  simp only [hrange, false_or, and_true, not_not]
  omega

/-- The vertex at a position has it as identifier if it was numbered, and none otherwise. -/
theorem NumberedTo.id_eq (h : g.NumberedTo k) {i : Nat} (hi : i < g.vertices.length) :
    g.vertices[i].id = if i < k then (i : Int) else unassigned := by
  have hid : (g.vertices.map Vertex.id)[i]? = some g.vertices[i].id := by
    rw [List.getElem?_map, List.getElem?_eq_getElem hi, Option.map_some]
  rw [h.ids, List.getElem?_append] at hid
  simp only [List.length_map, List.length_range, List.getElem?_map, List.getElem?_replicate] at hid
  split
  next hk => simpa [hk] using hid.symm
  next hk =>
    have hsize : i < g.size := hi
    rw [if_neg hk, if_pos (by omega)] at hid
    exact (Option.some.inj hid).symm

theorem NumberedTo.id_eq_iff (h : g.NumberedTo k) {i n : Nat}
    (hi : i < g.vertices.length) : g.vertices[i].id = n ↔ i = n ∧ i < k := by
  rw [h.id_eq hi]
  split
  · omega
  · simp only [unassigned]
    omega

/-- To look at the position of an identifier first finds what a scan finds. -/
theorem NumberedTo.getVertex_eq (h : g.NumberedTo k) (n : Nat) :
    g.getVertex n = g.vertices.findIdx? (·.id == (n : Int)) := by
  rw [getVertex, Int.toNat_natCast]
  split
  next hfast =>
    obtain ⟨v, hv, hid⟩ := Option.map_eq_some_iff.mp hfast.2
    obtain ⟨hn, rfl⟩ := List.getElem?_eq_some_iff.mp hv
    refine (List.findIdx?_eq_some_iff_getElem.mpr ⟨hn, by simpa using hid, fun j hj => ?_⟩).symm
    rw [beq_iff_eq, h.id_eq_iff (Nat.lt_trans hj hn)]
    omega
  next => rfl

def selection (g : Graph) : Set Nat := {i | ∃ v, g.vertices[i]? = some v ∧ v.selected = true}

theorem selection_addVertex (g : Graph) : g.addVertex.selection = g.selection := by
  ext i
  simp only [selection, Set.mem_ofPred_eq, addVertex, List.getElem?_append]
  split
  next => rfl
  next hi =>
    have hnone : g.vertices[i]? = none := List.getElem?_eq_none (Nat.le_of_not_lt hi)
    simp only [hnone, List.getElem?_singleton]
    split <;> simp

theorem selection_updateIdentifiers (g : Graph) :
    g.updateIdentifiers.selection = g.selection := by
  ext i
  simp [selection, updateIdentifiers, List.getElem?_map, List.getElem?_zipIdx]

theorem getElem?_select (g : Graph) (choice : Option Endpoint) (i : Nat) :
    (g.select choice).1.vertices[i]? = g.vertices[i]?.map fun v =>
      { v with selected := choice == some (.inside i) } := by
  simp [select, List.getElem?_map, List.getElem?_zipIdx, Function.comp_def]

/-- What is selected is the choice, if it is a vertex of the graph. -/
theorem selection_select (g : Graph) (choice : Option Endpoint) :
    (g.select choice).1.selection = {i | choice = some (.inside i) ∧ i < g.size} := by
  ext i
  simp only [selection, Set.mem_ofPred_eq, getElem?_select, Option.map_eq_some_iff]
  constructor
  · rintro ⟨_, ⟨v, hv, rfl⟩, hchoice⟩
    exact ⟨beq_iff_eq.mp hchoice, (List.getElem?_eq_some_iff.mp hv).1⟩
  · rintro ⟨rfl, hi⟩
    exact ⟨_, ⟨_, List.getElem?_eq_getElem hi, rfl⟩, beq_self_eq_true _⟩

theorem subsingleton_edit (h : g.selection.Subsingleton) (e : Edit) :
    (g.edit e).selection.Subsingleton := by
  cases e with
  | addVertex => exact (selection_addVertex g).symm ▸ h
  | addEdge source target => exact h
  | number => exact (selection_updateIdentifiers g).symm ▸ h
  | select choice =>
    change (g.select choice).1.selection.Subsingleton
    rw [selection_select]
    rintro i ⟨hi, -⟩ j ⟨hj, -⟩
    exact Endpoint.inside.inj (Option.some.inj (hi.symm.trans hj))

theorem subsingleton_edits (h : g.selection.Subsingleton) (es : List Edit) :
    (g.edits es).selection.Subsingleton := by
  induction es generalizing g with
  | nil => exact h
  | cons e es ih => exact ih (subsingleton_edit h e)

/-- The first selected vertex is the one that is selected. -/
theorem selected?_eq_some_iff (h : g.selection.Subsingleton) (i : Nat) :
    g.selected? = some i ↔ i ∈ g.selection := by
  have hmem {j : Nat} (hj : j < g.size) (hs : g.vertices[j].selected = true) : j ∈ g.selection :=
    ⟨_, List.getElem?_eq_getElem hj, hs⟩
  rw [selected?, List.findIdx?_eq_some_iff_getElem]
  constructor
  · rintro ⟨hi, hs, -⟩
    exact hmem hi hs
  · rintro hi
    obtain ⟨v, hv, hs⟩ := hi
    obtain ⟨hlt, rfl⟩ := List.getElem?_eq_some_iff.mp hv
    refine ⟨hlt, hs, fun j hj hjs => ?_⟩
    exact Nat.ne_of_lt hj (h (hmem (Nat.lt_trans hj hlt) hjs) (hmem hlt hs))

/-- A selection is no change if every vertex is as it shall be. -/
theorem select_eq_false_iff (g : Graph) (choice : Option Endpoint) :
    (g.select choice).2 = false ↔
      ∀ i v, g.vertices[i]? = some v → v.selected = (choice == some (.inside i)) := by
  simp only [select, List.any_eq_false, bne_iff_ne, ne_eq, not_not, Prod.forall,
    List.mem_zipIdx_iff_getElem?]
  exact forall_comm

theorem select_changes_iff (g : Graph) (choice : Option Endpoint) :
    (g.select choice).2 = true ↔ (g.select choice).1.selection ≠ g.selection := by
  have hsame : (g.select choice).2 = false ↔ (g.select choice).1.selection = g.selection := by
    rw [select_eq_false_iff, Set.ext_iff]
    refine forall_congr' fun i => ?_
    simp only [selection, Set.mem_ofPred_eq, getElem?_select]
    rcases g.vertices[i]? with _ | v
    · simp
    · cases hv : v.selected <;> cases hc : choice == some (.inside i) <;> simp [hv]
  rw [← Bool.not_eq_false, hsame]

/-- However a graph was edited, the identifiers are the positions up to the number of vertices at
the last numbering and none from there on, integrity tells whether all are numbered, and a look-up
by identifier finds what a scan finds. At most one vertex is selected, and a selection selects the
vertex chosen if the graph has it, else nothing, and tells whether that is a change. -/
theorem edited_accounts (provider : ContentProvider) (es : List Edit) :
    let g := (empty provider).edits es
    let k := (empty provider).lastCount 0 es
    (k ≤ g.size ∧ g.vertices.map Vertex.id =
      (List.range k).map Int.ofNat ++ List.replicate (g.size - k) unassigned) ∧
    (g.verifyIntegrity = true ↔ k = g.size) ∧
    (∀ n : Nat, g.getVertex n = g.vertices.findIdx? (·.id == (n : Int))) ∧
    g.selection.Subsingleton ∧ (∀ i, g.selected? = some i ↔ i ∈ g.selection) ∧
    ∀ choice, (g.select choice).1.selection = {i | choice = some (.inside i) ∧ i < g.size} ∧
      ((g.select choice).2 = true ↔ (g.select choice).1.selection ≠ g.selection) := by
  intro g k
  have hnumbered : g.NumberedTo k := (numberedTo_empty provider).edits es
  have hfresh : (empty provider).selection.Subsingleton := by
    rintro i ⟨v, hv, -⟩
    cases hv
  have hone : g.selection.Subsingleton := subsingleton_edits hfresh es
  exact ⟨⟨hnumbered.le, hnumbered.ids⟩, hnumbered.verifyIntegrity_iff, hnumbered.getVertex_eq, hone,
    selected?_eq_some_iff hone,
    fun choice => ⟨selection_select g choice, select_changes_iff g choice⟩⟩

end DebugDesk.Graph
