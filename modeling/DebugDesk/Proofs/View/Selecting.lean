import DebugDesk.Proofs.View.Economy

/-!
# What clicks select

A release is a click if it ends a press that was not dragged, under a camera that pans, and not too
soon after a drag. Whoever listens is told what a click selects if that changes the selection. In
the error state a click hits nothing, which is no reason to leave the selection alone: it is
cleared.
-/
namespace DebugDesk

namespace Graph

/-- A selection that changes nothing leaves the graph as it is. -/
theorem select_eq_self {g : Graph} {choice : Option Endpoint} (h : (g.select choice).2 = false) :
    (g.select choice).1 = g := by
  simp only [select, List.any_eq_false, bne_iff_ne, ne_eq, not_not] at h
  have hvertices : (g.vertices.zipIdx.map fun p =>
      { p.1 with selected := choice == some (.inside p.2) }) = g.vertices := by
    conv_rhs => rw [← List.zipIdx_map_fst 0 g.vertices]
    refine List.map_congr_left fun p hp => ?_
    simp [← h p hp]
  change { g with vertices := g.vertices.zipIdx.map fun p =>
    { p.1 with selected := choice == some (.inside p.2) } } = g
  rw [hvertices]

/-- To select nothing changes what has a selection. -/
theorem select_none_changes_iff (g : Graph) :
    (g.select none).2 = true ↔ ∃ v ∈ g.vertices, v.selected = true := by
  have hnone (v : Vertex) (i : Nat) :
      (v.selected != ((none : Option Endpoint) == some (.inside i))) = v.selected := by
    cases v.selected <;> rfl
  simp only [select, hnone, List.any_eq_true, Prod.exists]
  constructor
  · rintro ⟨v, i, hmem, hselected⟩
    exact ⟨v, List.fst_mem_of_mem_zipIdx hmem, hselected⟩
  · rintro ⟨v, hmem, hselected⟩
    obtain ⟨i, hi, rfl⟩ := List.getElem_of_mem hmem
    exact ⟨_, i, List.mem_zipIdx_iff_getElem?.mpr (by simp [hi]), hselected⟩

theorem not_selected_of_select_none {g : Graph} {v : Vertex} (h : v ∈ (g.select none).1.vertices) :
    v.selected = false := by
  obtain ⟨p, -, rfl⟩ := List.mem_map.mp h
  rfl

end Graph

theorem GraphStore.put_graph_self (gs : GraphStore) (ref : Nat) :
    gs.put ref (gs.graph ref) = gs := by
  rcases Nat.lt_or_ge ref gs.length with h | h
  · simp [put, graph, h]
  · simp [put, List.set_eq_of_length_le h]

theorem GraphStore.graph_put_of_mem {gs : GraphStore} {ref : Nat} {x : Vertex}
    (h : x ∈ (gs.graph ref).vertices) (g : Graph) : (gs.put ref g).graph ref = g := by
  rcases Nat.lt_or_ge ref gs.length with hlt | hge
  · simp [put, graph, hlt]
  · rw [graph_of_length_le hge] at h
    cases h

namespace View

section

variable {α : Type} [Scalar α] {v : View α} {gs : GraphStore}

/-- What whoever listens is told: the vertex that is selected now, if any, if that changed. -/
def Clicked.told (c : Clicked α) : List (Option Nat) := if c.changed then [c.vertex] else []

def released (v : View α) : View α := { v with camera := v.camera.pointerUp, press := none }

/-- How a release goes. -/
inductive Release (v : View α) (gs : GraphStore) (p : Point α) (time : α) : Clicked α → Prop
  | unpressed (press : v.press = none) : Release v gs p time ⟨v.released, gs, none, false⟩
  | dragged (press : v.press.isSome = true)
    (dragged : v.dragged = true ∨ v.camera.state ≠ .panning) :
    Release v gs p time
      ⟨{ v.released with dragged := false, suppressClicksUntil := time + v.clickSuppression }, gs,
        none, false⟩
  | early (press : v.press.isSome = true) (still : v.dragged = false)
    (panning : v.camera.state = .panning) (early : time < v.suppressClicksUntil) :
    Release v gs p time ⟨v.released, gs, none, false⟩
  | click (press : v.press.isSome = true) (still : v.dragged = false)
    (panning : v.camera.state = .panning) (late : ¬time < v.suppressClicksUntil) :
    Release v gs p time (v.released.selectAt gs p)

theorem release (v : View α) (gs : GraphStore) (p : Point α) (time : α) :
    Release v gs p time (v.pointerUp gs p time) := by
  unfold pointerUp
  dsimp only
  split
  next hpress => exact .unpressed (Option.isNone_iff_eq_none.mp hpress)
  next hpress =>
    have hpressed : v.press.isSome = true := by simpa [Option.isSome_iff_ne_none] using hpress
    split
    next hdragged => exact .dragged hpressed (by simpa using hdragged)
    next hstill =>
      simp only [Bool.or_eq_true, bne_iff_ne, ne_eq, not_or, Bool.not_eq_true, not_not] at hstill
      split
      next hearly => exact .early hpressed hstill.1 hstill.2 hearly
      next hlate => exact .click hpressed hstill.1 hstill.2 hlate

def Gesture.told (v : View α) (gs : GraphStore) : Gesture α → List (Option Nat)
  | pointerUp p time => (v.pointerUp gs p time).told
  | selectAt p => (v.selectAt gs p).told
  | _ => []

end

/-- What becomes of the graphs, and what is told, where all that may happen is that the selection in
the graph shown is cleared. -/
inductive Unselects (shown : Option Nat) (gs : GraphStore) : GraphStore → List (Option Nat) → Prop
  | untouched : Unselects shown gs gs []
  | cleared (ref : Nat) (graph : shown = some ref)
    (selected : ∃ x ∈ (gs.graph ref).vertices, x.selected = true) :
    Unselects shown gs (gs.put ref ((gs.graph ref).select none).1) [none]

/-- A selection that was cleared is not cleared again. -/
theorem Unselects.trans {shown : Option Nat} {gs hs ks : GraphStore}
    {told told' : List (Option Nat)} (h : Unselects shown gs hs told)
    (h' : Unselects shown hs ks told') : Unselects shown gs ks (told ++ told') := by
  cases h with
  | untouched => exact h'
  | cleared ref graph selected =>
    cases h' with
    | untouched => exact .cleared ref graph selected
    | cleared r graph' selected' =>
      obtain rfl : ref = r := Option.some.inj (graph.symm.trans graph')
      obtain ⟨y, hy, -⟩ := selected
      obtain ⟨x, hx, hselected⟩ := selected'
      rw [GraphStore.graph_put_of_mem hy] at hx
      cases hselected.symm.trans (Graph.not_selected_of_select_none hx)

section

variable {α : Type} [Scalar α] {v : View α} {gs : GraphStore}

theorem unselects_selectAt (he : v.error.isSome = true) (gs : GraphStore) (p : Point α) :
    Unselects v.graph gs (v.selectAt gs p).graphs (v.selectAt gs p).told := by
  have hnone : v.vertexAt p = none := by simp [vertexAt, he]
  unfold selectAt Clicked.told
  split
  · exact .untouched
  next ref hg =>
    dsimp only
    rw [hnone]
    split
    next hchanged => exact .cleared ref hg ((Graph.select_none_changes_iff _).mp hchanged)
    next hchanged =>
      rw [Option.map_none, Graph.select_eq_self (by simpa using hchanged),
        GraphStore.put_graph_self]
      exact .untouched

theorem Release.unselects {p : Point α} {time : α} {c : Clicked α} (h : Release v gs p time c)
    (he : v.error.isSome = true) : Unselects v.graph gs c.graphs c.told := by
  cases h with
  | click => exact unselects_selectAt (v := v.released) he gs p
  | _ => exact .untouched

end

theorem Gesture.unselects {α : Type} [RootScalar α] {v w : View α} {gs hs : GraphStore}
    {gesture : Gesture α} (h : gesture.apply v gs = .ok (w, hs)) (he : v.error.isSome = true) :
    Unselects v.graph gs hs (gesture.told v gs) := by
  cases gesture with
  | pointerUp p time =>
    cases h
    exact (v.release gs p time).unselects he
  | selectAt p =>
    cases h
    exact unselects_selectAt he gs p
  | wheel delta =>
    cases h
    exact .untouched
  | setSuppressed suppressed =>
    cases h
    exact .untouched
  | _ =>
    obtain ⟨u, -, h⟩ := Effect.bind_eq_ok h
    cases h
    exact .untouched

theorem Gesture.told_of_error {α : Type} [RootScalar α] {v : View α} {gs : GraphStore}
    {gesture : Gesture α} {fault : Fault} (h : gesture.apply v gs = .error fault) :
    gesture.told v gs = [] := by
  cases gesture with
  | pointerUp p time => cases h
  | selectAt p => cases h
  | _ => rfl

namespace Ledger

variable {α : Type} [RootScalar α] {s : Ledger α}

def told (s : Ledger α) : Deed α → List (Option Nat)
  | .happens (.gesture gesture) => gesture.told s.view s.graphs
  | _ => []

def toldAll : Ledger α → List (Deed α) → List (Option Nat)
  | _, [] => []
  | s, deed :: deeds => s.told deed ++ (s.step deed).toldAll deeds

theorem step_gesture {w : View α} {hs : GraphStore} {gesture : Gesture α}
    (h : gesture.apply s.view s.graphs = .ok (w, hs)) :
    s.step (.happens (.gesture gesture)) = s.moved w hs := by
  have hstage : (s.stage none).step (.gesture gesture) = ⟨w, hs, none, none⟩ := by
    unfold Stage.step stage
    dsimp only
    rw [h]
  change s.moved ((s.stage none).step (.gesture gesture)).view _ = _
  rw [hstage]

/-- A gesture that fails changes nothing. -/
theorem step_gesture_error {fault : Fault} {gesture : Gesture α}
    (h : gesture.apply s.view s.graphs = .error fault) :
    s.step (.happens (.gesture gesture)) = s := by
  have hstage : (s.stage none).step (.gesture gesture) = s.stage none := by
    unfold Stage.step stage
    dsimp only
    rw [h]
  change s.moved ((s.stage none).step (.gesture gesture)).view
    ((s.stage none).step (.gesture gesture)).graphs = _
  rw [hstage]
  unfold moved stage
  rw [if_pos rfl]

/-- In the error state a gesture leaves that state, and selects nothing. -/
theorem unselects_step (he : s.view.error.isSome = true) (gesture : Gesture α) :
    let t := s.step (.happens (.gesture gesture))
    t.view.error = s.view.error ∧ t.view.graph = s.view.graph ∧
      Unselects s.view.graph s.graphs t.graphs (s.told (.happens (.gesture gesture))) := by
  rcases h : gesture.apply s.view s.graphs with fault | ⟨w, hs⟩
  · rw [step_gesture_error h]
    refine ⟨rfl, rfl, ?_⟩
    rw [told, Gesture.told_of_error h]
    exact .untouched
  · rw [step_gesture h]
    have halike := (Gesture.touched h).toAlike
    exact ⟨halike.error, halike.graph, Gesture.unselects h he⟩

/-- Gestures never end the error state. While it lasts they select nothing: where no vertex of the
graph shown is selected they change no graph and nobody is told anything, and where one is, all that
they may do is to clear that selection, once, and whoever listens is told that nothing is selected.
-/
theorem run_unselects (he : s.view.error.isSome = true) (gestures : List (Gesture α)) :
    let deeds := gestures.map fun gesture => Deed.happens (.gesture gesture)
    let t := s.run deeds
    t.view.error = s.view.error ∧
      Unselects s.view.graph s.graphs t.graphs (s.toldAll deeds) ∧
      ((∀ ref, s.view.graph = some ref → ∀ x ∈ (s.graphs.graph ref).vertices,
        x.selected = false) → t.graphs = s.graphs ∧ s.toldAll deeds = []) := by
  intro deeds t
  have hrun : t.view.error = s.view.error ∧
      Unselects s.view.graph s.graphs t.graphs (s.toldAll deeds) := by
    subst deeds t
    -- No gesture ends the error or shows another graph, so whatever follows may at most clear the
    -- selection of the same graph.
    induction gestures generalizing s with
    | nil => exact ⟨rfl, .untouched⟩
    | cons gesture gestures ih =>
      obtain ⟨herror, hgraph, hfirst⟩ := unselects_step he gesture
      obtain ⟨herror', hrest⟩ := ih (herror ▸ he)
      rw [hgraph] at hrest
      exact ⟨herror'.trans herror, hfirst.trans hrest⟩
  refine ⟨hrun.1, hrun.2, fun hnone => ?_⟩
  generalize t.graphs = hs, s.toldAll deeds = told at hrun ⊢
  cases hrun.2 with
  | untouched => exact ⟨rfl, rfl⟩
  | cleared ref graph selected =>
    obtain ⟨x, hx, hselected⟩ := selected
    cases hselected.symm.trans (hnone ref graph x hx)

/-- A graph of one vertex is shown, the vertex is selected, and another one has no identifier yet.
-/
def refusing (choice : Option Endpoint) : List (Deed Float) :=
  [.happens (.create .nothing), .happens (.alter 0 .addVertex), .happens (.setGraph (some 0)),
    .select 0 choice, .happens (.alter 0 .addVertex),
    .happens (.update Stage.piling RecordingSurface.measure)]

def refused (choice : Option Endpoint) : Ledger Float :=
  (start Stage.opened .standard standardDragThreshold standardClickSuppression).run
    (refusing choice)

def tap : List (Gesture Float) := [.pointerDown ⟨9.0, 9.0⟩, .pointerUp ⟨9.0, 9.0⟩ 100.0]

theorem refused_unselects : (refused none).view.error.isSome = true ∧
    ((refused none).run (tap.map fun gesture => .happens (.gesture gesture))).graphs =
      (refused none).graphs ∧
    (refused none).toldAll (tap.map fun gesture => .happens (.gesture gesture)) = [] := by
  have herror : (refused none).view.error.isSome = true := rfl
  obtain ⟨-, -, hnone⟩ := run_unselects herror tap
  refine ⟨herror, hnone fun ref hg => ?_⟩
  obtain rfl : 0 = ref := Option.some.inj hg
  decide

/-- In the error state, a click clears the selection, and that is told. -/
theorem refused_click_clears :
    (refused (some (.inside 0))).view.error.isSome = true ∧
    ((refused (some (.inside 0))).graphs.graph 0).vertices.map Vertex.selected = [true, false] ∧
    (((refused (some (.inside 0))).run
      (tap.map fun gesture => .happens (.gesture gesture))).graphs.graph 0).vertices.map
        Vertex.selected = [false, false] ∧
    (refused (some (.inside 0))).toldAll (tap.map fun gesture => .happens (.gesture gesture)) =
      [none] :=
  ⟨rfl, by decide, by decide, by decide⟩

end Ledger

end View

end DebugDesk
