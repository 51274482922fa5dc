import Mathlib.Data.List.Forall2
import DebugDesk.Effect
import DebugDesk.Proofs.Graph.Numbering
import DebugDesk.Proofs.Layout.Parts
import DebugDesk.Proofs.View.Cameras
import DebugDesk.View.Pipeline

/-!
# What a frame prepares and draws

A frame leaves a view as it is, enters the error state, or draws a layout: the one that is kept, or
a new one. A layout of a numbered graph whose edges are its own can be drawn: each vertex has a box,
each end of an edge a drawing, and no step fails.
-/
namespace DebugDesk

/-- A list on all of whose members a function succeeds is mapped, and the keys follow. -/
theorem mapM_ok {β γ κ : Type} {f : β → Except Fault γ} {j : β → κ} {k : γ → κ} {xs : List β}
    (h : ∀ x ∈ xs, ∃ y, f x = .ok y ∧ k y = j x) :
    ∃ ys, xs.mapM f = .ok ys ∧ ys.map k = xs.map j := by
  induction xs with
  | nil => exact ⟨[], rfl, rfl⟩
  | cons x xs ih =>
    obtain ⟨y, hy, hkey⟩ := h x (by simp)
    obtain ⟨ys, hys, hkeys⟩ := ih fun z hz => h z (by simp [hz])
    refine ⟨y :: ys, ?_, by simp [hkey, hkeys]⟩
    simp only [List.mapM_cons, hy, hys]
    rfl

/-- What a list is mapped to comes from its members. -/
theorem mem_of_mapM_ok {β γ : Type} {f : β → Except Fault γ} {xs : List β} {ys : List γ}
    (h : xs.mapM f = .ok ys) {y : γ} (hy : y ∈ ys) : ∃ x ∈ xs, f x = .ok y := by
  induction xs generalizing ys with
  | nil =>
    cases h
    cases hy
  | cons x xs ih =>
    rw [List.mapM_cons] at h
    obtain ⟨z, hz, h⟩ := Effect.bind_eq_ok h
    obtain ⟨zs, hzs, h⟩ := Effect.bind_eq_ok h
    cases h
    rcases List.mem_cons.mp hy with rfl | hy
    · exact ⟨x, List.mem_cons_self, hz⟩
    · obtain ⟨w, hw, heq⟩ := ih hzs hy
      exact ⟨w, List.mem_cons_of_mem x hw, heq⟩

theorem exists_of_forall₂ {β γ : Type} {R : β → γ → Prop} {xs : List β} {ys : List γ}
    (h : List.Forall₂ R xs ys) {y : γ} (hy : y ∈ ys) : ∃ x ∈ xs, R x y := by
  induction h with
  | nil => cases hy
  | @cons x z xs ys first _ ih =>
    rcases List.mem_cons.mp hy with rfl | hy
    · exact ⟨x, List.mem_cons_self, first⟩
    · obtain ⟨w, hw, hrelated⟩ := ih hy
      exact ⟨w, List.mem_cons_of_mem x hw, hrelated⟩

/-- Whether a layout has a box for each of so many positions, and no other. -/
def Layout.Covers {α : Type} (l : Layout α) (n : Nat) : Prop :=
  (l.boxes.map Prod.fst).Perm ((List.range n).map Int.ofNat)

theorem Layout.Covers.size {α : Type} {l : Layout α} {n : Nat} (h : l.Covers n) : l.size = n := by
  have hlength := h.length_eq
  simpa [Layout.size] using hlength

theorem Layout.Covers.isSome_box?_iff {α : Type} {l : Layout α} {n : Nat} (h : l.Covers n)
    (id : Int) : (l.box? id).isSome ↔ 0 ≤ id ∧ id < n := by
  have hmem : (l.box? id).isSome ↔ id ∈ l.boxes.map Prod.fst := by
    rw [Layout.box?, List.lookup_isSome_iff, List.mem_map]
    constructor
    · rintro ⟨p, hp, hid⟩
      exact ⟨p, hp, (beq_iff_eq.mp hid).symm⟩
    · rintro ⟨p, hp, hid⟩
      exact ⟨p, hp, beq_iff_eq.mpr hid.symm⟩
  rw [hmem, h.mem_iff, List.mem_map]
  constructor
  · rintro ⟨i, hi, rfl⟩
    have := List.mem_range.mp hi
    simp only [Int.ofNat_eq_natCast]
    omega
  · rintro ⟨h₀, hn⟩
    exact ⟨id.toNat, List.mem_range.mpr (by omega), Int.toNat_of_nonneg h₀⟩

namespace VertexBoxes

variable {α : Type} [Scalar α] {b c d : VertexBoxes α}

def Keeps (b c : VertexBoxes α) : Prop :=
  ∀ i known, b.measured.lookup i = some known → c.measured.lookup i = some known

omit [Scalar α] in
theorem Keeps.refl (b : VertexBoxes α) : b.Keeps b := fun _ _ h => h

omit [Scalar α] in
theorem Keeps.trans (h : b.Keeps c) (h' : c.Keeps d) : b.Keeps d :=
  fun i known hb => h' i known (h i known hb)

variable (measure : Measure Id α) (style : VertexStyle α)

/-- What is measured of a vertex is known from then on. -/
theorem metrics_known (b : VertexBoxes α) (i : Nat) (vertex : Vertex) :
    let r := metrics (m := Id) measure style b i vertex
    b.Keeps r.2 ∧ r.2.measured.lookup i = some r.1 ∧ r.2.drawings = b.drawings := by
  unfold metrics
  split
  next known hknown => exact ⟨.refl b, hknown, rfl⟩
  next hunknown =>
    refine ⟨fun j known hj => ?_, List.lookup_cons_self, rfl⟩
    have hother : j ≠ i := by
      rintro rfl
      cases hunknown.symm.trans hj
    change List.lookup j ((i, _) :: b.measured) = some known
    rw [List.lookup_cons, beq_eq_false_iff_ne.mpr hother]
    exact hj

def Draws (b : VertexBoxes α) (p : Placed α) (d : VertexDrawing α) : Prop :=
  ∃ known, b.measured.lookup p.index = some known ∧
    drawingOf (m := Id) measure style known p.index p.vertex p.x p.y = d

theorem Draws.vertex {measure : Measure Id α} {style : VertexStyle α} {p : Placed α}
    {d : VertexDrawing α} (h : Draws measure style b p d) : d.vertex = p.index := by
  obtain ⟨known, -, rfl⟩ := h
  rfl

/-- Placed vertices are drawn one by one, by what is known of them then. -/
theorem draws_placeAll (b : VertexBoxes α) (placed : List (Placed α)) :
    let c := placeAll (m := Id) measure style b placed
    b.Keeps c ∧ List.Forall₂ (Draws measure style c) placed c.drawings := by
  have hfold (b : VertexBoxes α) : ∃ drawings,
      let c := placed.foldlM (m := Id) (fun b p => do
        let r ← b.metrics measure style p.index p.vertex
        let d ← drawingOf measure style r.1 p.index p.vertex p.x p.y
        return { r.2 with drawings := r.2.drawings ++ [d] }) b
      b.Keeps c ∧ c.drawings = b.drawings ++ drawings ∧
        List.Forall₂ (Draws measure style c) placed drawings := by
    induction placed generalizing b with
    | nil => exact ⟨[], .refl b, (List.append_nil _).symm, .nil⟩
    | cons p placed ih =>
      obtain ⟨hkeeps, hknown, hsame⟩ := metrics_known measure style b p.index p.vertex
      generalize hr : metrics (m := Id) measure style b p.index p.vertex = r at *
      let d : VertexDrawing α :=
        drawingOf (m := Id) measure style r.1 p.index p.vertex p.x p.y
      obtain ⟨drawings, hkeeps', hdrawings, hdraws⟩ :=
        ih { r.2 with drawings := r.2.drawings ++ [d] }
      refine ⟨d :: drawings, ?_⟩
      rw [List.foldlM_cons]
      simp only [hr]
      refine ⟨hkeeps.trans hkeeps', ?_, .cons ⟨r.1, hkeeps' _ _ hknown, rfl⟩ hdraws⟩
      rw [← hsame, ← List.singleton_append, ← List.append_assoc]
      exact hdrawings
  obtain ⟨drawings, hkeeps, hdrawings, hdraws⟩ := hfold { b with drawings := [] }
  exact ⟨hkeeps, hdrawings ▸ hdraws⟩

omit [Scalar α] in
theorem mem_of_find? {i : Nat} {d : VertexDrawing α} (h : b.find? i = some d) : d ∈ b.drawings :=
  List.mem_of_find?_eq_some h

omit [Scalar α] in
theorem find?_of_mem {i : Nat} (h : i ∈ b.drawings.map VertexDrawing.vertex) :
    ∃ d, b.find? i = some d ∧ d ∈ b.drawings ∧ d.vertex = i := by
  have hsome : (b.find? i).isSome := by
    obtain ⟨d, hd, hi⟩ := List.mem_map.mp h
    rw [find?, List.find?_isSome]
    exact ⟨d, hd, by simp [hi]⟩
  obtain ⟨d, hfind⟩ := Option.isSome_iff_exists.mp hsome
  exact ⟨d, hfind, mem_of_find? hfind, by simpa using List.find?_some hfind⟩

end VertexBoxes

namespace View

variable {α : Type} [Scalar α] {v : View α} {gs : GraphStore} {g : Graph} {l : Layout α}

omit [Scalar α] in
@[simp] theorem outcome_lift {β : Type} (x : Id β) (v : View α) :
    Effect.outcome (Frame.lift x : Frame Id α β) v = (.ok x, v) := rfl

def drawn (measure : Measure Id α) (v : View α) (placed : List (VertexBoxes.Placed α)) :
    VertexBoxes α :=
  VertexBoxes.placeAll (m := Id) measure v.style.vertex v.boxes placed

theorem outcome_draw_unplaced {measure : Measure Id α} {fault : Fault}
    (hp : placements g l = .error fault) :
    Effect.outcome (draw measure gs g l) v = (.error fault, { v with layout := some l }) := by
  simp only [draw, Effect.outcome_bind, Effect.outcome_modify, Effect.outcome_ofThrown, hp]

theorem outcome_draw_error {measure : Measure Id α} {placed : List (VertexBoxes.Placed α)}
    {fault : Fault} (hp : placements g l = .ok placed)
    (he : edgePlacements g (drawn measure v placed) = .error fault) :
    Effect.outcome (draw measure gs g l) v =
      (.error fault, { v with layout := some l, boxes := drawn measure v placed }) := by
  unfold drawn at he ⊢
  simp only [draw, Effect.outcome_bind, Effect.outcome_modify, Effect.outcome_ofThrown,
    Effect.outcome_get, outcome_lift, Effect.outcome_set, hp, he]

theorem outcome_draw_ok {measure : Measure Id α} {placed : List (VertexBoxes.Placed α)}
    {ends : List (EdgePlacement α)} (hp : placements g l = .ok placed)
    (he : edgePlacements g (drawn measure v placed) = .ok ends) :
    Effect.outcome (draw measure gs g l) v =
      let w : View α := { v with layout := some l, boxes := drawn measure v placed }.shown
        (.ofPlacements ends)
      if v.recenterPending then
        let w := { w with recenterPending := false }
        match w.recenter gs with
        | .error fault => (.error fault, w)
        | .ok w => (.ok (), w)
      else (.ok (), w) := by
  unfold drawn at he ⊢
  simp only [draw, Effect.outcome_bind, Effect.outcome_modify, Effect.outcome_ofThrown,
    Effect.outcome_get, outcome_lift, Effect.outcome_set, hp, he]
  split
  · simp only [Effect.outcome_bind, Effect.outcome_modify, Effect.outcome_ofThrown,
      Effect.outcome_get, Effect.outcome_set]
    generalize View.recenter (α := α) _ gs = r
    cases r <;> rfl
  · rfl

omit [Scalar α] in
theorem placements_ok (hids : g.vertices.map Vertex.id = (List.range g.size).map Int.ofNat)
    (hl : l.Covers g.size) :
    ∃ placed, placements g l = .ok placed ∧
      placed.map VertexBoxes.Placed.index = List.range g.size := by
  have hbox : ∀ p ∈ g.vertices.zipIdx, ∃ box, l.box? p.1.id = some box := by
    rintro ⟨vertex, i⟩ hp
    have hid : vertex.id ∈ g.vertices.map Vertex.id :=
      List.mem_map_of_mem (List.fst_mem_of_mem_zipIdx hp)
    rw [hids, List.mem_map] at hid
    obtain ⟨k, hk, hid⟩ := hid
    refine Option.isSome_iff_exists.mp ?_
    rw [hl.isSome_box?_iff, ← hid]
    have := List.mem_range.mp hk
    simp only [Int.ofNat_eq_natCast]
    omega
  obtain ⟨placed, hplaced, hindex⟩ : ∃ placed, placements g l = .ok placed ∧
      placed.map VertexBoxes.Placed.index = g.vertices.zipIdx.map Prod.snd := by
    refine mapM_ok fun p hp => ?_
    obtain ⟨box, hbox⟩ := hbox p hp
    exact ⟨⟨p.2, p.1, box.x, box.y⟩, by simp [hbox], rfl⟩
  refine ⟨placed, hplaced, ?_⟩
  rw [hindex, List.zipIdx_map_snd, ← List.range_eq_range', Graph.size]

theorem drawings_placeAll (measure : Measure Id α) (style : VertexStyle α) (b : VertexBoxes α)
    (placed : List (VertexBoxes.Placed α)) :
    (VertexBoxes.placeAll (m := Id) measure style b placed).drawings.map VertexDrawing.vertex =
      placed.map VertexBoxes.Placed.index := by
  have hdraws := (VertexBoxes.draws_placeAll measure style b placed).2
  rw [eq_comm, ← List.forall₂_eq_eq_eq, List.forall₂_map_left_iff, List.forall₂_map_right_iff]
  exact hdraws.imp fun _ _ hd => hd.vertex.symm

theorem drawings_drawn (measure : Measure Id α) (v : View α)
    (placed : List (VertexBoxes.Placed α)) :
    (drawn measure v placed).drawings.map VertexDrawing.vertex =
      placed.map VertexBoxes.Placed.index :=
  drawings_placeAll measure v.style.vertex v.boxes placed

omit [Scalar α] in
theorem endOf_ok {b : VertexBoxes α} {i : Nat} (h : i ∈ b.drawings.map VertexDrawing.vertex) :
    ∃ d, endOf b (.inside i) = .ok d := by
  obtain ⟨d, hd, -, -⟩ := VertexBoxes.find?_of_mem h
  exact ⟨d, by simp [endOf, hd]⟩

omit [Scalar α] in
theorem edgePlacements_ok {b : VertexBoxes α}
    (h : ∀ e ∈ g.edges, ∃ i j, e.source = .inside i ∧ e.target = .inside j ∧
      i ∈ b.drawings.map VertexDrawing.vertex ∧ j ∈ b.drawings.map VertexDrawing.vertex) :
    ∃ ends, edgePlacements g b = .ok ends := by
  have hends : ∀ p ∈ g.edges.zipIdx, ∃ q : EdgePlacement α,
      (do return ⟨p.2, ← endOf b p.1.source, ← endOf b p.1.target⟩ : Except Fault _) = .ok q ∧
        () = () := by
    rintro ⟨e, k⟩ hp
    obtain ⟨i, j, hi, hj, hsource, htarget⟩ := h e (List.fst_mem_of_mem_zipIdx hp)
    obtain ⟨source, hs⟩ := endOf_ok hsource
    obtain ⟨target, ht⟩ := endOf_ok htarget
    exact ⟨⟨k, source, target⟩, by simp only [hi, hj, hs, ht]; rfl, rfl⟩
  obtain ⟨ends, hends, -⟩ := mapM_ok (j := fun _ => ()) (k := fun _ => ()) hends
  exact ⟨ends, hends⟩

omit [Scalar α] in
/-- Without drawings no edge has its ends. -/
theorem edgePlacements_missing {b : VertexBoxes α} (hb : b.drawings = []) (he : g.edges ≠ []) :
    edgePlacements g b = .error .missing := by
  have hend (e : Endpoint) : endOf b e = .error .missing := by
    cases e with
    | inside i => simp [endOf, VertexBoxes.find?, hb]
    | outside => rfl
  obtain ⟨e, edges, hedges⟩ := List.exists_cons_of_ne_nil he
  rw [edgePlacements, hedges, List.zipIdx_cons, List.mapM_cons]
  simp only [hend]
  rfl

theorem centerOf_ok (hc : v.camera.Sound) (g : Option Graph) (l : Layout α) :
    ∃ p, v.centerOf g l = .ok p := by
  unfold centerOf
  dsimp only
  split
  · rw [Scalar.divide_of_not_le hc.zoom]
    exact ⟨_, rfl⟩
  · exact ⟨_, rfl⟩

theorem recenter_eq {p : Point α} (hl : v.layout = some l)
    (hp : v.centerOf (v.shown? gs) l = .ok p) :
    v.recenter gs = .ok { v with camera := v.camera.recenter p } := by
  simp only [recenter, hl, hp]
  rfl

/-- A view that waits to be recentered is, once it is drawn. -/
theorem outcome_draw_pending {measure : Measure Id α} {placed : List (VertexBoxes.Placed α)}
    {ends : List (EdgePlacement α)} (hp : placements g l = .ok placed)
    (he : edgePlacements g (drawn measure v placed) = .ok ends) (hv : v.recenterPending = true)
    {w : View α} (hw : w = { { v with layout := some l, boxes := drawn measure v placed }.shown
      (.ofPlacements ends) with recenterPending := false }) {p : Point α}
    (hcenter : w.centerOf (w.shown? gs) l = .ok p) :
    Effect.outcome (draw measure gs g l) v =
      (.ok (), { w with camera := w.camera.recenter p }) := by
  subst hw
  rw [outcome_draw_ok hp he]
  dsimp only
  rw [if_pos hv, recenter_eq rfl hcenter]

theorem recenter_of_none (hl : v.layout = none) (gs : GraphStore) :
    v.recenter gs = .ok { v with recenterPending := v.graph.isSome } := by
  unfold recenter
  split
  · rfl
  next l hl' => cases hl.symm.trans hl'

theorem recenter_ok (gs : GraphStore) (hc : v.camera.Sound) :
    ∃ camera pending, v.camera.Moves camera ∧
      v.recenter gs = .ok { v with camera, recenterPending := pending } := by
  rcases Option.eq_none_or_eq_some v.layout with hl | ⟨l, hl⟩
  · exact ⟨v.camera, v.graph.isSome, .refl, recenter_of_none hl gs⟩
  · obtain ⟨p, hp⟩ := centerOf_ok hc (v.shown? gs) l
    exact ⟨v.camera.recenter p, v.recenterPending, Camera.moves_recenter _ _, recenter_eq hl hp⟩

/-- A layout that has all vertices of a graph is drawn, whole. -/
theorem draw_shows (measure : Measure Id α) (gs : GraphStore) (hc : v.camera.Sound)
    (hids : g.vertices.map Vertex.id = (List.range g.size).map Int.ofNat) (hl : l.Covers g.size)
    (hends : ∀ e ∈ g.edges, ∃ i j, e.source = .inside i ∧ e.target = .inside j ∧
      i < g.size ∧ j < g.size) :
    ∃ camera pending boxes edges, v.camera.Moves camera ∧
      boxes.drawings.map VertexDrawing.vertex = List.range g.size ∧
      Effect.outcome (draw measure gs g l) v =
        (.ok (), { ({ v with layout := some l, boxes } : View α).shown edges with
          camera, recenterPending := pending }) := by
  obtain ⟨placed, hplaced, hindex⟩ := placements_ok hids hl
  have hdrawn : (drawn measure v placed).drawings.map VertexDrawing.vertex = List.range g.size :=
    (drawings_drawn measure v placed).trans hindex
  have hdrawnEnds : ∀ e ∈ g.edges, ∃ i j, e.source = .inside i ∧ e.target = .inside j ∧
      i ∈ (drawn measure v placed).drawings.map VertexDrawing.vertex ∧
      j ∈ (drawn measure v placed).drawings.map VertexDrawing.vertex := by
    intro e he
    obtain ⟨i, j, hs, ht, hi, hj⟩ := hends e he
    exact ⟨i, j, hs, ht, by simpa [hdrawn] using hi, by simpa [hdrawn] using hj⟩
  obtain ⟨ends, hok⟩ := edgePlacements_ok hdrawnEnds
  rw [outcome_draw_ok hplaced hok]
  by_cases hp : v.recenterPending = true
  · let w : View α :=
      { ({ v with layout := some l, boxes := drawn measure v placed } : View α).shown
        (.ofPlacements ends) with recenterPending := false }
    obtain ⟨camera, pending, hmoves, hr⟩ := recenter_ok (v := w) gs hc
    refine ⟨camera, pending, drawn measure v placed, .ofPlacements ends, hmoves, hdrawn, ?_⟩
    dsimp only
    rw [if_pos hp]
    change (match w.recenter gs with
      | .error fault => (.error fault, w)
      | .ok w => (.ok (), w) : Except Fault Unit × View α) = _
    rw [hr]
  · refine ⟨v.camera, v.recenterPending, drawn measure v placed, .ofPlacements ends, .refl, hdrawn,
      ?_⟩
    dsimp only
    rw [if_neg hp]
    rfl

/-- A layout without vertices cannot be drawn with edges: they have no ends. -/
theorem draw_missing (measure : Measure Id α) (gs : GraphStore) (hg : g.vertices = [])
    (he : g.edges ≠ []) :
    ∃ boxes, Effect.outcome (draw measure gs g l) v =
      (.error .missing, { v with layout := some l, boxes }) := by
  have hplaced : placements g l = .ok [] := by
    rw [placements, hg]
    rfl
  have hdrawn : (drawn measure v []).drawings = [] := rfl
  exact ⟨_, outcome_draw_error hplaced (edgePlacements_missing hdrawn he)⟩

section

variable {ref : Nat} {engine : LayoutEngine α} {measure : Measure Id α} {boxes : VertexBoxes α}
  {fault : Fault}

def laidOut (engine : LayoutEngine α) (measure : Measure Id α) (v : View α) (g : Graph) :
    Except Fault (Layout α) × VertexBoxes α :=
  (computeLayout (m := Id) engine measure v.style g).run v.boxes

structure Attempt where
  graph : Nat
  count : Nat
  failed : Bool

/-- The attempt that a frame makes, if it makes one. -/
def attempt? (engine : LayoutEngine α) (measure : Measure Id α) (v : View α) (gs : GraphStore) :
    Option Attempt :=
  match v.graph with
  | none => none
  | some ref =>
    let g := gs.graph ref
    if v.settled ref g.size || !g.verifyIntegrity || v.cache.validFor ref g.size then none
    else some ⟨ref, g.size, !(v.laidOut engine measure g).1.isOk⟩

theorem outcome_preprocess_of_none (hg : v.graph = none) :
    Effect.outcome (preprocess engine measure gs) v = (.ok false, v) := by
  simp only [preprocess, Effect.outcome_bind, Effect.outcome_get, hg, Effect.outcome_pure]

theorem outcome_preprocess_of_settled (hg : v.graph = some ref)
    (hs : v.settled ref (gs.graph ref).size = true) :
    Effect.outcome (preprocess engine measure gs) v = (.ok false, v) := by
  simp only [preprocess, Effect.outcome_bind, Effect.outcome_get, hg, hs, ↓reduceIte,
    Effect.outcome_pure]

theorem outcome_preprocess_of_unnumbered (hg : v.graph = some ref)
    (hs : v.settled ref (gs.graph ref).size = false)
    (hi : (gs.graph ref).verifyIntegrity = false) :
    Effect.outcome (preprocess engine measure gs) v =
      (.ok true, { v with preprocessed := false }.setError integrityMessage) := by
  simp only [preprocess, Effect.outcome_bind, Effect.outcome_get, hg, hs, hi, Bool.false_eq_true,
    ↓reduceIte, Bool.not_false, Effect.outcome_set, Effect.outcome_pure]

theorem outcome_preprocess_of_known (hg : v.graph = some ref)
    (hs : v.settled ref (gs.graph ref).size = false)
    (hi : (gs.graph ref).verifyIntegrity = true)
    (hc : v.cache.lookup? ref (gs.graph ref).size = some l) :
    Effect.outcome (preprocess engine measure gs) v =
      ((Effect.outcome (draw measure gs (gs.graph ref) l) { v with preprocessed := false }).1.map
          fun _ => true,
        (Effect.outcome (draw measure gs (gs.graph ref) l)
          { v with preprocessed := false }).2) := by
  have hget : (LayoutCache.get v.cache ref (gs.graph ref).size fun _ =>
      computeLayout (m := Id) engine measure v.style (gs.graph ref)).run v.boxes =
        ((.ok l, v.cache), v.boxes) := by
    simp only [LayoutCache.get, hc]
    rfl
  simp only [preprocess, Effect.outcome_bind, Effect.outcome_get, hg, hs, hi, Bool.false_eq_true,
    ↓reduceIte, Bool.not_true, outcome_lift, hget, Effect.outcome_set, Effect.outcome_pure]
  generalize Effect.outcome (draw measure gs (gs.graph ref) l) _ = o
  rcases o with ⟨_ | _, w⟩ <;> rfl

/-- What follows on a new layout. -/
theorem outcome_preprocess_of_laid (hg : v.graph = some ref)
    (hs : v.settled ref (gs.graph ref).size = false)
    (hi : (gs.graph ref).verifyIntegrity = true)
    (hc : v.cache.lookup? ref (gs.graph ref).size = none)
    (hl : v.laidOut engine measure (gs.graph ref) = (.ok l, boxes)) :
    Effect.outcome (preprocess engine measure gs) v =
      let w : View α := { v with
        preprocessed := false, boxes, cache := ⟨some (ref, (gs.graph ref).size, l)⟩ }
      let o := Effect.outcome (draw measure gs (gs.graph ref) l) w
      (o.1.map fun _ => true, o.2) := by
  have hget : (LayoutCache.get v.cache ref (gs.graph ref).size fun _ =>
      computeLayout (m := Id) engine measure v.style (gs.graph ref)).run v.boxes =
        ((.ok l, ⟨some (ref, (gs.graph ref).size, l)⟩), boxes) := by
    have hrun : ((computeLayout (m := Id) engine measure v.style (gs.graph ref)).run v.boxes) =
        (.ok l, boxes) := hl
    simp only [LayoutCache.get, hc, StateT.run_bind, hrun]
    rfl
  simp only [preprocess, Effect.outcome_bind, Effect.outcome_get, hg, hs, hi, Bool.false_eq_true,
    ↓reduceIte, Bool.not_true, outcome_lift, hget, Effect.outcome_set, Effect.outcome_pure]
  generalize Effect.outcome (draw measure gs (gs.graph ref) l) _ = o
  rcases o with ⟨_ | _, w⟩ <;> rfl

theorem outcome_preprocess_of_failed (hg : v.graph = some ref)
    (hs : v.settled ref (gs.graph ref).size = false)
    (hi : (gs.graph ref).verifyIntegrity = true)
    (hc : v.cache.lookup? ref (gs.graph ref).size = none)
    (hl : v.laidOut engine measure (gs.graph ref) = (.error fault, boxes)) :
    Effect.outcome (preprocess engine measure gs) v =
      (.ok true, { ({ v with preprocessed := false, boxes, cache := .empty } : View α).setError
        s!"Layout failed: {fault.message}" with failed := some (ref, (gs.graph ref).size) }) := by
  have hget : (LayoutCache.get v.cache ref (gs.graph ref).size fun _ =>
      computeLayout (m := Id) engine measure v.style (gs.graph ref)).run v.boxes =
        ((.error fault, .empty), boxes) := by
    have hrun : ((computeLayout (m := Id) engine measure v.style (gs.graph ref)).run v.boxes) =
        (.error fault, boxes) := hl
    simp only [LayoutCache.get, hc, StateT.run_bind, hrun]
    rfl
  simp only [preprocess, Effect.outcome_bind, Effect.outcome_get, hg, hs, hi, Bool.false_eq_true,
    ↓reduceIte, Bool.not_true, outcome_lift, hget, Effect.outcome_set, Effect.outcome_pure]

end

end View

end DebugDesk
