import DebugDesk.Proofs.Layout.Columns
import DebugDesk.Proofs.View.Moves

/-!
# Drawings and their layout

A vertex is drawn where the layout has its box, and as large as that: it is measured once, and both
are made from the same measurements. So there is a drawing for each box, whatever is done to a view
once its graph is laid out.
-/
namespace DebugDesk

open Exact

/-- Whether a drawing is at a point of the layout, with its center or with its top left corner. -/
structure VertexDrawing.Stands {α : Type} [Scalar α] (style : VertexStyle α) (x y : α)
    (d : VertexDrawing α) : Prop where
  x : d.x = if style.centering then x - d.width / 2.0 else x
  y : d.y = if style.centering then y - d.height / 2.0 else y

/-- Whether a drawing is where a layout has a box, and as large. -/
structure VertexDrawing.Fills (style : VertexStyle ℚ) (box : LayoutBox ℚ) (d : VertexDrawing ℚ) :
    Prop extends d.Stands style box.x box.y where
  width : d.width = box.width
  height : d.height = box.height

/-- Whether drawings are those of the boxes of a layout. The boxes are within its extent, unless the
gap between them or a size is negative. -/
structure Layout.Fits (style : ViewStyle ℚ) (l : Layout ℚ) (drawings : List (VertexDrawing ℚ)) :
    Prop where
  vertices : drawings.map VertexDrawing.vertex = List.range l.size
  boxes : ∀ d ∈ drawings, ∃ box, l.box? d.vertex = some box ∧ d.Fills style.vertex box
  within : 0 ≤ style.nodeSpacing → (∀ d ∈ drawings, 0 ≤ d.width ∧ 0 ≤ d.height) →
    ∀ entry ∈ l.boxes, (0 ≤ entry.2.left ∧ entry.2.right ≤ l.width) ∧
      0 ≤ entry.2.top ∧ entry.2.bottom ≤ l.height

/-- Drawings whose centers are laid out are inside the extent of the layout. -/
theorem Layout.Fits.inside {style : ViewStyle ℚ} {l : Layout ℚ} {drawings : List (VertexDrawing ℚ)}
    (h : l.Fits style drawings) (hcentering : style.vertex.centering = true)
    (hgap : 0 ≤ style.nodeSpacing) (hsizes : ∀ d ∈ drawings, 0 ≤ d.width ∧ 0 ≤ d.height)
    {d : VertexDrawing ℚ} (hd : d ∈ drawings) :
    (0 ≤ d.x ∧ d.x + d.width ≤ l.width) ∧ 0 ≤ d.y ∧ d.y + d.height ≤ l.height := by
  obtain ⟨box, hbox, hfills⟩ := h.boxes d hd
  obtain ⟨⟨hleft, hright⟩, htop, hbottom⟩ := h.within hgap hsizes _ (mem_of_lookup hbox)
  have hx := hfills.x
  have hy := hfills.y
  rw [if_pos hcentering, two] at hx hy
  rw [LayoutBox.left, ← hfills.width, two, ← hx] at hleft
  rw [LayoutBox.right, ← hfills.width, two] at hright
  rw [LayoutBox.top, ← hfills.height, two, ← hy] at htop
  rw [LayoutBox.bottom, ← hfills.height, two] at hbottom
  exact ⟨⟨hleft, by linarith⟩, htop, by linarith⟩

/-- Whoever has its position as identifier keeps it. -/
theorem Graph.Turns.idOf_inside {spared : Prop} {g h : Graph} (ht : Turns spared g h) {i : Nat}
    (hid : g.idOf (.inside i) = i) : h.idOf (.inside i) = i := by
  have hi := lt_of_idOf_eq hid
  cases ht with
  | same => exact hid
  | made provider bare =>
    subst bare
    exact hid
  | grown =>
    rw [idOf] at hid ⊢
    rwa [Graph.addVertex, List.getElem?_append_left hi]
  | rooted root =>
    rcases g.rooted_cases root with he | ⟨r, -, he⟩ <;> rwa [he]
  | linked source target =>
    unfold GraphChange.apply
    dsimp only
    split <;> exact hid
  | numbered =>
    refine Graph.idOf_inside ?_ ((size_updateIdentifiers g).symm ▸ hi)
    rw [ids_updateIdentifiers, size_updateIdentifiers]
  | selected choice => rwa [idOf_congr (ids_select g choice)]

namespace View

/-- The sizes that a layout is made of are those of the measurements. -/
theorem measureAll_known {α : Type} [Scalar α] (measure : Measure Id α) (style : VertexStyle α)
    (g : Graph) (b : VertexBoxes α) :
    let r := measureAll (m := Id) measure style g b
    ∀ entry ∈ r.1, ∃ p ∈ g.vertices.zipIdx, ∃ known, r.2.measured.lookup p.2 = some known ∧
      entry = (p.1.id, ⟨known.width, known.height⟩) := by
  -- Sizes are put before those that are there, and what they were taken from is kept.
  have hfold (xs : List (Vertex × Nat)) (sizes : Layout.Sizes α) (b : VertexBoxes α) :
      let r := xs.foldlM (m := Id) (fun known p =>
        let r := VertexBoxes.metrics (m := Id) measure style known.2 p.2 p.1
        ((p.1.id, ⟨r.1.width, r.1.height⟩) :: known.1, r.2)) (sizes, b)
      b.Keeps r.2 ∧ ∀ entry ∈ r.1, entry ∈ sizes ∨
        ∃ p ∈ xs, ∃ known, r.2.measured.lookup p.2 = some known ∧
          entry = (p.1.id, ⟨known.width, known.height⟩) := by
    induction xs generalizing sizes b with
    | nil => exact ⟨.refl b, fun _ hentry => .inl hentry⟩
    | cons p xs ih =>
      obtain ⟨hkeeps, hknown, -⟩ := VertexBoxes.metrics_known measure style b p.2 p.1
      let r := VertexBoxes.metrics (m := Id) measure style b p.2 p.1
      obtain ⟨hkeeps', hentries⟩ := ih ((p.1.id, ⟨r.1.width, r.1.height⟩) :: sizes) r.2
      rw [List.foldlM_cons]
      refine ⟨hkeeps.trans hkeeps', fun entry hentry => ?_⟩
      rcases hentries entry hentry with hentry | ⟨q, hq, hsize⟩
      · rcases List.mem_cons.mp hentry with rfl | hentry
        · exact .inr ⟨p, List.mem_cons_self, r.1, hkeeps' _ _ hknown, rfl⟩
        · exact .inl hentry
      · exact .inr ⟨q, List.mem_cons_of_mem p hq, hsize⟩
  intro r entry hentry
  rcases (hfold g.vertices.zipIdx [] b).2 entry hentry with hnone | hsize
  · cases hnone
  · exact hsize

/-- The vertices that are placed are those of the graph, where the layout has their boxes. -/
theorem mem_placements {α : Type} {g : Graph} {l : Layout α} {placed : List (VertexBoxes.Placed α)}
    (h : placements g l = .ok placed) {p : VertexBoxes.Placed α} (hp : p ∈ placed) :
    (p.vertex, p.index) ∈ g.vertices.zipIdx ∧
      ∃ box, l.box? p.vertex.id = some box ∧ p.x = box.x ∧ p.y = box.y := by
  obtain ⟨⟨vertex, i⟩, hmem, heq⟩ := mem_of_mapM_ok h hp
  dsimp only at heq
  split at heq
  next box hbox =>
    cases heq
    exact ⟨hmem, box, hbox, rfl, rfl⟩
  next => cases heq

/-- A vertex is drawn where the layout has the box of its number, as large as it was measured. -/
theorem stands_of_draws {α : Type} [Scalar α] {measure : Measure Id α} {style : VertexStyle α}
    {g : Graph} {l : Layout α} {b : VertexBoxes α} {placed : List (VertexBoxes.Placed α)}
    (hids : g.Numbered) (hp : placements g l = .ok placed)
    (hd : List.Forall₂ (VertexBoxes.Draws measure style b) placed b.drawings) :
    ∀ d ∈ b.drawings, ∃ known box, b.measured.lookup d.vertex = some known ∧
      d.width = known.width ∧ d.height = known.height ∧
      l.box? d.vertex = some box ∧ d.Stands style box.x box.y := by
  intro d hmem
  obtain ⟨p, hplaced, known, hknown, rfl⟩ := exists_of_forall₂ hd hmem
  obtain ⟨hvertex, box, hbox, hx, hy⟩ := mem_placements hp hplaced
  rw [hids.id_eq hvertex] at hbox
  refine ⟨known, box, hknown, rfl, rfl, hbox, ?_, ?_⟩
  · rw [← hx]
    rfl
  · rw [← hy]
    rfl

section

variable {g : Graph} {l : Layout ℚ} {placed : List (VertexBoxes.Placed ℚ)}

theorem drawings_laid (measure : Measure Id ℚ) (style : VertexStyle ℚ) (boxes : VertexBoxes ℚ)
    (hids : g.Numbered) (hcovers : l.Covers g.size) (hp : placements g l = .ok placed) :
    (VertexBoxes.placeAll (m := Id) measure style boxes placed).drawings.map VertexDrawing.vertex =
      List.range l.size := by
  obtain ⟨placed', hplaced', hindex⟩ := placements_ok hids hcovers
  obtain rfl : placed' = placed := Except.ok.inj (hplaced'.symm.trans hp)
  rw [drawings_placeAll, hindex, hcovers.size]

/-- The drawings are as large as the sizes that the layout is made of: both are made from the same
measurements. -/
theorem sizes_drawn (measure : Measure Id ℚ) (style : VertexStyle ℚ) (boxes : VertexBoxes ℚ)
    (hids : g.Numbered) (hcovers : l.Covers g.size) (hp : placements g l = .ok placed) :
    let r := measureAll (m := Id) measure style g boxes
    ∀ entry ∈ r.1, ∃ d ∈ (VertexBoxes.placeAll (m := Id) measure style r.2 placed).drawings,
      entry = ((d.vertex : Int), ⟨d.width, d.height⟩) := by
  intro r entry hentry
  obtain ⟨p, hmem, known, hknown, rfl⟩ := measureAll_known measure style g boxes entry hentry
  obtain ⟨hkeeps, hdraws⟩ := VertexBoxes.draws_placeAll measure style r.2 placed
  obtain ⟨d, hd, hvertex⟩ : ∃ d ∈ (VertexBoxes.placeAll (m := Id) measure style r.2
      placed).drawings, d.vertex = p.2 := by
    rw [← List.mem_map, drawings_laid measure style r.2 hids hcovers hp, List.mem_range,
      hcovers.size]
    exact List.snd_lt_of_mem_zipIdx hmem
  obtain ⟨known', -, hknown', hwidth, hheight, -⟩ := stands_of_draws hids hp hdraws d hd
  rw [hvertex] at hknown'
  obtain rfl : known = known' := Option.some.inj ((hkeeps _ _ hknown).symm.trans hknown')
  exact ⟨d, hd, by rw [hids.id_eq hmem, hvertex, hwidth, hheight]⟩

/-- A new layout of a numbered graph is drawn as it is. -/
theorem fits_placeAll {v : View ℚ} {engine : LayoutEngine ℚ} {measure : Measure Id ℚ}
    {boxes : VertexBoxes ℚ} (hids : g.Numbered) (hl : v.laidOut engine measure g = (.ok l, boxes))
    (hp : placements g l = .ok placed) :
    l.Fits v.style
      (VertexBoxes.placeAll (m := Id) measure v.style.vertex boxes placed).drawings := by
  have hcovers : l.Covers g.size := (laidOut_ok hids hl).1
  have hvertices := drawings_laid measure v.style.vertex boxes hids hcovers hp
  let r := measureAll (m := Id) measure v.style.vertex g v.boxes
  have hlaid : Layout.ofGraphBy engine.group engine.place g r.1 v.style.nodeSpacing
      v.style.rankSpacing = .ok l := congrArg Prod.fst hl
  obtain rfl : r.2 = boxes := congrArg Prod.snd hl
  have hsizes := sizes_drawn measure v.style.vertex v.boxes hids hcovers hp
  have hstands := stands_of_draws hids hp
    (VertexBoxes.draws_placeAll measure v.style.vertex r.2 placed).2
  refine ⟨hvertices, fun d hd => ?_, fun hgap hpositive => ?_⟩
  · obtain ⟨-, box, -, -, -, hbox, hplace⟩ := hstands d hd
    have hsize := Layout.ofGraphBy_sized engine.partitions hlaid _
      (Layout.mem_of_lookup hbox)
    obtain ⟨d', hd', hsame⟩ := hsizes _ (Layout.mem_of_lookup hsize)
    obtain ⟨hnumber, hextents⟩ := Prod.mk.inj hsame
    obtain rfl : d = d' := List.inj_on_of_nodup_map (hvertices ▸ List.nodup_range) hd hd'
      (Int.ofNat.inj hnumber)
    obtain ⟨hwidth, hheight⟩ := Size.mk.inj hextents
    exact ⟨box, hbox, hplace, hwidth.symm, hheight.symm⟩
  · have hpositives : ∀ entry ∈ r.1, Layout.NonNegative entry.2 := by
      intro entry hentry
      obtain ⟨d, hd, rfl⟩ := hsizes entry hentry
      exact hpositive d hd
    obtain ⟨edges, columns, -, hcolumns⟩ :=
      (Layout.ofGraphBy_laid engine.partitions hpositives hgap).2.2 l hlaid
    exact hcolumns.within

end

/-- Whether a layout that is shown is drawn as it is, and its boxes are those of the graph. -/
structure Fitted (v : View ℚ) (gs : GraphStore) : Prop where
  fits : ∀ l, v.layout = some l → l.Fits v.style v.boxes.drawings
  numbered : ∀ l ref, v.layout = some l → v.graph = some ref → ∀ i < l.size,
    (gs.graph ref).idOf (.inside i) = i

theorem fitted_of_none {v : View ℚ} (h : v.layout = none) (gs : GraphStore) : v.Fitted gs :=
  ⟨fun _ hl => (by cases h.symm.trans hl), fun _ _ hl => (by cases h.symm.trans hl)⟩

theorem Fitted.of_alike {v w : View ℚ} {gs hs : GraphStore} (h : v.Fitted gs) (ha : v.Alike w)
    (hstyle : w.style = v.style) (hids : ∀ (ref i : Nat), (gs.graph ref).idOf (.inside i) = i →
      (hs.graph ref).idOf (.inside i) = i) : w.Fitted hs := by
  refine ⟨fun l hl => ?_, fun l ref hl hg i hi => ?_⟩
  · rw [hstyle, ha.boxes]
    exact h.fits l (ha.layout ▸ hl)
  · exact hids ref i (h.numbered l ref (ha.layout ▸ hl) (ha.graph ▸ hg) i hi)

section

variable {v w : View ℚ} {gs : GraphStore} {l : Layout ℚ} {ref : Nat}

/-- What is drawn of a layout fits it if its drawings do. -/
theorem fitted_draw {measure : Measure Id ℚ} (hg : v.graph = some ref)
    (hids : (gs.graph ref).Numbered) (hcovers : l.Covers (gs.graph ref).size)
    (hfits : ∀ placed, placements (gs.graph ref) l = .ok placed →
      l.Fits v.style (drawn measure v placed).drawings) :
    (Effect.outcome (draw measure gs (gs.graph ref) l) v).2.Fitted gs := by
  obtain ⟨hlayout, hgraph, hstyle, -, hboxes⟩ :=
    Ledger.draw_shown measure gs (gs.graph ref) l v
  refine ⟨fun k hk => ?_, fun k r hk hr i hi => ?_⟩
  · obtain ⟨placed, hplaced, -⟩ := placements_ok hids hcovers
    obtain rfl : l = k := Option.some.inj (hlayout.symm.trans hk)
    rw [hstyle, hboxes placed hplaced]
    exact hfits placed hplaced
  · obtain rfl : l = k := Option.some.inj (hlayout.symm.trans hk)
    obtain rfl : ref = r := Option.some.inj (hg.symm.trans (hgraph.symm.trans hr))
    exact Graph.idOf_inside hids (hcovers.size ▸ hi)

theorem fits_of_bare (style : ViewStyle ℚ) (h : l.Covers 0) : l.Fits style [] := by
  have hnil : l.boxes = [] := List.length_eq_zero_iff.mp h.size
  exact ⟨by rw [h.size]; rfl, by simp, by simp [hnil]⟩

theorem Fitted.preprocess (h : v.Fitted gs) {attempt : Option Attempt}
    (hb : ∀ ref, (gs.graph ref).Built) (hp : v.Phase gs attempt) (engine : LayoutEngine ℚ)
    (measure : Measure Id ℚ) :
    (Effect.outcome (View.preprocess engine measure gs) v).2.Fitted gs := by
  rcases Option.eq_none_or_eq_some v.graph with hg | ⟨ref, hg⟩
  · rw [outcome_preprocess_of_none hg]
    exact h
  rcases Bool.eq_false_or_eq_true (v.settled ref (gs.graph ref).size) with hs | hs
  · rw [outcome_preprocess_of_settled hg hs]
    exact h
  rcases Bool.eq_false_or_eq_true (gs.graph ref).verifyIntegrity with hi | hi
  case inr =>
    rw [outcome_preprocess_of_unnumbered hg hs hi]
    exact fitted_of_none rfl gs
  have hids := (hb ref).ids_of_verifyIntegrity hi
  rcases Option.eq_none_or_eq_some (v.cache.lookup? ref (gs.graph ref).size) with hk | ⟨l, hk⟩
  case inr =>
    rw [outcome_preprocess_of_known hg hs hi hk]
    obtain ⟨⟨hbare, -⟩, -, hcovers⟩ := hp.bare_of_known hg hs hk
    have hsize : (gs.graph ref).size = 0 := by simp [Graph.size, hbare]
    refine fitted_draw (v := { v with preprocessed := false }) hg hids (hsize ▸ hcovers) ?_
    intro placed hplaced
    rw [placements, hbare] at hplaced
    cases hplaced
    exact fits_of_bare v.style hcovers
  rcases hl : v.laidOut engine measure (gs.graph ref) with ⟨fault | l, boxes⟩
  · rw [outcome_preprocess_of_failed hg hs hi hk hl]
    exact fitted_of_none rfl gs
  · rw [outcome_preprocess_of_laid hg hs hi hk hl]
    exact fitted_draw (v := { v with
      preprocessed := false, boxes, cache := ⟨some (ref, (gs.graph ref).size, l)⟩ }) hg hids
      (laidOut_ok hids hl).1 fun placed hplaced => (fits_placeAll hids hl hplaced :)

theorem Fitted.afterwards {prepared : Except Fault Bool × View ℚ} (h : prepared.2.Fitted gs) :
    (View.afterwards prepared).Fitted gs := by
  have hsame {w : View ℚ} (ha : prepared.2.Alike w) (hstyle : w.style = prepared.2.style) :
      w.Fitted gs := h.of_alike ha hstyle fun _ _ => id
  rcases prepared with ⟨fault | answer, w⟩
  · exact h
  dsimp only [View.afterwards]
  split
  · exact h
  split
  · exact hsame ⟨rfl, rfl, rfl, rfl, rfl, rfl, rfl⟩ rfl
  · exact hsame ⟨rfl, rfl, rfl, rfl, rfl, rfl, rfl⟩ rfl

end

namespace Ledger

variable [ExactRoots] {s : Ledger ℚ}

/-- Whatever is done, what is drawn is the layout that is shown. -/
theorem Reached.fitted (h : s.Reached) : s.view.Fitted s.graphs := by
  induction h with
  | start sound style dragThreshold clickSuppression => exact fitted_of_none rfl _
  | @go s before move ih =>
    obtain ⟨attempt, hcoherent⟩ := before.kept.coherent
    by_cases hframes : move.Frames
    case neg =>
      rcases before.kept.between hframes with halike | hnone
      · exact ih.of_alike halike (s.style_between hframes)
          fun ref i => (s.turns_go move ref).idOf_inside
      · exact fitted_of_none hnone _
    have hprepared := ih.preprocess hcoherent.built hcoherent.phase
    rcases move with ((_ | _ | _ | _ | ⟨engine, measure⟩) | ⟨engine, measure⟩ | _ | _) | _
    case deed.happens.update =>
      have hview := s.view_step_update engine measure
      change (s.step _).view.Fitted s.graphs
      rw [hview]
      exact (hprepared engine measure).afterwards
    case deed.preprocess =>
      have hview := s.view_step_preprocess engine measure
      change (s.step _).view.Fitted s.graphs
      rw [hview]
      exact hprepared engine measure
    all_goals exact hframes.elim

end Ledger

end View

end DebugDesk
