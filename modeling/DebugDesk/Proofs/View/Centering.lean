import Mathlib.Order.Interval.Set.UnorderedInterval
import DebugDesk.Proofs.Drawing.Clicking
import DebugDesk.Proofs.View.Pending
import DebugDesk.Proofs.View.Placing

/-!
# What recentering and fitting bring into view

Recentering shows the root of a graph in the middle from left to right, and half its height below
the top of the viewport. So a root that is shown more than twice as high as the viewport is not in
view at all. Fitting shows the whole layout, with a margin around it.
-/
namespace DebugDesk

open Exact VertexBoxes

def Camera.InView (c : Camera ℚ) (p : Point ℚ) : Prop :=
  p.x ∈ Set.Icc 0 c.width ∧ p.y ∈ Set.Icc 0 c.height

namespace Recorded

/-- Whether a point of the screen is in a recorded rectangle, between two opposite corners of it. -/
def Spans (p : Point ℚ) : Recorded ℚ → Prop
  | rect x y width height _ => p.x ∈ Set.uIcc x (x + width) ∧ p.y ∈ Set.uIcc y (y + height)
  | _ => False

def Meets (c : Camera ℚ) (call : Recorded ℚ) : Prop := ∃ p, call.Spans p ∧ c.InView p

def Within (c : Camera ℚ) (call : Recorded ℚ) : Prop := ∀ p, call.Spans p → c.InView p

/-- It is in the middle from left to right. -/
def Centered (c : Camera ℚ) : Recorded ℚ → Prop
  | rect x _ width _ _ => x + width / 2 = c.width / 2
  | _ => False

theorem within_of_corners {c : Camera ℚ} {x y width height : ℚ} {color : Ink}
    (h : c.InView ⟨x, y⟩) (h' : c.InView ⟨x + width, y + height⟩) :
    (rect x y width height color).Within c :=
  fun _ hp => ⟨Set.uIcc_subset_Icc h.1 h'.1 hp.1, Set.uIcc_subset_Icc h.2 h'.2 hp.2⟩

theorem not_within_of_corner {c : Camera ℚ} {x y width height : ℚ} {color : Ink}
    (h : x + width ∉ Set.Icc 0 c.width) : ¬(rect x y width height color).Within c :=
  fun hwithin => h (hwithin ⟨x + width, y⟩ ⟨Set.right_mem_uIcc, Set.left_mem_uIcc⟩).1

theorem meets_rect {c : Camera ℚ} {x y width height : ℚ} {color : Ink} :
    (rect x y width height color).Meets c ↔
      (∃ u ∈ Set.uIcc x (x + width), u ∈ Set.Icc 0 c.width) ∧
        ∃ u ∈ Set.uIcc y (y + height), u ∈ Set.Icc 0 c.height := by
  constructor
  · rintro ⟨p, ⟨hx, hy⟩, hx', hy'⟩
    exact ⟨⟨p.x, hx, hx'⟩, p.y, hy, hy'⟩
  · rintro ⟨⟨x', hx, hx'⟩, y', hy, hy'⟩
    exact ⟨⟨x', y'⟩, ⟨hx, hy⟩, hx', hy'⟩

/-- What begins its whole or half extent from the edge is in view only if it begins before the
other edge. -/
theorem exists_mem_Icc_iff {start extent full : ℚ} (h : start = extent / 2 ∨ start = extent) :
    (∃ u ∈ Set.uIcc start (start + extent), u ∈ Set.Icc 0 full) ↔
      0 ≤ extent ∧ start ≤ full := by
  constructor
  · rintro ⟨u, hu, hzero, hfull⟩
    rcases Set.mem_uIcc.mp hu with ⟨hle, hle'⟩ | ⟨hle, hle'⟩ <;> rcases h with h | h <;>
      constructor <;> linarith
  · rintro ⟨hextent, hfull⟩
    refine ⟨start, Set.left_mem_uIcc, ?_, hfull⟩
    rcases h with h | h <;> linarith

variable {c : Camera ℚ} {centering : Bool} {width height : ℚ} {color : Ink}

theorem centered_iff {y : ℚ} :
    (rect (c.width / 2 - (if centering then width / 2 else 0)) y width height color).Centered c ↔
      centering = true ∨ width = 0 := by
  rw [Centered]
  cases centering
  · simp
  · simp

/-- What is shown so is in view, at least in part, exactly if it begins above the lower edge. -/
theorem meets_iff (hwidth : 0 < c.width) :
    (rect (c.width / 2 - (if centering then width / 2 else 0))
        (if centering then height / 2 else height) width height color).Meets c ↔
      0 ≤ height ∧ height ≤ (if centering then 2 else 1) * c.height := by
  have hmiddle : c.width / 2 ∈ Set.Icc 0 c.width := ⟨by linarith, by linarith⟩
  rw [meets_rect]
  cases centering
  case false =>
    simp only [Bool.false_eq_true, if_false, sub_zero, one_mul]
    rw [exists_mem_Icc_iff (.inr rfl), and_iff_right ⟨_, Set.left_mem_uIcc, hmiddle⟩]
  case true =>
    have hspans : c.width / 2 ∈ Set.uIcc (c.width / 2 - width / 2)
        (c.width / 2 - width / 2 + width) := by
      rw [Set.mem_uIcc]
      rcases le_total 0 width with h | h
      · exact .inl ⟨by linarith, by linarith⟩
      · exact .inr ⟨by linarith, by linarith⟩
    simp only [if_true]
    rw [exists_mem_Icc_iff (.inl rfl), and_iff_right ⟨_, hspans, hmiddle⟩]
    exact and_congr_right fun _ => ⟨fun _ => by linarith, fun _ => by linarith⟩

end Recorded

theorem mem_Icc_of_fits {zoom extent full x : ℚ} (hzoom : 0 < zoom)
    (hfits : zoom * extent ≤ 9 / 10 * full) (hx : 0 ≤ x) (hx' : x ≤ extent) :
    full / 2 + zoom * (x - extent / 2) ∈ Set.Icc 0 full := by
  have hlow : 0 ≤ zoom * x := mul_nonneg hzoom.le hx
  have hhigh : zoom * x ≤ zoom * extent := mul_le_mul_of_nonneg_left hx' hzoom.le
  rw [mul_sub, mul_div_assoc']
  constructor <;> linarith

namespace Camera

def resting (width height zoom : ℚ) : Camera ℚ :=
  ⟨width, height, 1 / 10, 5, 1 / 200, 100, 0, 0, zoom, zoom, .idle, ⟨0, 0⟩, none, false, true⟩

theorem sound_resting (width height : ℚ) {zoom : ℚ} (h : 0 < zoom) :
    (resting width height zoom).Sound := by
  refine ⟨?_, ?_, ?_⟩ <;> simp only [resting, zero]
  · norm_num
  · norm_num
  · exact not_le.mpr h

variable (c : Camera ℚ) (style : VertexStyle ℚ) (selected : Nat → Bool) (d : VertexDrawing ℚ)

theorem background?_recenter (p : Point ℚ) :
    background? (c.recenter p).matrix style selected d =
      some (.rect (c.width / 2 + c.zoom * (d.x - p.x)) (c.height / 2 + c.zoom * (d.y - p.y))
        (c.zoom * d.width) (c.zoom * d.height) style.backgroundColor) := by
  obtain ⟨hwidth, hheight, hx, hy⟩ := c.position_recenter p
  rw [background?_eq, RecordingSurface.record, matrix_eq, hwidth, hheight, hx, hy,
    (c.recenter_scale p).2, map_zooming, map_zooming, Option.some.injEq, Recorded.rect.injEq]
  refine ⟨?_, ?_, ?_, ?_, rfl⟩ <;> ring

/-- What is inside an extent that fits into the viewport is in view, whole, when the middle of the
extent is in the middle. -/
theorem within_recenter {c : Camera ℚ} {d : VertexDrawing ℚ} {width height : ℚ} (hzoom : 0 < c.zoom)
    (hacross : c.zoom * width ≤ 9 / 10 * c.width) (hdown : c.zoom * height ≤ 9 / 10 * c.height)
    (hinside : (0 ≤ d.x ∧ d.x + d.width ≤ width) ∧ 0 ≤ d.y ∧ d.y + d.height ≤ height)
    (hsize : 0 ≤ d.width ∧ 0 ≤ d.height) :
    let e := c.recenter ⟨width / 2, height / 2⟩
    ∃ call ∈ background? e.matrix style selected d, call.Within e := by
  intro e
  obtain ⟨⟨hleft, hright⟩, htop, hbottom⟩ := hinside
  obtain ⟨hwide, htall⟩ := hsize
  have hview {x y : ℚ} (hx : 0 ≤ x) (hx' : x ≤ width) (hy : 0 ≤ y) (hy' : y ≤ height) :
      e.InView ⟨c.width / 2 + c.zoom * (x - width / 2),
        c.height / 2 + c.zoom * (y - height / 2)⟩ := by
    obtain ⟨hw, hh, -, -⟩ := c.position_recenter ⟨width / 2, height / 2⟩
    rw [InView, hw, hh]
    exact ⟨mem_Icc_of_fits hzoom hacross hx hx', mem_Icc_of_fits hzoom hdown hy hy'⟩
  have hcorner (a x extent half : ℚ) :
      a + c.zoom * (x - half) + c.zoom * extent = a + c.zoom * (x + extent - half) := by ring
  refine ⟨_, c.background?_recenter style selected d _, Recorded.within_of_corners
    (hview hleft (by linarith) htop (by linarith)) ?_⟩
  rw [hcorner, hcorner]
  exact hview (by linarith) hright (by linarith) hbottom

theorem zoom_setZoom (zoom : ℚ) :
    (c.setZoom zoom).zoom = min (max c.minZoom zoom) c.maxZoom := by
  rw [← greater_eq_max, ← lesser_eq_min]
  change (c.zoomTo zoom).zoom = Scalar.clamp zoom c.minZoom c.maxZoom
  unfold zoomTo
  dsimp only
  split
  next hsame => exact (beq_iff_eq.mp hsame).symm
  next => rfl

theorem zoomToFit_eq {width height margin : ℚ} (hwidth : 0 < width) (hheight : 0 < height) :
    c.zoomToFit width height margin =
      .ok (c.setZoom (margin * min (c.width / width) (c.height / height))) := by
  have hw : ¬width ≤ 0.0 := by rw [zero]; exact not_le.mpr hwidth
  have hh : ¬height ≤ 0.0 := by rw [zero]; exact not_le.mpr hheight
  simp only [zoomToFit, hw, hh, decide_false, Bool.or_self, Bool.false_eq_true, ↓reduceIte,
    Scalar.divide_of_not_le hw, Scalar.divide_of_not_le hh, Effect.ok_bind, ← lesser_eq_min]
  rfl

/-- An extent that the wanted zoom brings within the margin fits, if the least zoom does not zoom
closer. -/
theorem zoom_setZoom_mul_le {wanted extent full : ℚ} (hextent : 0 < extent)
    (hmin : c.minZoom ≤ wanted) (hwanted : wanted ≤ full / extent) :
    (c.setZoom wanted).zoom * extent ≤ full := by
  have hzoom : (c.setZoom wanted).zoom ≤ wanted := by
    rw [zoom_setZoom, max_eq_right hmin]
    exact min_le_left _ _
  exact (le_div_iff₀ hextent).mp (hzoom.trans hwanted)

end Camera

theorem Layout.Fits.sized {style : ViewStyle ℚ} {l : Layout ℚ} {drawings : List (VertexDrawing ℚ)}
    (h : l.Fits style drawings) {width height : ℚ}
    (hboxes : ∀ entry ∈ l.boxes, entry.2.width = width ∧ entry.2.height = height) :
    ∀ d ∈ drawings, d.width = width ∧ d.height = height := by
  intro d hd
  obtain ⟨box, hbox, hfills⟩ := h.boxes d hd
  obtain ⟨hwidth, hheight⟩ := hboxes _ (mem_of_lookup hbox)
  exact ⟨hfills.width.trans hwidth, hfills.height.trans hheight⟩

theorem VertexBoxes.measureVertex_blank (measure : Measure Id ℚ) (style : VertexStyle ℚ) :
    measureVertex (m := Id) measure style [] =
      ⟨0, 0, 2 * style.paddingHorizontal, 2 * style.paddingVertical⟩ := by
  have hnone : (Scalar.ofInt 0 : ℚ) = 0 := rfl
  simp [measureVertex, measureLines, zero, two, hnone]
  rfl

namespace View

theorem centerOf_root {α : Type} [Scalar α] {v : View α} (hc : v.camera.Sound) {g : Graph}
    {l : Layout α} {r : Nat} {box : LayoutBox α} (hroot : g.root? = some r)
    (hbox : l.box? (g.idOf (.inside r)) = some box) :
    v.centerOf (some g) l =
      .ok ⟨box.x, box.y + v.camera.height / 2.0 / v.camera.zoom - box.height⟩ := by
  simp only [centerOf, Option.bind_some, hroot, hbox, Scalar.divide_of_not_le hc.zoom,
    Effect.ok_bind]
  rfl

/-- Zooming to fit shows the middle of the layout in the middle. -/
theorem zoomToFit_eq {v : View ℚ} {l : Layout ℚ} (hlayout : v.layout = some l)
    (hextent : 0 < l.width ∧ 0 < l.height) :
    v.zoomToFit = .ok { v with
      camera := (v.camera.setZoom (9 / 10 * min (v.camera.width / l.width)
        (v.camera.height / l.height))).recenter ⟨l.width / 2, l.height / 2⟩ } := by
  have hmargin : (Camera.fitMargin : ℚ) = 9 / 10 := by
    rw [Camera.fitMargin, literal]
    norm_num
  simp only [zoomToFit, hlayout, hmargin, Camera.zoomToFit_eq _ hextent.1 hextent.2, two]
  rfl

namespace Ledger

variable [ExactRoots] {s : Ledger ℚ} {l : Layout ℚ} {ref r : Nat} {c : Camera ℚ}

def padded (padding gap : ℚ) : ViewStyle ℚ :=
  { (.standard : ViewStyle ℚ) with
    nodeSpacing := gap
    vertex := { (.standard : VertexStyle ℚ) with paddingHorizontal := padding } }

omit [ExactRoots] in
theorem measureVertex_padded (measure : Measure Id ℚ) (padding gap : ℚ) :
    measureVertex (m := Id) measure (padded padding gap).vertex [] = ⟨0, 0, 2 * padding, 40⟩ := by
  have htall : (40 : ℚ) = 2 * (padded padding gap).vertex.paddingVertical := by
    norm_num [padded, ViewStyle.standard, VertexStyle.standard, literal]
  rw [measureVertex_blank, htall]
  rfl

/-- A graph of so many vertices without texts is made and shown. -/
def showing (padding gap : ℚ) (count : Nat) : Ledger ℚ :=
  (start (Camera.resting 800 600 1) (padded padding gap) standardDragThreshold
    standardClickSuppression).goAll
    (.deed (.happens (.create .nothing)) ::
      List.replicate count (.deed (.happens (.alter 0 .addVertex))) ++
      [.deed (.happens (.setGraph (some 0)))])

/-- Every vertex at the origin of its part. -/
def piled : LayoutEngine ℚ :=
  ⟨Layout.connected, Layout.connected_partitions, fun _ => .ok fun _ => ⟨⟨0, 0⟩, 0⟩⟩

def laying (padding gap : ℚ) (count : Nat) : Ledger ℚ :=
  (showing padding gap count).go (.deed (.preprocess piled RecordingSurface.measure))

theorem reached_laying (padding gap : ℚ) (count : Nat) : (laying padding gap count).Reached :=
  ((Reached.start (Camera.sound_resting _ _ (by norm_num)) _ standardDragThreshold
    standardClickSuppression).goAll _).go _

omit [ExactRoots] in
/-- Two vertices without edges are put side by side, in the order of their numbers. -/
theorem ofGraph_twins (gap rankSpacing : ℚ) {sizes : Layout.Sizes ℚ} {size : Size ℚ}
    (hsizes : sizes = [(1, size), (0, size)]) :
    Layout.ofGraph piled ⟨[⟨0, [], false⟩, ⟨1, [], false⟩], [], none, .nothing⟩ sizes gap
        rankSpacing =
      .ok ⟨[(0, ⟨size.width / 2, size.height / 2, size.width, size.height, 0⟩),
        (1, ⟨size.width / 2 + (size.width + gap), size.height / 2, size.width, size.height, 0⟩)],
        max (size.width + gap + size.width) 0, max 0 size.height⟩ := by
  let part (id : Int) : Component ℚ := ⟨[id], [], Layout.sizeIn sizes, [id], gap, rankSpacing⟩
  have hdups : [(0 : Int), 1].eraseDups = [0, 1] := by decide
  have hsorted : [[(0 : Int)], [1]].mergeSort (fun a b => a.head?.getD 0 ≤ b.head?.getD 0) =
      [[0], [1]] := List.mergeSort_of_pairwise (by simp)
  have hparts : Layout.partsOf Layout.connected
      ⟨[⟨0, [], false⟩, ⟨1, [], false⟩], [], none, .nothing⟩ sizes gap rankSpacing [] =
        [part 0, part 1] := by
    simp [Layout.partsOf, Layout.parts, hdups, Layout.components, Layout.connected,
      Layout.ascending, Layout.roots, Graph.root?, Graph.idOf, hsorted, part]
  have hsizeOf : Layout.sizeIn sizes 0 = size ∧ Layout.sizeIn sizes 1 = size := by
    rw [hsizes]
    exact ⟨rfl, rfl⟩
  refine (Layout.ofGraph_of_placed (by decide) rfl (by simp [hsizes]) rfl hparts rfl).trans ?_
  simp [Layout.Row.push, part, hsizeOf, Scalar.least, Scalar.greatest, greater_eq_max, two, zero]
  congr 1
  ring

/-- A graph of one vertex, which is its root. -/
def lone : Ledger ℚ := laying 10 40 1

theorem reached_lone : lone.Reached := reached_laying 10 40 1

theorem lone_shown : lone.view.graph = some 0 ∧ lone.view.style = padded 10 40 ∧
    lone.view.layout = some ⟨[(0, ⟨10, 20, 20, 40, 0⟩)], 20, 40⟩ := by
  let s := showing 10 40 1
  have hl : (s.view.laidOut piled RecordingSurface.measure (s.graphs.graph 0)).1 =
      .ok ⟨[(0, ⟨10, 20, 20, 40, 0⟩)], 20, 40⟩ := by
    change Layout.ofGraph piled ⟨[⟨0, [], false⟩], [], none, .nothing⟩
      [(0, ⟨(measureVertex (m := Id) _ (padded 10 40).vertex []).width,
        (measureVertex (m := Id) _ (padded 10 40).vertex []).height⟩)] 40 _ = _
    rw [measureVertex_padded]
    refine (Layout.ofGraph_alone (x := ⟨0, [], false⟩) (by decide) .nothing rfl).trans ?_
    simp [Layout.Row.push, Layout.alone, Layout.sizeIn, Scalar.least, Scalar.greatest,
      greater_eq_max, two, zero]
    norm_num
  exact go_preprocess_shown rfl rfl rfl rfl hl

theorem lone_centering : lone.view.style.vertex.centering = true := by
  rw [lone_shown.2.1]
  rfl

theorem lone_sized : ∀ d ∈ lone.view.boxes.drawings, d.width = 20 ∧ d.height = 40 := by
  obtain ⟨-, -, hlayout⟩ := lone_shown
  refine (reached_lone.fitted.fits _ hlayout).sized fun entry hentry => ?_
  obtain rfl := List.mem_singleton.mp hentry
  exact ⟨rfl, rfl⟩

/-- Two vertices without texts are laid out side by side. -/
theorem twins_shown {padding gap : ℚ} (h : 0 ≤ 2 * padding + gap + 2 * padding) :
    let s := laying padding gap 2
    s.view.graph = some 0 ∧ s.view.style = padded padding gap ∧
      s.view.layout = some ⟨[(0, ⟨padding, 20, 2 * padding, 40, 0⟩),
        (1, ⟨padding + (2 * padding + gap), 20, 2 * padding, 40, 0⟩)],
        2 * padding + gap + 2 * padding, 40⟩ := by
  intro s
  let s₀ := showing padding gap 2
  have hl : (s₀.view.laidOut piled RecordingSurface.measure (s₀.graphs.graph 0)).1 = .ok
      ⟨[(0, ⟨padding, 20, 2 * padding, 40, 0⟩),
        (1, ⟨padding + (2 * padding + gap), 20, 2 * padding, 40, 0⟩)],
        2 * padding + gap + 2 * padding, 40⟩ := by
    change Layout.ofGraph piled ⟨[⟨0, [], false⟩, ⟨1, [], false⟩], [], none, .nothing⟩
      [(1, ⟨(measureVertex (m := Id) _ (padded padding gap).vertex []).width,
        (measureVertex (m := Id) _ (padded padding gap).vertex []).height⟩),
       (0, ⟨(measureVertex (m := Id) _ (padded padding gap).vertex []).width,
        (measureVertex (m := Id) _ (padded padding gap).vertex []).height⟩)] gap _ = _
    rw [measureVertex_padded]
    refine (ofGraph_twins gap _ rfl).trans ?_
    norm_num [max_eq_left h]
  exact go_preprocess_shown rfl rfl rfl rfl hl

/-- Where recentering shows the root. -/
theorem Reached.recenter_root (h : s.Reached) (hgraph : s.view.graph = some ref)
    (hlayout : s.view.layout = some l) (hroot : (s.graphs.graph ref).root? = some r)
    (hlaid : r < l.size) (hc : c.Sound) (selected : Nat → Bool) :
    let style := s.view.style.vertex
    ∃ p d box, ({ s.view with camera := c } : View ℚ).recenter s.graphs =
        .ok { s.view with camera := c.recenter p } ∧
      s.view.boxes.find? r = some d ∧ l.box? r = some box ∧ d.Fills style box ∧
      background? (c.recenter p).matrix style selected d =
        some (.rect (c.width / 2 - (if style.centering then c.zoom * d.width / 2 else 0))
          (if style.centering then c.zoom * d.height / 2 else c.zoom * d.height)
          (c.zoom * d.width) (c.zoom * d.height) style.backgroundColor) := by
  intro style
  have hfits := h.fitted.fits l hlayout
  obtain ⟨d, hfind, hd, rfl⟩ := VertexBoxes.find?_of_mem
    (hfits.vertices.symm ▸ List.mem_range.mpr hlaid : r ∈ s.view.boxes.drawings.map _)
  obtain ⟨box, hbox, hfills⟩ := hfits.boxes d hd
  have hid := h.fitted.numbered l ref hlayout hgraph d.vertex hlaid
  let v : View ℚ := { s.view with camera := c }
  have hcenter : v.centerOf (v.shown? s.graphs) l =
      .ok ⟨box.x, box.y + c.height / 2.0 / c.zoom - box.height⟩ := by
    rw [shown?, hgraph, Option.map_some]
    exact centerOf_root hc hroot (hid ▸ hbox)
  refine ⟨_, d, box, recenter_eq hlayout hcenter, hfind, hbox, hfills, ?_⟩
  have hzoom : c.zoom ≠ 0 := hc.zoom_pos.ne'
  rw [Camera.background?_recenter, hfills.x, hfills.y, ← hfills.height, two, Option.some.injEq,
    Recorded.rect.injEq]
  change _ = c.width / 2 - (if s.view.style.vertex.centering then _ else 0) ∧ _
  split
  · refine ⟨?_, ?_, rfl, rfl, rfl⟩ <;> field_simp <;> ring
  · refine ⟨?_, ?_, rfl, rfl, rfl⟩ <;> field_simp <;> ring

/-- Recentering a view of a graph whose root is laid out does not fail, moves nothing but the
camera, and shows the root in the middle of the viewport from left to right, if layout coordinates
are the centers of boxes. The root is in view, at least in part, exactly if it is shown at most
twice as high as the viewport; or at most as high, if layout coordinates are corners. -/
theorem Reached.recenter_shows (h : s.Reached) (hgraph : s.view.graph = some ref)
    (hlayout : s.view.layout = some l) (hroot : (s.graphs.graph ref).root? = some r)
    (hlaid : r < l.size) (hc : c.Sound) (hwidth : 0 < c.width) (selected : Nat → Bool) :
    let style := s.view.style.vertex
    ∃ p d, ({ s.view with camera := c } : View ℚ).recenter s.graphs =
        .ok { s.view with camera := c.recenter p } ∧
      s.view.boxes.find? r = some d ∧
      ∃ call ∈ background? (c.recenter p).matrix style selected d,
        (call.Centered (c.recenter p) ↔ style.centering = true ∨ d.width = 0) ∧
        (call.Meets (c.recenter p) ↔
          0 ≤ d.height ∧ c.zoom * d.height ≤ (if style.centering then 2 else 1) * c.height) := by
  dsimp only
  obtain ⟨p, d, -, hrecenter, hfind, -, -, hcall⟩ :=
    h.recenter_root hgraph hlayout hroot hlaid hc selected
  obtain ⟨hw, hh, -, -⟩ := c.position_recenter p
  refine ⟨p, d, hrecenter, hfind, _, hcall, ?_, ?_⟩
  · rw [← hw, Recorded.centered_iff, mul_eq_zero, or_iff_right hc.zoom_pos.ne']
  · rw [← hw, ← hh, Recorded.meets_iff (hw ▸ hwidth), mul_nonneg_iff_of_pos_left hc.zoom_pos]

omit [ExactRoots] in
theorem lone_recenter_shows :
    let _ := ExactRoots.ofSquares
    let c := Camera.resting 800 600 1
    lone.Reached ∧ c.Sound ∧ lone.view.graph = some 0 ∧ (lone.graphs.graph 0).root? = some 0 ∧
    ∃ p d, ({ lone.view with camera := c } : View ℚ).recenter lone.graphs =
        .ok { lone.view with camera := c.recenter p } ∧
      ∃ call ∈ background? (c.recenter p).matrix lone.view.style.vertex (fun _ => false) d,
        call.Centered (c.recenter p) ∧ call.Meets (c.recenter p) := by
  intro _ c
  have hc : c.Sound := Camera.sound_resting _ _ (by norm_num)
  have hroot : (lone.graphs.graph 0).root? = some 0 := rfl
  obtain ⟨hgraph, -, hlayout⟩ := lone_shown
  obtain ⟨p, d, hrecenter, hfind, call, hcall, hcentered, hmeets⟩ :=
    reached_lone.recenter_shows hgraph hlayout hroot Nat.zero_lt_one hc
      (show (0 : ℚ) < 800 by norm_num) fun _ => false
  have hheight : d.height = 40 := (lone_sized d (mem_of_find? hfind)).2
  refine ⟨reached_lone, hc, hgraph, hroot, p, d, hrecenter, call, hcall,
    hcentered.mpr (.inl lone_centering),
    hmeets.mpr ?_⟩
  rw [lone_centering, hheight]
  norm_num [c, Camera.resting]

omit [ExactRoots] in
/-- A root that is shown more than twice as high as the viewport is below it after recentering. -/
theorem magnified_root_is_hidden :
    let _ := ExactRoots.ofSquares
    let c := Camera.resting 800 60 5
    lone.Reached ∧ (c.Sound ∧ c.minZoom ≤ c.zoom ∧ c.zoom ≤ c.maxZoom) ∧
    lone.view.graph = some 0 ∧ (lone.graphs.graph 0).root? = some 0 ∧
    ∃ p d, ({ lone.view with camera := c } : View ℚ).recenter lone.graphs =
        .ok { lone.view with camera := c.recenter p } ∧ lone.view.boxes.find? 0 = some d ∧
      ∃ call ∈ background? (c.recenter p).matrix lone.view.style.vertex (fun _ => false) d,
        ¬call.Meets (c.recenter p) := by
  intro _ c
  have hc : c.Sound := Camera.sound_resting _ _ (by norm_num)
  have hroot : (lone.graphs.graph 0).root? = some 0 := rfl
  obtain ⟨hgraph, -, hlayout⟩ := lone_shown
  obtain ⟨p, d, -, hrecenter, hfind, -, -, hcall⟩ :=
    reached_lone.recenter_root hgraph hlayout hroot Nat.zero_lt_one hc fun _ => false
  have hheight : d.height = 40 := (lone_sized d (mem_of_find? hfind)).2
  refine ⟨reached_lone, ⟨hc, ?_, ?_⟩, hgraph, hroot, p, d, hrecenter, hfind, _, hcall, ?_⟩
  · norm_num [c, Camera.resting]
  · norm_num [c, Camera.resting]
  obtain ⟨hw, hh, -, -⟩ := c.position_recenter p
  rw [← hw, Recorded.meets_iff (hw ▸ (show (0 : ℚ) < 800 by norm_num)), hh, lone_centering,
    hheight]
  norm_num [c, Camera.resting]

/-- Zooming to fit does not fail, moves nothing but the camera, and shows the box of every vertex,
whole, wherever the camera was, if layout coordinates are the centers of boxes, no box and no gap
between them is negative, and the zoom at which nine tenths of the viewport are full is allowed. -/
theorem Reached.zoomToFit_shows (h : s.Reached) (hlayout : s.view.layout = some l)
    (hcentering : s.view.style.vertex.centering = true) (hgap : 0 ≤ s.view.style.nodeSpacing)
    (hsizes : ∀ d ∈ s.view.boxes.drawings, 0 ≤ d.width ∧ 0 ≤ d.height)
    (hextent : 0 < l.width ∧ 0 < l.height) (hc : c.Sound)
    (hmin : c.minZoom ≤ 9 / 10 * min (c.width / l.width) (c.height / l.height))
    (selected : Nat → Bool) :
    ∃ e, ({ s.view with camera := c } : View ℚ).zoomToFit = .ok { s.view with camera := e } ∧
      (e.width = c.width ∧ e.height = c.height) ∧
      s.view.boxes.drawings.map VertexDrawing.vertex = List.range l.size ∧
      ∀ d ∈ s.view.boxes.drawings,
        ∃ call ∈ background? e.matrix s.view.style.vertex selected d, call.Within e := by
  have hfits := h.fitted.fits l hlayout
  let wanted := 9 / 10 * min (c.width / l.width) (c.height / l.height)
  let e := c.setZoom wanted
  have hwanted {extent full : ℚ}
      (h : min (c.width / l.width) (c.height / l.height) ≤ full / extent) :
      wanted ≤ 9 / 10 * full / extent := by
    rw [mul_div_assoc]
    exact mul_le_mul_of_nonneg_left h (by norm_num)
  have hacross : e.zoom * l.width ≤ 9 / 10 * c.width :=
    c.zoom_setZoom_mul_le hextent.1 hmin (hwanted (min_le_left _ _))
  have hdown : e.zoom * l.height ≤ 9 / 10 * c.height :=
    c.zoom_setZoom_mul_le hextent.2 hmin (hwanted (min_le_right _ _))
  have hstays := c.stays_setZoom wanted
  have hzoom := ((c.moves_setZoom wanted).sound hc).zoom_pos
  obtain ⟨hw, hh, -, -⟩ := e.position_recenter ⟨l.width / 2, l.height / 2⟩
  refine ⟨_, zoomToFit_eq (v := { s.view with camera := c }) hlayout hextent,
    ⟨hw.trans hstays.width, hh.trans hstays.height⟩, hfits.vertices, fun d hd => ?_⟩
  rw [← hstays.width] at hacross
  rw [← hstays.height] at hdown
  exact Camera.within_recenter _ selected hzoom hacross hdown
    (hfits.inside hcentering hgap hsizes hd) (hsizes d hd)

omit [ExactRoots] in
/-- Two vertices beside each other, with a gap between them, fill nine tenths of the viewport. -/
theorem twins_zoomToFit_shows :
    let _ := ExactRoots.ofSquares
    let s := laying 10 40 2
    let c := Camera.resting 400 600 1
    ∃ l, s.view.layout = some l ∧
      (s.view.style.vertex.centering = true ∧ 0 ≤ s.view.style.nodeSpacing) ∧
      (∀ d ∈ s.view.boxes.drawings, 0 ≤ d.width ∧ 0 ≤ d.height) ∧
      (0 < l.width ∧ 0 < l.height) ∧
      (s.Reached ∧ c.Sound ∧
        c.minZoom ≤ 9 / 10 * min (c.width / l.width) (c.height / l.height)) ∧
      ∃ e, ({ s.view with camera := c } : View ℚ).zoomToFit =
          .ok { s.view with camera := e } ∧
        s.view.boxes.drawings.map VertexDrawing.vertex = [0, 1] ∧
        ∀ d ∈ s.view.boxes.drawings, ∃ call ∈ background? e.matrix s.view.style.vertex
          (fun _ => false) d, call.Within e := by
  intro _ s c
  have hc : c.Sound := Camera.sound_resting _ _ (by norm_num)
  have hs : s.Reached := reached_laying 10 40 2
  have hwide : (0 : ℚ) ≤ 2 * 10 + 40 + 2 * 10 := by norm_num
  obtain ⟨-, hstyle, hlayout⟩ := twins_shown hwide
  have hcentering : s.view.style.vertex.centering = true := by
    rw [hstyle]
    rfl
  have hgap : 0 ≤ s.view.style.nodeSpacing := by
    rw [hstyle]
    norm_num [padded]
  have hsizes : ∀ d ∈ s.view.boxes.drawings, 0 ≤ d.width ∧ 0 ≤ d.height := by
    intro d hd
    obtain ⟨hwidth, hheight⟩ : d.width = 2 * 10 ∧ d.height = 40 :=
      (hs.fitted.fits _ hlayout).sized (by simp) d hd
    rw [hwidth, hheight]
    norm_num
  have hextent : (0 : ℚ) < 2 * 10 + 40 + 2 * 10 ∧ (0 : ℚ) < 40 := ⟨by norm_num, by norm_num⟩
  have hmin : c.minZoom ≤ 9 / 10 * min (c.width / (2 * 10 + 40 + 2 * 10)) (c.height / 40) := by
    norm_num [c, Camera.resting]
  obtain ⟨e, hfit, -, hvertices, hwithin⟩ :=
    hs.zoomToFit_shows hlayout hcentering hgap hsizes hextent hc hmin fun _ => false
  exact ⟨_, hlayout, ⟨hcentering, hgap⟩, hsizes, hextent, ⟨hs, hc, hmin⟩, e, hfit, hvertices,
    hwithin⟩

/-- Zooming to fit is allowed the margin, and yet leaves some box outside the viewport in part. -/
def Overflows (s : Ledger ℚ) (c : Camera ℚ) : Prop :=
  ∃ l, s.view.layout = some l ∧ s.view.style.vertex.centering = true ∧
    (0 < l.width ∧ 0 < l.height) ∧
    (c.Sound ∧ c.minZoom ≤ 9 / 10 * min (c.width / l.width) (c.height / l.height)) ∧
    ∃ e, ({ s.view with camera := c } : View ℚ).zoomToFit = .ok { s.view with camera := e } ∧
      ∃ d ∈ s.view.boxes.drawings, ∃ call ∈ background? e.matrix s.view.style.vertex
        (fun _ => false) d, ¬call.Within e

/-- A box overflows if its right edge is shown outside the viewport. -/
theorem Reached.overflows (h : s.Reached) (hlayout : s.view.layout = some l)
    (hcentering : s.view.style.vertex.centering = true) (hextent : 0 < l.width ∧ 0 < l.height)
    (hc : c.Sound) (hmin : c.minZoom ≤ 9 / 10 * min (c.width / l.width) (c.height / l.height))
    {i : Nat} (hlaid : i < l.size) {box : LayoutBox ℚ} (hbox : l.box? i = some box)
    (hfar : c.width / 2 +
      (c.setZoom (9 / 10 * min (c.width / l.width) (c.height / l.height))).zoom *
        (box.x + box.width / 2 - l.width / 2) ∉ Set.Icc 0 c.width) : s.Overflows c := by
  have hfits := h.fitted.fits l hlayout
  obtain ⟨d, -, hd, rfl⟩ := VertexBoxes.find?_of_mem
    (hfits.vertices.symm ▸ List.mem_range.mpr hlaid : i ∈ s.view.boxes.drawings.map _)
  obtain ⟨box', hbox', hfills⟩ := hfits.boxes d hd
  obtain rfl : box = box' := Option.some.inj (hbox.symm.trans hbox')
  let e := c.setZoom (9 / 10 * min (c.width / l.width) (c.height / l.height))
  obtain ⟨hw, -, -, -⟩ := e.position_recenter ⟨l.width / 2, l.height / 2⟩
  have hwidth : e.width = c.width := (c.stays_setZoom _).width
  refine ⟨l, hlayout, hcentering, hextent, ⟨hc, hmin⟩, _,
    zoomToFit_eq (v := { s.view with camera := c }) hlayout hextent, d, hd, _,
    Camera.background?_recenter e s.view.style.vertex _ d _, Recorded.not_within_of_corner ?_⟩
  have hend : e.width / 2 + e.zoom * (d.x - l.width / 2) + e.zoom * d.width =
      c.width / 2 + e.zoom * (box.x + box.width / 2 - l.width / 2) := by
    rw [hfills.x, if_pos hcentering, hfills.width, hwidth, two]
    ring
  rw [hend]
  exact fun hin => hfar ⟨hin.1, hin.2.trans (hw.trans hwidth).le⟩

omit [ExactRoots] in
/-- Boxes overflow if the gap between them is negative, and if they are. -/
theorem crowded_overflow :
    let _ := ExactRoots.ofSquares
    ((laying 10 (-39) 2).Reached ∧ (laying 10 (-39) 2).Overflows (Camera.resting 50 600 1)) ∧
      (laying (-10) 60 2).Reached ∧ (laying (-10) 60 2).Overflows (Camera.resting 100 400 1) := by
  intro _
  have htwins (extent : ℚ) {padding gap : ℚ} {c : Camera ℚ} (hc : c.Sound)
      (hextent : 2 * padding + gap + 2 * padding = extent) (hpositive : 0 < extent)
      (hmin : c.minZoom ≤ 9 / 10 * min (c.width / extent) (c.height / 40))
      (hfar : c.width / 2 + (c.setZoom (9 / 10 * min (c.width / extent) (c.height / 40))).zoom *
        (padding + 2 * padding / 2 - extent / 2) ∉ Set.Icc 0 c.width) :
      (laying padding gap 2).Reached ∧ (laying padding gap 2).Overflows c := by
    subst hextent
    obtain ⟨-, hstyle, hlayout⟩ := twins_shown hpositive.le
    have hs := reached_laying padding gap 2
    refine ⟨hs, hs.overflows hlayout ?_ ⟨hpositive, by norm_num⟩ hc hmin Nat.zero_lt_two rfl hfar⟩
    rw [hstyle]
    rfl
  refine ⟨htwins 1 (Camera.sound_resting _ _ (by norm_num)) ?_ ?_ ?_ ?_,
    htwins 20 (Camera.sound_resting _ _ (by norm_num)) ?_ ?_ ?_ ?_⟩
  all_goals norm_num [Camera.zoom_setZoom, Camera.resting]

end Ledger

end View

end DebugDesk
