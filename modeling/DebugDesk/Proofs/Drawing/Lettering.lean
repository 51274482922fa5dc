import Mathlib.Algebra.Order.BigOperators.Group.List
import Mathlib.Tactic.Linarith
import Mathlib.Tactic.Ring
import DebugDesk.Proofs.Number.Exact
import DebugDesk.Proofs.View.Drawing

/-!
# Text in its box

A box is measured in one pass over the lines of its vertex, and its runs are placed in another. Over
exact coordinates the two agree: if the paddings have room for what stands above and below a
baseline, every run is inside its box, and none covers a part of another.
-/
namespace DebugDesk

open Exact VertexBoxes

def runSize (measure : Measure Id ℚ) (style : VertexStyle ℚ) (run : TextRun) : TextMetrics ℚ :=
  measure run.text (fontOf style run) style.fontSize

def MeasuresNonneg (measure : Measure Id ℚ) (style : VertexStyle ℚ) : Prop :=
  ∀ text font, let size := measure text font style.fontSize
    0 ≤ size.width ∧ 0 ≤ size.ascent ∧ 0 ≤ size.descent

namespace PlacedRun

variable (measure : Measure Id ℚ) (style : VertexStyle ℚ)

def size (r : PlacedRun ℚ) : TextMetrics ℚ := runSize measure style r.run

/-- The points inside the rectangle of a run, without those of its sides. -/
def Holds (r : PlacedRun ℚ) (p : Point ℚ) : Prop :=
  (r.x < p.x ∧ p.x < r.x + (r.size measure style).width) ∧
    r.y - (r.size measure style).ascent < p.y ∧ p.y < r.y + (r.size measure style).descent

/-- Whether no point is inside the rectangles of both of two runs. -/
def Apart (r s : PlacedRun ℚ) : Prop := ∀ p, ¬(r.Holds measure style p ∧ s.Holds measure style p)

/-- Whether the rectangle of a run is within a box. -/
structure Within (d : VertexDrawing ℚ) (r : PlacedRun ℚ) : Prop where
  left : d.x ≤ r.x
  right : r.x + (r.size measure style).width ≤ d.right
  top : d.y ≤ r.y - (r.size measure style).ascent
  bottom : r.y + (r.size measure style).descent ≤ d.bottom

variable {measure style} {r s : PlacedRun ℚ}

theorem apart_of_left (h : r.x + (r.size measure style).width ≤ s.x) : r.Apart measure style s := by
  rintro p ⟨⟨⟨-, hr⟩, -⟩, ⟨hs, -⟩, -⟩
  exact lt_irrefl p.x (hr.trans (h.trans_lt hs))

theorem apart_of_above
    (h : r.y + (r.size measure style).descent ≤ s.y - (s.size measure style).ascent) :
    r.Apart measure style s := by
  rintro p ⟨⟨-, -, hr⟩, -, hs, -⟩
  exact lt_irrefl p.y (hr.trans (h.trans_lt hs))

end PlacedRun

namespace VertexBoxes

variable (measure : Measure Id ℚ) (style : VertexStyle ℚ)

def sizes (lines : List TextLine) : List (TextMetrics ℚ) :=
  lines.flatMap fun line => lineSizes (m := Id) measure style line

def ascent (lines : List TextLine) : ℚ :=
  Scalar.greatest 0.0 ((sizes measure style lines).map TextMetrics.ascent)

def descent (lines : List TextLine) : ℚ :=
  Scalar.greatest 0.0 ((sizes measure style lines).map TextMetrics.descent)

/-- Whether the paddings have room for lines: for what is above the first one, below the last one,
and between two. -/
structure Roomy (lines : List TextLine) : Prop where
  horizontal : 0 ≤ style.paddingHorizontal
  vertical : 0 ≤ style.paddingVertical
  line : 0 ≤ style.paddingLine
  above : ascent measure style lines ≤ style.paddingVertical + style.paddingLine
  below : style.paddingLine + descent measure style lines ≤ style.paddingVertical
  between : ascent measure style lines + descent measure style lines ≤
    (measureVertex (m := Id) measure style lines).fontHeight + style.paddingLine

variable {measure style}

theorem lineSizes_eq {line : TextLine} (h : line ≠ []) :
    lineSizes (m := Id) measure style line = line.map (runSize measure style) := by
  cases line with
  | nil => exact absurd rfl h
  | cons run line => exact List.idRun_mapM

theorem runSize_mem_sizes {lines : List TextLine} {line : TextLine} (hline : line ∈ lines)
    {run : TextRun} (hrun : run ∈ line) :
    runSize measure style run ∈ sizes measure style lines := by
  refine List.mem_flatMap.mpr ⟨line, hline, ?_⟩
  rw [lineSizes_eq (List.ne_nil_of_mem hrun)]
  exact List.mem_map_of_mem hrun

theorem le_greatest_sizes {lines : List TextLine} {line : TextLine} (hline : line ∈ lines)
    {run : TextRun} (hrun : run ∈ line) (extent : TextMetrics ℚ → ℚ) :
    extent (runSize measure style run) ≤
      Scalar.greatest 0.0 ((sizes measure style lines).map extent) := by
  have hmem : extent (runSize measure style run) ∈ (sizes measure style lines).map extent :=
    List.mem_map_of_mem (runSize_mem_sizes hline hrun)
  exact (isGreatest_greatest _ (List.ne_nil_of_mem hmem)).2 hmem

theorem sum_eq (xs : List ℚ) : Scalar.sum xs = xs.sum := by
  rw [Scalar.sum, zero, List.sum_eq_foldl]

theorem le_greater_left (a b : ℚ) : a ≤ Scalar.greater a b := by
  rw [greater_eq_max]
  exact le_max_left a b

theorem le_greater_right (a b : ℚ) : b ≤ Scalar.greater a b := by
  rw [greater_eq_max]
  exact le_max_right a b

variable (measure style) in
/-- Measured lines are as wide as each of them, and no less high than given. -/
theorem le_measureLines (width height : ℚ) (lines : List TextLine) :
    let r := measureLines (m := Id) measure style width height lines
    width ≤ r.1 ∧ height ≤ r.2 ∧ ∀ line ∈ lines,
      Scalar.sum (List.map TextMetrics.width (lineSizes (m := Id) measure style line)) ≤ r.1 := by
  induction lines generalizing width height with
  | nil => exact ⟨le_rfl, le_rfl, fun _ h => nomatch h⟩
  | cons line lines ih =>
    obtain ⟨hwidth, hheight, hlines⟩ := ih
      (Scalar.greater width
        (Scalar.sum (List.map TextMetrics.width (lineSizes (m := Id) measure style line))))
      (Scalar.greater height (Scalar.greatest 0.0
        (List.map TextMetrics.height (lineSizes (m := Id) measure style line))))
    exact ⟨(le_greater_left _ _).trans hwidth, (le_greater_left _ _).trans hheight,
      List.forall_mem_cons.mpr ⟨(le_greater_right _ _).trans hwidth, hlines⟩⟩

variable (measure style) in
theorem sum_widths_le {lines : List TextLine} {line : TextLine} (hline : line ∈ lines)
    (hruns : line ≠ []) :
    (line.map fun run => (runSize measure style run).width).sum ≤
      (measureVertex (m := Id) measure style lines).contentWidth := by
  have hle := (le_measureLines measure style 0.0 0.0 lines).2.2 line hline
  rw [lineSizes_eq hruns, List.map_map, sum_eq] at hle
  exact hle

theorem fontHeight_nonneg (lines : List TextLine) :
    0 ≤ (measureVertex (m := Id) measure style lines).fontHeight :=
  zero.ge.trans (le_measureLines measure style 0.0 0.0 lines).2.1

variable (measure style) in
def row (y x : ℚ) (line : TextLine) : List (PlacedRun ℚ) :=
  placeRuns (m := Id) measure style y x line

theorem row_cons (y x : ℚ) (run : TextRun) (line : TextLine) :
    row measure style y x (run :: line) =
      ⟨x, y, run⟩ :: row measure style y (x + (runSize measure style run).width) line := rfl

theorem map_run_row (y x : ℚ) (line : TextLine) :
    (row measure style y x line).map PlacedRun.run = line := by
  induction line generalizing x with
  | nil => rfl
  | cons run line ih => rw [row_cons, List.map_cons, ih]

theorem mem_of_mem_row {y x : ℚ} {line : TextLine} {r : PlacedRun ℚ}
    (hr : r ∈ row measure style y x line) : r.run ∈ line := by
  have hrun := List.mem_map_of_mem (f := PlacedRun.run) hr
  rwa [map_run_row] at hrun

theorem extents_row {lines : List TextLine} {line : TextLine} (hline : line ∈ lines) {y x : ℚ}
    {r : PlacedRun ℚ} (hr : r ∈ row measure style y x line) :
    (r.size measure style).ascent ≤ ascent measure style lines ∧
      (r.size measure style).descent ≤ descent measure style lines :=
  ⟨le_greatest_sizes hline (mem_of_mem_row hr) TextMetrics.ascent,
    le_greatest_sizes hline (mem_of_mem_row hr) TextMetrics.descent⟩

/-- A row goes from where it begins as far as its runs are wide. -/
theorem spans_row (hmeasure : MeasuresNonneg measure style) (y x : ℚ) (line : TextLine) :
    ∀ r ∈ row measure style y x line, r.y = y ∧ x ≤ r.x ∧ r.x + (r.size measure style).width ≤
      x + (line.map fun run => (runSize measure style run).width).sum := by
  induction line generalizing x with
  | nil => exact fun r hr => nomatch hr
  | cons run line ih =>
    have hwidth : 0 ≤ (runSize measure style run).width := (hmeasure _ _).1
    have hrest : 0 ≤ (line.map fun run => (runSize measure style run).width).sum := by
      refine List.sum_nonneg fun w hw => ?_
      obtain ⟨run, -, rfl⟩ := List.mem_map.mp hw
      exact (hmeasure _ _).1
    rw [row_cons, List.map_cons, List.sum_cons, List.forall_mem_cons]
    refine ⟨⟨rfl, le_rfl, ?_⟩, fun r hr => ?_⟩
    · change x + (runSize measure style run).width ≤ _
      linarith
    · obtain ⟨hy, hfirst, hlast⟩ := ih _ r hr
      exact ⟨hy, by linarith, by linarith⟩

theorem apart_row (hmeasure : MeasuresNonneg measure style) (y x : ℚ) (line : TextLine) :
    (row measure style y x line).Pairwise (PlacedRun.Apart measure style) := by
  induction line generalizing x with
  | nil => exact .nil
  | cons run line ih =>
    rw [row_cons]
    exact .cons (fun r hr => PlacedRun.apart_of_left (spans_row hmeasure y _ line r hr).2.1) (ih _)

def baseline (style : VertexStyle ℚ) (fontHeight top : ℚ) (k : Nat) : ℚ :=
  top + style.paddingVertical + Scalar.ofInt k * fontHeight +
    style.paddingLine * Scalar.ofInt (k + 1)

theorem baseline_eq (fontHeight top : ℚ) (k : Nat) : baseline style fontHeight top k =
    top + (style.paddingVertical + style.paddingLine) + k * (fontHeight + style.paddingLine) := by
  have hk : (Scalar.ofInt k : ℚ) = k := Int.cast_natCast k
  have hk' : (Scalar.ofInt (k + 1) : ℚ) = k + 1 := by
    change ((k + 1 : Int) : ℚ) = k + 1
    push_cast
    rfl
  rw [baseline, hk, hk']
  ring

variable {fontHeight : ℚ}

theorem above_baseline (hgap : 0 ≤ fontHeight + style.paddingLine) (top : ℚ) (k : Nat) :
    top + (style.paddingVertical + style.paddingLine) ≤ baseline style fontHeight top k := by
  rw [baseline_eq]
  exact le_add_of_nonneg_right (mul_nonneg (Nat.cast_nonneg k) hgap)

theorem between_baselines (hgap : 0 ≤ fontHeight + style.paddingLine) (top : ℚ) {k l : Nat}
    (hkl : k < l) : baseline style fontHeight top k + (fontHeight + style.paddingLine) ≤
      baseline style fontHeight top l := by
  have hsteps : ((k : ℚ) + 1) * (fontHeight + style.paddingLine) ≤
      l * (fontHeight + style.paddingLine) :=
    mul_le_mul_of_nonneg_right (by exact_mod_cast hkl) hgap
  rw [baseline_eq, baseline_eq]
  linarith

/-- No baseline is nearer to the bottom of the box than the padding there, less that of a line. -/
theorem below_baseline (hgap : 0 ≤ fontHeight + style.paddingLine) (top : ℚ) {k lines : Nat}
    (hk : k < lines) :
    baseline style fontHeight top k + (style.paddingVertical - style.paddingLine) ≤
      top + ((fontHeight + style.paddingLine) * Scalar.ofInt (lines - 1 : Nat) +
        2.0 * style.paddingVertical) := by
  have hsteps : (k : ℚ) * (fontHeight + style.paddingLine) ≤
      (lines - 1 : Nat) * (fontHeight + style.paddingLine) :=
    mul_le_mul_of_nonneg_right (Nat.cast_le.mpr (by omega)) hgap
  have hgaps : (Scalar.ofInt (lines - 1 : Nat) : ℚ) = (lines - 1 : Nat) := Int.cast_natCast _
  rw [baseline_eq, hgaps, two]
  linarith

/-- Whether a box has the size that is measured of lines. -/
structure Sized (style : VertexStyle ℚ) (known : VertexMetrics ℚ) (lines : Nat)
    (d : VertexDrawing ℚ) : Prop where
  right : d.right = d.x + (known.contentWidth + 2.0 * style.paddingHorizontal)
  bottom : d.bottom = d.y + ((known.fontHeight + style.paddingLine) *
    Scalar.ofInt (lines - 1 : Nat) + 2.0 * style.paddingVertical)

/-- Whether a drawing shows lines: their runs in order, each inside the box, and none on another. -/
structure Lettered (measure : Measure Id ℚ) (style : VertexStyle ℚ) (lines : List TextLine)
    (d : VertexDrawing ℚ) : Prop where
  order : d.runs.map PlacedRun.run = lines.flatten
  within : ∀ r ∈ d.runs, r.Within measure style d
  apart : d.runs.Pairwise (PlacedRun.Apart measure style)

section

variable {lines : List TextLine} (hmeasure : MeasuresNonneg measure style)
  (hroomy : Roomy measure style lines)

include hroomy in
theorem Roomy.gap_nonneg : 0 ≤
    (measureVertex (m := Id) measure style lines).fontHeight + style.paddingLine :=
  add_nonneg (fontHeight_nonneg lines) hroomy.line

include hmeasure hroomy

theorem within_row {d : VertexDrawing ℚ} {known : VertexMetrics ℚ}
    (hknown : known = measureVertex (m := Id) measure style lines)
    (hd : Sized style known lines.length d) {line : TextLine} (hline : line ∈ lines) {k : Nat}
    (hk : k < lines.length) : ∀ r ∈ row measure style (baseline style known.fontHeight d.y k)
      (d.x + style.paddingHorizontal) line, r.Within measure style d := by
  subst hknown
  intro r hr
  obtain ⟨hy, hfirst, hlast⟩ := spans_row hmeasure _ _ _ r hr
  obtain ⟨hascent, hdescent⟩ := extents_row hline hr
  have hsum := sum_widths_le measure style hline
    (List.ne_nil_of_mem (mem_of_mem_row hr))
  have habove := above_baseline hroomy.gap_nonneg d.y k
  have hbelow := below_baseline hroomy.gap_nonneg d.y hk
  have hpadding := hroomy.horizontal
  have htop := hroomy.above
  have hbottom := hroomy.below
  have hright := hd.right
  rw [two] at hright
  refine ⟨?_, ?_, ?_, ?_⟩
  · linarith
  · rw [hright]
    linarith
  · linarith
  · rw [hd.bottom]
    linarith

theorem apart_rows {known : VertexMetrics ℚ}
    (hknown : known = measureVertex (m := Id) measure style lines) {line line' : TextLine}
    (hline : line ∈ lines) (hline' : line' ∈ lines) {k l : Nat} (hkl : k < l) (x x' top : ℚ) :
    ∀ r ∈ row measure style (baseline style known.fontHeight top k) x line,
      ∀ s ∈ row measure style (baseline style known.fontHeight top l) x' line',
        r.Apart measure style s := by
  subst hknown
  intro r hr s hs
  -- What is below the one baseline and above the other fits between them.
  have hy := (spans_row hmeasure _ _ _ r hr).1
  have hy' := (spans_row hmeasure _ _ _ s hs).1
  have hdescent := (extents_row hline hr).2
  have hascent := (extents_row hline' hs).1
  have hsteps := between_baselines hroomy.gap_nonneg top hkl
  have hbetween := hroomy.between
  refine PlacedRun.apart_of_above ?_
  linarith

end

theorem runs_drawingOf (known : VertexMetrics ℚ) (i : Nat) (v : Vertex) (x y : ℚ) :
    let d : VertexDrawing ℚ := drawingOf (m := Id) measure style known i v x y
    d.runs = v.lines.zipIdx.flatMap fun e =>
      row measure style (baseline style known.fontHeight d.y e.2)
        (d.x + style.paddingHorizontal) e.1 := by
  intro d
  rw [List.flatMap_def]
  exact congrArg List.flatten List.idRun_mapM

theorem pairwise_zipIdx {β : Type} (xs : List β) : xs.zipIdx.Pairwise fun e f => e.2 < f.2 := by
  rw [← List.pairwise_map, List.zipIdx_map_snd]
  exact List.pairwise_lt_range'

/-- What is drawn by the measurements of its lines shows them. -/
theorem lettered_drawingOf (hmeasure : MeasuresNonneg measure style) {v : Vertex}
    (hroomy : Roomy measure style v.lines) {known : VertexMetrics ℚ}
    (hknown : known = measureVertex (m := Id) measure style v.lines) (i : Nat) (x y : ℚ) :
    Lettered measure style v.lines (drawingOf (m := Id) measure style known i v x y) := by
  let d : VertexDrawing ℚ := drawingOf (m := Id) measure style known i v x y
  have hruns : d.runs = v.lines.zipIdx.flatMap fun e =>
      row measure style (baseline style known.fontHeight d.y e.2)
        (d.x + style.paddingHorizontal) e.1 := runs_drawingOf known i v x y
  have hsized : Sized style known v.lines.length d := by
    subst hknown
    exact ⟨rfl, rfl⟩
  change Lettered measure style v.lines d
  refine ⟨?_, ?_, ?_⟩
  · rw [hruns, List.map_flatMap]
    simp only [map_run_row]
    rw [List.flatMap_def, List.zipIdx_map_fst]
  · intro r hr
    rw [hruns] at hr
    obtain ⟨e, he, hr⟩ := List.mem_flatMap.mp hr
    have hk : e.2 < v.lines.length := by simpa using List.snd_lt_of_mem_zipIdx he
    exact within_row hmeasure hroomy hknown hsized (List.fst_mem_of_mem_zipIdx he) hk r hr
  · rw [hruns, List.pairwise_flatMap]
    exact ⟨fun e _ => apart_row hmeasure _ _ _,
      (pairwise_zipIdx v.lines).imp_of_mem fun he hf hkl =>
        apart_rows hmeasure hroomy hknown (List.fst_mem_of_mem_zipIdx he)
          (List.fst_mem_of_mem_zipIdx hf) hkl _ _ _⟩

/-- Whether what is known of a placed vertex, if anything, was measured of the lines it has. -/
def Current (measure : Measure Id ℚ) (style : VertexStyle ℚ) (b : VertexBoxes ℚ) (p : Placed ℚ) :
    Prop :=
  ∀ known, b.measured.lookup p.index = some known →
    known = measureVertex (m := Id) measure style p.vertex.lines

/-- To measure a vertex of the same lines, or another vertex, changes nothing about that. -/
theorem Current.metrics {b : VertexBoxes ℚ} {p q : Placed ℚ} (h : Current measure style b p)
    (hsame : q.index = p.index → q.vertex.lines = p.vertex.lines) :
    let r := VertexBoxes.metrics (m := Id) measure style b q.index q.vertex
    Current measure style r.2 p := by
  unfold VertexBoxes.metrics
  split
  next => exact h
  next =>
    intro _ known hknown
    change List.lookup p.index ((q.index, _) :: b.measured) = some known at hknown
    rw [List.lookup_cons] at hknown
    split at hknown
    next hindex =>
      rw [← hsame (beq_iff_eq.mp hindex).symm]
      exact (Option.some.inj hknown).symm
    next => exact h known hknown

theorem Current.placeAll {b : VertexBoxes ℚ} {p : Placed ℚ} (h : Current measure style b p)
    {placed : List (Placed ℚ)}
    (hsame : ∀ q ∈ placed, q.index = p.index → q.vertex.lines = p.vertex.lines) :
    Current measure style (VertexBoxes.placeAll (m := Id) measure style b placed) p := by
  have hfold : VertexBoxes.placeAll (m := Id) measure style b placed =
      placed.foldl (fun b q =>
        let r := VertexBoxes.metrics (m := Id) measure style b q.index q.vertex
        let d : VertexDrawing ℚ := drawingOf (m := Id) measure style r.1 q.index q.vertex q.x q.y
        { r.2 with drawings := r.2.drawings ++ [d] })
        { b with drawings := [] } := List.idRun_foldlM
  rw [hfold]
  exact List.foldlRecOn placed _ (motive := fun b => Current measure style b p) h
    fun b hb q hq => hb.metrics (hsame q hq)

/-- The drawings of placed vertices show their lines, with room enough for each, as long as none has
other lines than those it was measured by. -/
theorem placeAll_lettered {measure : Measure Id ℚ} {style : VertexStyle ℚ} {b : VertexBoxes ℚ}
    {placed : List (Placed ℚ)} (hmeasure : MeasuresNonneg measure style)
    (hcurrent : ∀ p ∈ placed, Current measure style b p)
    (hsame : ∀ p ∈ placed, ∀ q ∈ placed, q.index = p.index → q.vertex.lines = p.vertex.lines) :
    List.Forall₂
      (fun p d => Roomy measure style p.vertex.lines → Lettered measure style p.vertex.lines d)
      placed (placeAll (m := Id) measure style b placed).drawings := by
  let c : VertexBoxes ℚ := placeAll (m := Id) measure style b placed
  have hdraws := (draws_placeAll measure style b placed).2
  have hmembers : List.Forall₂ (fun p d => p ∈ placed ∧ Draws measure style c p d) placed
      c.drawings := (List.forall₂_and_left _ _).mpr ⟨fun _ hp => hp, hdraws⟩
  refine hmembers.imp fun p d hp hroomy => ?_
  obtain ⟨hp, known, hknown, rfl⟩ := hp
  exact lettered_drawingOf hmeasure hroomy
    ((hcurrent p hp).placeAll (hsame p hp) known hknown) p.index p.x p.y

def listing : List TextLine :=
  [[⟨"mov", none, none⟩, ⟨"eax, 1", none, some "Arial"⟩], [], [⟨"ret", none, none⟩]]

theorem measuresNonneg_recording :
    MeasuresNonneg RecordingSurface.measure (VertexStyle.standard : VertexStyle ℚ) := by
  intro text font
  have hsize : 0 ≤ (VertexStyle.standard : VertexStyle ℚ).fontSize := by decide +kernel
  refine ⟨mul_nonneg (mul_nonneg ?_ hsize) (Int.cast_nonneg (Int.natCast_nonneg _)),
    mul_nonneg ?_ hsize, mul_nonneg ?_ hsize⟩
  all_goals decide +kernel

/-- Under the standard style there is room for the text that a recording surface measures. -/
theorem listing_lettered :
    let measure : Measure Id ℚ := RecordingSurface.measure
    let style : VertexStyle ℚ := .standard
    let placed : List (Placed ℚ) := [⟨0, ⟨0, listing, false⟩, 100, 50⟩]
    (MeasuresNonneg measure style ∧ (∀ p ∈ placed, Current measure style .empty p) ∧
      (∀ p ∈ placed, ∀ q ∈ placed, q.index = p.index → q.vertex.lines = p.vertex.lines) ∧
      Roomy measure style listing) ∧
      ∃ d, (placeAll (m := Id) measure style .empty placed).drawings = [d] ∧
        Lettered measure style listing d := by
  intro measure style placed
  have hcurrent : ∀ p ∈ placed, Current measure style .empty p := fun _ _ _ h => nomatch h
  have hsame : ∀ p ∈ placed, ∀ q ∈ placed, q.index = p.index →
      q.vertex.lines = p.vertex.lines := by
    intro p hp q hq _
    rw [List.mem_singleton.mp hp, List.mem_singleton.mp hq]
  have hroomy : Roomy measure style listing := by
    refine ⟨?_, ?_, ?_, ?_, ?_, ?_⟩
    all_goals decide +kernel
  have hlettered := placeAll_lettered measuresNonneg_recording hcurrent hsame
  refine ⟨⟨measuresNonneg_recording, hcurrent, hsame, hroomy⟩, ?_⟩
  obtain ⟨d, hd⟩ := List.length_eq_one_iff.mp hlettered.length_eq.symm
  rw [hd] at hlettered
  exact ⟨d, hd, (List.forall₂_cons.mp hlettered).1 hroomy⟩

end VertexBoxes

end DebugDesk
