import DebugDesk.Drawing.Operation
import DebugDesk.Drawing.VertexBox
import DebugDesk.Proofs.Camera.Transforms

/-!
# What is clicked is what was drawn

Over exact coordinates the camera maps a box to a box of the screen and back, whatever its zoom and
position are. So the topmost drawing at a point is the one whose background covers the point on the
screen and is painted last of those that do.
-/
namespace DebugDesk

open Exact

def Recorded.Covers (p : Point ℚ) : Recorded ℚ → Prop
  | rect x y width height _ => x ≤ p.x ∧ p.x ≤ x + width ∧ y ≤ p.y ∧ p.y ≤ y + height
  | _ => False

instance (p : Point ℚ) : DecidablePred (Recorded.Covers p)
  | .rect .. => inferInstanceAs (Decidable (_ ∧ _))
  | .clear _ | .polyline .. | .text .. => inferInstanceAs (Decidable False)

def DrawOp.IsOver {α : Type} : DrawOp α → Prop
  | transform _ | clear _ => False
  | _ => True

namespace RecordingSurface

variable {α : Type} [Scalar α]

theorem drawAll_over (s : RecordingSurface α) {ops : List (DrawOp α)}
    (h : ∀ op ∈ ops, op.IsOver) :
    s.drawAll ops = { s with calls := s.calls ++ ops.filterMap (record s.matrix) } := by
  induction ops generalizing s with
  | nil => simp [drawAll]
  | cons op ops ih =>
    obtain ⟨hop, hops⟩ := List.forall_mem_cons.mp h
    have hdraw : s.draw op = { s with calls := s.calls ++ (record s.matrix op).toList } := by
      cases op with
      | transform => exact hop.elim
      | clear => exact hop.elim
      | rect | polyline | text => rfl
    rw [drawAll, List.foldl_cons, ← drawAll, hdraw, ih _ hops]
    cases hrecord : record s.matrix op with
    | none => simp [hrecord]
    | some call => simp [hrecord]

end RecordingSurface

namespace VertexBoxes

variable {α : Type} [Scalar α]

/-- What is recorded of the painting of one drawing: shadow, border, background, text. -/
def layer (m : Matrix3 α) (style : VertexStyle α) (selected : Nat → Bool) (d : VertexDrawing α) :
    List (Recorded α) :=
  (paint style (selected d.vertex) d).filterMap (RecordingSurface.record m)

def background? (m : Matrix3 α) (style : VertexStyle α) (selected : Nat → Bool)
    (d : VertexDrawing α) : Option (Recorded α) :=
  (layer m style selected d)[2]?

theorem background?_eq (m : Matrix3 α) (style : VertexStyle α) (selected : Nat → Bool)
    (d : VertexDrawing α) :
    background? m style selected d =
      RecordingSurface.record m (.rect d.x d.y d.width d.height style.backgroundColor) := rfl

theorem isOver_of_mem_paint {style : VertexStyle α} {selected : Bool} {d : VertexDrawing α}
    {op : DrawOp α} (h : op ∈ paint style selected d) : op.IsOver := by
  simp only [paint, List.cons_append, List.nil_append, List.mem_cons, List.mem_map] at h
  obtain rfl | rfl | rfl | ⟨run, -, rfl⟩ := h <;> exact trivial

theorem isOver_of_mem_render {style : VertexStyle α} {selected : Nat → Bool}
    {b : VertexBoxes α} {op : DrawOp α} (h : op ∈ b.render style selected) : op.IsOver := by
  obtain ⟨d, -, hd⟩ := List.mem_flatMap.mp h
  exact isOver_of_mem_paint hd

theorem calls_render (style : VertexStyle α) (selected : Nat → Bool) (b : VertexBoxes α)
    (m : Matrix3 α) (s : RecordingSurface α) :
    ((s.draw (.transform m)).drawAll (b.render style selected)).calls =
      s.calls ++ b.drawings.flatMap (layer m style selected) := by
  have hover : ∀ op ∈ b.render style selected, op.IsOver := fun _ => isOver_of_mem_render
  rw [RecordingSurface.drawAll_over _ hover, render, List.filterMap_flatMap]
  rfl

/-- The background of a drawing covers a point of the screen. -/
def Shows (m : Matrix3 ℚ) (style : VertexStyle ℚ) (selected : Nat → Bool) (p : Point ℚ)
    (d : VertexDrawing ℚ) : Prop :=
  ∃ call ∈ background? m style selected d, call.Covers p

instance (m : Matrix3 ℚ) (style : VertexStyle ℚ) (selected : Nat → Bool) (p : Point ℚ)
    (d : VertexDrawing ℚ) : Decidable (Shows m style selected p d) :=
  inferInstanceAs (Decidable (∃ call ∈ background? m style selected d, call.Covers p))

end VertexBoxes

/-- A box contains the point of the canvas at a point of the screen exactly if its background, as
it is painted, covers that point of the screen. -/
theorem VertexDrawing.contains_iff_shows {c : Camera ℚ} (hzoom : 0 < c.zoom)
    (style : VertexStyle ℚ) (selected : Nat → Bool) (d : VertexDrawing ℚ) (p : Point ℚ) :
    d.contains (c.screenToCanvas p) = true ↔ VertexBoxes.Shows c.matrix style selected p d := by
  have hp := c.map_screenToCanvas hzoom p
  have hleft := c.map_le hzoom ⟨d.x, d.y⟩ (c.screenToCanvas p)
  have hright := c.map_le hzoom (c.screenToCanvas p) ⟨d.right, d.bottom⟩
  rw [hp] at hleft hright
  simp only [VertexBoxes.Shows, VertexBoxes.background?_eq, RecordingSurface.record,
    Option.mem_def, Option.some.injEq, exists_eq_left', Recorded.Covers, contains, Bool.and_eq_true,
    decide_eq_true_eq, add_sub_cancel]
  rw [← hleft.1, ← hleft.2, ← hright.1, ← hright.2, and_assoc, and_assoc]
  rfl

/-- The drawing that is hit at a point of the screen is the one whose background covers the point
and is painted last of those that do; none is hit exactly where no background is. -/
theorem Camera.Reached.hitTestScreen_iff [ExactRoots] {c : Camera ℚ} (h : c.Reached)
    (style : VertexStyle ℚ) (selected : Nat → Bool) (b : VertexBoxes ℚ)
    (s : RecordingSurface ℚ) (p : Point ℚ) :
    ((s.draw (.transform c.matrix)).drawAll (b.render style selected)).calls =
        s.calls ++ b.drawings.flatMap (VertexBoxes.layer c.matrix style selected) ∧
      (∀ d, hitTestScreen b.drawings c p = some d ↔ ∃ below above,
        b.drawings = below ++ d :: above ∧ VertexBoxes.Shows c.matrix style selected p d ∧
          ∀ e ∈ above, ¬VertexBoxes.Shows c.matrix style selected p e) ∧
      (hitTestScreen b.drawings c p = none ↔
        ∀ d ∈ b.drawings, ¬VertexBoxes.Shows c.matrix style selected p d) := by
  have hshows := VertexDrawing.contains_iff_shows h.sound.zoom_pos style selected (p := p)
  refine ⟨b.calls_render style selected c.matrix s, fun d => ?_, ?_⟩
  · rw [hitTestScreen, hitTest, List.find?_eq_some_iff_append, hshows]
    constructor
    · rintro ⟨hd, later, earlier, hsplit, hlater⟩
      refine ⟨earlier.reverse, later.reverse, ?_, hd, fun e he => ?_⟩
      · rw [List.reverse_eq_append_iff, List.reverse_cons, List.append_assoc] at hsplit
        exact hsplit
      · have hnot := hlater e (List.mem_reverse.mp he)
        rw [← hshows]
        simpa using hnot
    · rintro ⟨below, above, hsplit, hd, habove⟩
      refine ⟨hd, above.reverse, below.reverse, ?_, fun e he => ?_⟩
      · rw [hsplit, List.reverse_append, List.reverse_cons, List.append_assoc]
        rfl
      · have hnot := habove e (List.mem_reverse.mp he)
        rw [← hshows] at hnot
        simpa using hnot
  · rw [hitTestScreen, hitTest, List.find?_eq_none]
    simp only [List.mem_reverse, hshows]

/-- Where two boxes overlap, under a camera that is moved and zoomed, the upper one is hit. -/
theorem Camera.zoomed_hits :
    let _ := ExactRoots.ofSquares
    let lower : VertexDrawing ℚ := ⟨0, 0, 0, 40, 20, []⟩
    let upper : VertexDrawing ℚ := ⟨1, 30, 10, 40, 20, []⟩
    ∃ c : Camera ℚ, c.Reached ∧ c.zoom = 2 ∧
      hitTestScreen [lower, upper] c ⟨60, 40⟩ = some upper := by
  intro _ lower upper
  have hmake : Camera.make (α := ℚ) 100 100 .standard = .ok _ := if_neg (by decide +kernel)
  have hmoved : Reached _ := .call (.make hmake)
    (show CameraCall.apply _ (.setPosition 20 30) = .ok _ from rfl)
  have hzoomed : Reached _ := .call hmoved
    (show CameraCall.apply _ (.setZoom 2) = .ok _ from rfl)
  refine ⟨_, hzoomed, by decide +kernel, ?_⟩
  refine ((hzoomed.hitTestScreen_iff .standard (fun _ => false) ⟨[], [lower, upper]⟩ .empty
    ⟨60, 40⟩).2.1 upper).mpr ⟨[lower], [], rfl, by decide +kernel, ?_⟩
  intro e he
  cases he

end DebugDesk
