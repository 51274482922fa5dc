import Mathlib.Tactic.FieldSimp
import Mathlib.Tactic.Linarith
import Mathlib.Tactic.Ring
import DebugDesk.Proofs.Number.Exact
import DebugDesk.Proofs.View.Runs

/-!
# Exact cameras

Over exact coordinates a camera maps the canvas to the screen by zooming and then moving, and back
again, since its zoom is never zero, however it was called.
-/
namespace DebugDesk

open Exact

/-- The roots of squares, and roughly those of other values. -/
@[reducible]
def ExactRoots.ofSquares : ExactRoots where
  root x := x.num.toNat.sqrt / x.den.sqrt
  hypotenuse x y := (x * x + y * y).num.toNat.sqrt / (x * x + y * y).den.sqrt

namespace Camera

/-- A camera that is made from settings and then called, in any way and any number of times. -/
inductive Reached [ExactRoots] : Camera ℚ → Prop
  | make {width height : ℚ} {settings : CameraSettings ℚ} {c : Camera ℚ}
      (made : make width height settings = .ok c) : Reached c
  | call {c d : Camera ℚ} {call : CameraCall ℚ} (before : Reached c)
      (called : call.apply c = .ok d) : Reached d
  | consumed {c : Camera ℚ} (before : Reached c) : Reached c.consumeDirty.2

theorem Reached.sound [ExactRoots] {c : Camera ℚ} (h : c.Reached) : c.Sound := by
  induction h with
  | make made => exact sound_of_make made
  | call _ called ih => exact (CameraCall.moves called).sound ih
  | consumed _ ih => exact ih.consumed

theorem Sound.zoom_pos {c : Camera ℚ} (h : c.Sound) : 0 < c.zoom := by
  have hzoom := h.zoom
  rw [zero] at hzoom
  exact lt_of_not_ge hzoom

def zooming (zoom x y : ℚ) : Matrix3 ℚ := ⟨⟨zoom, 0, x⟩, ⟨0, zoom, y⟩, ⟨0, 0, 1⟩⟩

theorem matrix_eq (c : Camera ℚ) :
    c.matrix = zooming c.zoom (c.width / 2 + c.zoom * (-(c.width / 2) + c.x))
      (c.height / 2 + c.zoom * (-(c.height / 2) + c.y)) := by
  simp only [matrix, zooming, Matrix3.mul, Matrix3.translation, Matrix3.scaling,
    Matrix3.transpose, Vector3.dot, one, two, zero, Matrix3.mk.injEq, Vector3.mk.injEq]
  refine ⟨⟨?_, ?_, ?_⟩, ⟨?_, ?_, ?_⟩, ?_, ?_, ?_⟩ <;> ring

theorem inverse_zooming {zoom : ℚ} (hzoom : zoom ≠ 0) (x y : ℚ) :
    (zooming zoom x y).inverse = zooming (1 / zoom) (-x / zoom) (-y / zoom) := by
  simp only [zooming, Matrix3.inverse, Matrix3.eliminate, Matrix3.Eliminated.solve,
    Matrix3.transpose, one, zero, Matrix3.mk.injEq, Vector3.mk.injEq]
  refine ⟨⟨?_, ?_, ?_⟩, ⟨?_, ?_, ?_⟩, ?_, ?_, ?_⟩ <;> field_simp <;> ring

theorem map_zooming (zoom x y : ℚ) (p : Point ℚ) :
    (zooming zoom x y).map p = ⟨zoom * p.x + x, zoom * p.y + y⟩ := by
  simp only [zooming, Matrix3.map, Matrix3.apply, Vector3.dot, one, Point.mk.injEq]
  constructor <;> ring

theorem map_screenToCanvas {c : Camera ℚ} (hzoom : 0 < c.zoom) (p : Point ℚ) :
    c.matrix.map (c.screenToCanvas p) = p := by
  have hne : c.zoom ≠ 0 := ne_of_gt hzoom
  rw [screenToCanvas, inverseMatrix, matrix_eq, inverse_zooming hne, map_zooming, map_zooming]
  cases p
  rw [Point.mk.injEq]
  constructor <;> field_simp <;> ring

theorem screenToCanvas_map {c : Camera ℚ} (hzoom : 0 < c.zoom) (p : Point ℚ) :
    c.screenToCanvas (c.matrix.map p) = p := by
  have hne : c.zoom ≠ 0 := ne_of_gt hzoom
  rw [screenToCanvas, inverseMatrix, matrix_eq, inverse_zooming hne, map_zooming, map_zooming]
  cases p
  rw [Point.mk.injEq]
  constructor <;> field_simp <;> ring

theorem screenToCanvas_eq {c : Camera ℚ} (hzoom : 0 < c.zoom) (p : Point ℚ) :
    c.screenToCanvas p = ⟨(p.x - c.width / 2) / c.zoom + (c.width / 2 - c.x),
      (p.y - c.height / 2) / c.zoom + (c.height / 2 - c.y)⟩ := by
  have hne : c.zoom ≠ 0 := ne_of_gt hzoom
  rw [screenToCanvas, inverseMatrix, matrix_eq, inverse_zooming hne, map_zooming, Point.mk.injEq]
  constructor <;> field_simp <;> ring

theorem map_le {c : Camera ℚ} (hzoom : 0 < c.zoom) (p q : Point ℚ) :
    ((c.matrix.map p).x ≤ (c.matrix.map q).x ↔ p.x ≤ q.x) ∧
      ((c.matrix.map p).y ≤ (c.matrix.map q).y ↔ p.y ≤ q.y) := by
  rw [matrix_eq, map_zooming, map_zooming]
  constructor <;> rw [add_le_add_iff_right, mul_le_mul_iff_right₀ hzoom]

end Camera

end DebugDesk
