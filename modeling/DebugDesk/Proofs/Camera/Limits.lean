import DebugDesk.Proofs.Number.Signs
import DebugDesk.Proofs.View.Runs

/-!
# Limits of the zoom

Whatever is asked of a camera, its zoom stays within the limits, and so does the zoom that a pinch
is relative to. A pinch that has a baseline has a positive one, so no gesture divides by zero or
takes the root of something negative, be the pointers at infinity or nowhere at all.
-/
namespace DebugDesk

namespace Scalar

variable {α : Type} [Scalar α] {a b x lo hi : α}

theorem le_of_not_lt (ha : a ≤ a) (hb : b ≤ b) (h : ¬b < a) : a ≤ b := by
  by_contra hle
  exact h (lt_of_not_le hb ha hle)

theorem not_le_of_lt (h : a < b) : ¬b ≤ a := ((lt_iff a b).mp h).2

/-- What is clamped lies between the bounds, also if it compares with nothing. -/
theorem clamp_between (x : α) (h : lo ≤ hi) : lo ≤ clamp x lo hi ∧ clamp x lo hi ≤ hi := by
  unfold clamp greater
  split
  next hx =>
    have hlox : lo ≤ x := ((lt_iff lo x).mp hx).1
    unfold lesser
    split
    · exact ⟨h, le_right h⟩
    next hhi => exact ⟨hlox, le_of_not_lt (le_right hlox) (le_right h) hhi⟩
  next =>
    have hhi : ¬hi < lo := fun hlt => not_le_of_lt hlt h
    rw [lesser, if_neg hhi]
    exact ⟨le_left h, h⟩

end Scalar

/-- Scalars whose rounding keeps the signs of squares and of quotients. -/
class SignedScalar (α : Type) [Scalar α] : Prop where
  squareDistance_not_lt_zero : ∀ x₁ y₁ x₂ y₂ : α, ¬Scalar.squareDistance x₁ y₁ x₂ y₂ < 0.0
  div_not_lt_zero : ∀ {a b : α}, ¬a < 0.0 → 0.0 < b → ¬a / b < 0.0

instance : SignedScalar Float where
  squareDistance_not_lt_zero := Binary64.squareDistance_not_lt_zero
  div_not_lt_zero := Binary64.div_not_lt_zero

namespace Camera

/-- The zooms of a camera lie between its limits, and a baseline is positive and part of a pinch
that is going on. -/
structure Bounded {α : Type} [Scalar α] (lo hi : α) (c : Camera α) : Prop where
  minZoom : c.minZoom = lo
  maxZoom : c.maxZoom = hi
  zoom : lo ≤ c.zoom ∧ c.zoom ≤ hi
  lastZoom : lo ≤ c.lastZoom ∧ c.lastZoom ≤ hi
  baseline : ∀ b, c.baseline = some b → 0.0 < b ∧ c.state = .pinching

section

variable {α : Type} [Scalar α] {c : Camera α} {lo hi : α}

theorem bounded_make (width height : α) {s : CameraSettings α} (hmin : 0.0 < s.minZoom)
    (hmax : s.minZoom ≤ s.maxZoom) :
    ∃ c, make width height s = .ok c ∧ c.Bounded s.minZoom s.maxZoom := by
  have hpos : ¬s.minZoom ≤ 0.0 := Scalar.not_le_of_lt hmin
  have horder : ¬s.maxZoom < s.minZoom := fun h => Scalar.not_le_of_lt h hmax
  have hclamp := Scalar.clamp_between s.zoom hmax
  unfold make
  rw [if_neg (by simp [hpos, horder])]
  exact ⟨_, rfl, rfl, rfl, hclamp, hclamp, fun b hb => absurd hb (by simp)⟩

namespace Bounded

theorem zoom_not_le_zero (h : c.Bounded lo hi) (hlo : 0.0 < lo) : ¬c.zoom ≤ 0.0 :=
  fun hzoom => Scalar.not_le_of_lt hlo (Scalar.le_trans h.zoom.1 hzoom)

theorem setSize (h : c.Bounded lo hi) (width height : α) :
    (c.setSize width height).Bounded lo hi := by
  unfold Camera.setSize
  split
  · exact h
  · exact ⟨h.minZoom, h.maxZoom, h.zoom, h.lastZoom, h.baseline⟩

theorem setPosition (h : c.Bounded lo hi) (x y : α) : (c.setPosition x y).Bounded lo hi := by
  unfold Camera.setPosition
  split
  · exact h
  · exact ⟨h.minZoom, h.maxZoom, h.zoom, h.lastZoom, h.baseline⟩

theorem zoomTo (h : c.Bounded lo hi) (hle : lo ≤ hi) (zoom : α) :
    (c.zoomTo zoom).Bounded lo hi := by
  obtain ⟨rfl, rfl, hzoom, hlast, hbase⟩ := h
  unfold Camera.zoomTo
  dsimp only
  split
  · exact ⟨rfl, rfl, hzoom, hlast, hbase⟩
  · exact ⟨rfl, rfl, Scalar.clamp_between zoom hle, hlast, hbase⟩

theorem setZoom (h : c.Bounded lo hi) (hle : lo ≤ hi) (zoom : α) :
    (c.setZoom zoom).Bounded lo hi := by
  have hto := h.zoomTo hle zoom
  exact ⟨hto.minZoom, hto.maxZoom, hto.zoom, hto.zoom, hto.baseline⟩

/-- An extent without a width or a height is passed over, so it divides nothing. -/
theorem zoomToFit (h : c.Bounded lo hi) (hle : lo ≤ hi) (width height margin : α) :
    ∃ d, c.zoomToFit width height margin = .ok d ∧ d.Bounded lo hi := by
  unfold Camera.zoomToFit
  split
  · exact ⟨c, rfl, h⟩
  next hextent =>
    simp only [Bool.or_eq_true, decide_eq_true_eq, not_or] at hextent
    rw [Scalar.divide_of_not_le hextent.1, Scalar.divide_of_not_le hextent.2]
    exact ⟨_, rfl, h.setZoom hle _⟩

theorem pointerDown (h : c.Bounded lo hi) (hlo : 0.0 < lo) (p : Point α) :
    ∃ d, c.pointerDown p = .ok d ∧ d.Bounded lo hi := by
  unfold Camera.pointerDown
  split
  · exact ⟨c, rfl, h⟩
  next hpinch =>
    have hzoom := h.zoom_not_le_zero hlo
    rw [Scalar.divide_of_not_le hzoom, Scalar.divide_of_not_le hzoom]
    refine ⟨_, rfl, h.minZoom, h.maxZoom, h.zoom, h.lastZoom, fun b hb => ?_⟩
    exact absurd (h.baseline b hb).2 hpinch

theorem pointerMove (h : c.Bounded lo hi) (hlo : 0.0 < lo) (p : Point α) :
    ∃ moved d, c.pointerMove p = .ok (moved, d) ∧ d.Bounded lo hi := by
  unfold Camera.pointerMove
  split
  · exact ⟨false, c, rfl, h⟩
  · have hzoom := h.zoom_not_le_zero hlo
    rw [Scalar.divide_of_not_le hzoom, Scalar.divide_of_not_le hzoom]
    simp only [Effect.ok_bind]
    split
    · exact ⟨false, c, rfl, h⟩
    · exact ⟨true, _, rfl, h.minZoom, h.maxZoom, h.zoom, h.lastZoom, h.baseline⟩

theorem pointerUp (h : c.Bounded lo hi) : c.pointerUp.Bounded lo hi := by
  refine ⟨h.minZoom, h.maxZoom, h.zoom, h.zoom, fun b hb => ?_⟩
  obtain ⟨hpos, hpinch⟩ := h.baseline b hb
  exact ⟨hpos, by simp [Camera.pointerUp, hpinch]⟩

theorem wheel (h : c.Bounded lo hi) (hle : lo ≤ hi) (delta : α) :
    (c.wheel delta).Bounded lo hi := by
  unfold Camera.wheel
  split
  · exact h
  · have hmark : ({ c with trackpad := !isWhole delta } : Camera α).Bounded lo hi :=
      ⟨h.minZoom, h.maxZoom, h.zoom, h.lastZoom, h.baseline⟩
    exact hmark.zoomTo hle _

theorem touchEnd (h : c.Bounded lo hi) : c.touchEnd.Bounded lo hi := by
  unfold Camera.touchEnd
  split
  · exact ⟨h.minZoom, h.maxZoom, h.zoom, h.zoom, fun b hb => absurd hb (by simp)⟩
  · exact ⟨h.minZoom, h.maxZoom, h.zoom, h.zoom, h.baseline⟩

end Bounded

end

variable {α : Type} [RootScalar α] [SignedScalar α] {c : Camera α} {lo hi : α}

omit [SignedScalar α] in
/-- The baseline of a pinch that is going on is one. -/
theorem baseline_of_pinchBaseline? {b : α} (h : c.pinchBaseline? = some b) :
    c.baseline = some b ∧ (b == 0.0) = false := by
  unfold pinchBaseline? at h
  split at h
  next b' _ hb =>
    split at h
    · cases h
    next hzero =>
      cases h
      exact ⟨hb, by simpa using hzero⟩
  · cases h

omit [SignedScalar α] in
/-- Touches that are no pair do nothing. -/
theorem touchMove_of_length_ne (c : Camera α) {touches : List (Point α)}
    (h : touches.length ≠ 2) : c.touchMove touches = .ok c := by
  unfold Camera.touchMove
  split
  next p q => exact absurd (show [p, q].length = 2 from rfl) h
  next => rfl

/-- A sample of a pinch begins it, or goes on with it: then the ratio of the distances is not
negative, and has a root. -/
theorem Bounded.touchMove (h : c.Bounded lo hi) (hle : lo ≤ hi) (touches : List (Point α)) :
    ∃ d, c.touchMove touches = .ok d ∧ d.Bounded lo hi := by
  unfold Camera.touchMove
  split
  next p q =>
    have hd := SignedScalar.squareDistance_not_lt_zero p.x p.y q.x q.y
    dsimp only
    split
    · refine ⟨_, rfl, h.minZoom, h.maxZoom, h.zoom, h.zoom, fun b hb => ⟨?_, rfl⟩⟩
      dsimp only at hb
      split at hb
      next hpos => exact Option.some.inj hb ▸ hpos
      next => cases hb
    next b hb =>
      -- A distance that is no number is not negative either, so its root may be taken.
      obtain ⟨hbase, hzero⟩ := baseline_of_pinchBaseline? hb
      have hratio := SignedScalar.div_not_lt_zero hd (h.baseline b hbase).1
      simp only [Scalar.divide, hzero, Bool.false_eq_true, ↓reduceIte, Effect.ok_bind, checkedRoot,
        hratio]
      exact ⟨_, rfl, h.zoomTo hle _⟩
  · exact ⟨c, rfl, h⟩

/-- Every call of a camera succeeds, and keeps it within its limits. -/
theorem Bounded.call (h : c.Bounded lo hi) (hlo : 0.0 < lo) (hle : lo ≤ hi)
    (call : CameraCall α) : ∃ d, call.apply c = .ok d ∧ d.Bounded lo hi := by
  cases call with
  | setSize width height => exact ⟨_, rfl, h.setSize width height⟩
  | setPosition x y => exact ⟨_, rfl, h.setPosition x y⟩
  | recenter p => exact ⟨_, rfl, h.setPosition _ _⟩
  | setZoom zoom => exact ⟨_, rfl, h.setZoom hle zoom⟩
  | zoomToFit width height margin => exact h.zoomToFit hle width height margin
  | pointerDown p => exact h.pointerDown hlo p
  | pointerMove p =>
    obtain ⟨moved, d, hmove, hd⟩ := h.pointerMove hlo p
    exact ⟨d, by simp [CameraCall.apply, hmove], hd⟩
  | pointerUp => exact ⟨_, rfl, h.pointerUp⟩
  | wheel delta => exact ⟨_, rfl, h.wheel hle delta⟩
  | touchMove touches => exact h.touchMove hle touches
  | touchEnd => exact ⟨_, rfl, h.touchEnd⟩

def callAll {α : Type} [RootScalar α] : Camera α → List (CameraCall α) → Except Fault (Camera α)
  | c, [] => .ok c
  | c, call :: calls => call.apply c >>= fun d => d.callAll calls

theorem Bounded.callAll (h : c.Bounded lo hi) (hlo : 0.0 < lo) (hle : lo ≤ hi)
    (calls : List (CameraCall α)) : ∃ d, c.callAll calls = .ok d ∧ d.Bounded lo hi := by
  induction calls generalizing c with
  | nil => exact ⟨c, rfl, h⟩
  | cons call calls ih =>
    obtain ⟨d, hd, hbounded⟩ := h.call hlo hle call
    rw [Camera.callAll, hd, Effect.ok_bind]
    exact ih hbounded

/-- A camera that is made with limits in order can be called in any way: no call fails, and after
every call its zooms lie between the limits. -/
theorem callAll_bounded {s : CameraSettings Float} (hmin : 0.0 < s.minZoom)
    (hmax : s.minZoom ≤ s.maxZoom) (width height : Float) (calls : List (CameraCall Float)) :
    ∃ c d, make width height s = .ok c ∧ c.callAll calls = .ok d ∧
      d.Bounded s.minZoom s.maxZoom ∧ 0.0 < d.zoom := by
  obtain ⟨c, hc, hbounded⟩ := bounded_make width height hmin hmax
  obtain ⟨d, hd, hbounded⟩ := hbounded.callAll hmin hmax calls
  have hzero : (0.0 : Float) ≤ 0.0 := Scalar.le_left ((Scalar.lt_iff _ _).mp hmin).1
  have hzoom := hbounded.zoom_not_le_zero hmin
  exact ⟨c, d, hc, hd, hbounded,
    Scalar.lt_of_not_le hzero (Scalar.le_left hbounded.zoom.2) hzoom⟩

/-- Touches infinitely far apart and nowhere, a wheel that turns by no number, and an infinite
zoom. -/
def wildCalls : List (CameraCall Float) :=
  [.touchMove [⟨0.0, 0.0⟩, ⟨1.0 / 0.0, 0.0⟩], .pointerDown ⟨0.0 / 0.0, 0.0⟩,
    .touchMove [⟨0.0, 0.0⟩, ⟨3.0, 0.0 / 0.0⟩], .touchEnd, .wheel (0.0 / 0.0), .setZoom (1.0 / 0.0)]

theorem wildCalls_bounded :
    (0.0 : Float) < CameraSettings.standard.minZoom ∧
      (CameraSettings.standard.minZoom : Float) ≤ CameraSettings.standard.maxZoom ∧
      ∃ c d : Camera Float, make 800.0 600.0 .standard = .ok c ∧ c.callAll wildCalls = .ok d ∧
        d.Bounded 0.1 5.0 ∧ 0.0 < d.zoom := by
  have hmin : (0.0 : Float) < CameraSettings.standard.minZoom := by decide +kernel
  have hmax : (CameraSettings.standard.minZoom : Float) ≤ CameraSettings.standard.maxZoom := by
    decide +kernel
  exact ⟨hmin, hmax, callAll_bounded hmin hmax 800.0 600.0 wildCalls⟩

end Camera

end DebugDesk
