import DebugDesk.Proofs.Camera.Limits
import DebugDesk.Proofs.Number.Reals

/-!
# Pinching

While two touches go on, the zoom is the one that was on when they began, times the ratio of their
distance to the first one, within the limits, whatever else zooms meanwhile. But a pointer that is
released meanwhile makes the zoom of that moment the one that further samples are relative to.
-/
namespace DebugDesk

namespace CameraCall

variable {α : Type}

/-- What neither ends a pinch nor sets its zoom. -/
def Pinches : CameraCall α → Prop
  | touchEnd | setZoom _ | zoomToFit .. => False
  | _ => True

def released? (c : Camera α) : CameraCall α → Option α
  | pointerUp => some c.zoom
  | _ => none

end CameraCall

namespace Camera

variable {α : Type} [RootScalar α]

/-- The zooms at which pointers are released in the course of some calls, up to the first call that
fails. -/
def releases : Camera α → List (CameraCall α) → List α
  | _, [] => []
  | c, call :: calls => (call.released? c).toList ++
    match call.apply c with
    | .ok d => d.releases calls
    | .error _ => []

structure Pinching (lo hi baseline zoom : α) (c : Camera α) : Prop where
  minZoom : c.minZoom = lo
  maxZoom : c.maxZoom = hi
  state : c.state = .pinching
  baseline : c.baseline = some baseline
  lastZoom : c.lastZoom = zoom

variable {c d : Camera α} {lo hi b z : α}

theorem releases_eq_nil {calls : List (CameraCall α)} (h : .pointerUp ∉ calls) :
    c.releases calls = [] := by
  induction calls generalizing c with
  | nil => rfl
  | cons call calls ih =>
    obtain ⟨hcall, hcalls⟩ := not_or.mp (mt List.mem_cons.mpr h)
    have hnone : call.released? c = none := by
      cases call with
      | pointerUp => exact absurd rfl hcall
      | _ => rfl
    rw [releases, hnone]
    split
    · exact ih hcalls
    · rfl

/-- The first sample of touches at different points begins a pinch, relative to the zoom that is
on. -/
theorem pinching_touchMove (hc : c.pinchBaseline? = none) {p q : Point α}
    (hd : 0.0 < Scalar.squareDistance p.x p.y q.x q.y) :
    ∃ d, c.touchMove [p, q] = .ok d ∧ d.zoom = c.zoom ∧
      d.Pinching c.minZoom c.maxZoom (Scalar.squareDistance p.x p.y q.x q.y) c.zoom := by
  simp only [touchMove, hc]
  exact ⟨_, rfl, rfl, rfl, rfl, rfl, if_pos hd, rfl⟩

namespace Pinching

theorem zoomTo (h : c.Pinching lo hi b z) (zoom : α) : (c.zoomTo zoom).Pinching lo hi b z := by
  unfold Camera.zoomTo
  dsimp only
  split
  · exact h
  · exact ⟨h.minZoom, h.maxZoom, h.state, h.baseline, h.lastZoom⟩

theorem wheel (h : c.Pinching lo hi b z) (delta : α) : (c.wheel delta).Pinching lo hi b z := by
  unfold Camera.wheel
  split
  · exact h
  · have hmark : ({ c with trackpad := !isWhole delta } : Camera α).Pinching lo hi b z :=
      ⟨h.minZoom, h.maxZoom, h.state, h.baseline, h.lastZoom⟩
    exact hmark.zoomTo _

theorem setSize (h : c.Pinching lo hi b z) (width height : α) :
    (c.setSize width height).Pinching lo hi b z := by
  unfold Camera.setSize
  split
  · exact h
  · exact ⟨h.minZoom, h.maxZoom, h.state, h.baseline, h.lastZoom⟩

theorem setPosition (h : c.Pinching lo hi b z) (x y : α) :
    (c.setPosition x y).Pinching lo hi b z := by
  unfold Camera.setPosition
  split
  · exact h
  · exact ⟨h.minZoom, h.maxZoom, h.state, h.baseline, h.lastZoom⟩

/-- Later samples zoom by the root of the ratio. -/
theorem touchMove [SignedScalar α] (h : c.Pinching lo hi b z) (hb : 0.0 < b) (p q : Point α) :
    c.touchMove [p, q] =
      .ok (c.zoomTo (RootScalar.root (Scalar.squareDistance p.x p.y q.x q.y / b) * z)) := by
  have hzero : (b == 0.0) = false := Scalar.beq_zero_of_not_le (Scalar.not_le_of_lt hb)
  have hbase : c.pinchBaseline? = some b := by
    simp [pinchBaseline?, h.state, h.baseline, hzero]
  have hratio := SignedScalar.div_not_lt_zero
    (SignedScalar.squareDistance_not_lt_zero p.x p.y q.x q.y) hb
  simp only [Camera.touchMove, hbase, Scalar.divide, hzero, Bool.false_eq_true, ↓reduceIte,
    Effect.ok_bind, checkedRoot, hratio, h.lastZoom]
  rfl

/-- A pinch goes on whatever is called meanwhile; only the release of a pointer changes what it is
relative to. -/
theorem call [SignedScalar α] (h : c.Pinching lo hi b z) (hb : 0.0 < b) {call : CameraCall α}
    (hcall : call.Pinches) :
    ∃ d, call.apply c = .ok d ∧ d.Pinching lo hi b ((call.released? c).getD z) := by
  cases call with
  | setSize width height => exact ⟨_, rfl, h.setSize width height⟩
  | setPosition x y => exact ⟨_, rfl, h.setPosition x y⟩
  | recenter p => exact ⟨_, rfl, h.setPosition _ _⟩
  | pointerDown p =>
    refine ⟨c, ?_, h⟩
    rw [CameraCall.apply, Camera.pointerDown, if_pos h.state]
    rfl
  | pointerMove p =>
    refine ⟨c, ?_, h⟩
    rw [CameraCall.apply, Camera.pointerMove, if_pos (by simp [h.state])]
    rfl
  | pointerUp =>
    exact ⟨_, rfl, h.minZoom, h.maxZoom, by simp [Camera.pointerUp, h.state], h.baseline, rfl⟩
  | wheel delta => exact ⟨_, rfl, h.wheel delta⟩
  | touchMove touches =>
    by_cases hpair : touches.length = 2
    · obtain ⟨p, q, rfl⟩ := List.length_eq_two.mp hpair
      exact ⟨_, h.touchMove hb p q, h.zoomTo _⟩
    · exact ⟨c, c.touchMove_of_length_ne hpair, h⟩
  | _ => exact hcall.elim

theorem callAll [SignedScalar α] (h : c.Pinching lo hi b z) (hb : 0.0 < b)
    {calls : List (CameraCall α)} (hcalls : ∀ call ∈ calls, call.Pinches) :
    ∃ d, c.callAll calls = .ok d ∧ d.Pinching lo hi b ((c.releases calls).getLastD z) := by
  induction calls generalizing c z with
  | nil => exact ⟨c, rfl, h⟩
  | cons call calls ih =>
    obtain ⟨hcall, hcalls⟩ := List.forall_mem_cons.mp hcalls
    obtain ⟨d, hd, hpinching⟩ := h.call hb hcall
    obtain ⟨e, he, hpinching⟩ := ih hpinching hcalls
    refine ⟨e, by rw [Camera.callAll, hd, Effect.ok_bind, he], ?_⟩
    rw [releases, hd]
    cases hreleased : call.released? c with
    | none => simpa [hreleased] using hpinching
    | some zoom =>
      simp only [hreleased, Option.getD_some] at hpinching
      simpa only [Option.toList_some, List.singleton_append, List.getLastD_cons] using hpinching

end Pinching

open Reals

noncomputable instance : SignedScalar ℝ where
  squareDistance_not_lt_zero x₁ y₁ x₂ y₂ := by
    rw [zero, not_lt]
    exact add_nonneg (mul_self_nonneg _) (mul_self_nonneg _)
  div_not_lt_zero ha hb := by
    rw [zero] at *
    rw [not_lt] at *
    exact div_nonneg ha hb.le

theorem zoom_zoomTo (c : Camera ℝ) (zoom : ℝ) :
    (c.zoomTo zoom).zoom = min (max c.minZoom zoom) c.maxZoom := by
  unfold zoomTo
  rw [clamp_eq]
  dsimp only
  split
  next hsame => exact (beq_iff_eq.mp hsame).symm
  next => rfl

def squareDistance (p q : Point ℝ) : ℝ := (q.x - p.x) ^ 2 + (q.y - p.y) ^ 2

theorem squareDistance_eq (p q : Point ℝ) :
    Scalar.squareDistance p.x p.y q.x q.y = squareDistance p q := by
  simp only [Scalar.squareDistance, squareDistance, pow_two]

theorem squareDistance_pos {p q : Point ℝ} (h : p ≠ q) : 0 < squareDistance p q := by
  rw [squareDistance]
  by_contra hle
  have hx : q.x - p.x = 0 := by nlinarith [sq_nonneg (q.x - p.x), sq_nonneg (q.y - p.y)]
  have hy : q.y - p.y = 0 := by nlinarith [sq_nonneg (q.x - p.x), sq_nonneg (q.y - p.y)]
  cases p
  cases q
  exact h (Point.mk.injEq _ _ _ _ ▸ ⟨(sub_eq_zero.mp hx).symm, (sub_eq_zero.mp hy).symm⟩)

/-- A sample zooms by the ratio of the distances, within the limits. -/
theorem Pinching.sample {c : Camera ℝ} {lo hi z : ℝ} {p q : Point ℝ}
    (h : c.Pinching lo hi (squareDistance p q) z) (hpq : p ≠ q) (r s : Point ℝ) :
    ∃ d, c.touchMove [r, s] = .ok d ∧ d.Pinching lo hi (squareDistance p q) z ∧
      d.zoom = min (max lo (√(squareDistance r s / squareDistance p q) * z)) hi := by
  have hpos : 0.0 < squareDistance p q := by
    rw [zero]
    exact squareDistance_pos hpq
  refine ⟨_, h.touchMove hpos r s, h.zoomTo _, ?_⟩
  rw [zoom_zoomTo, h.minZoom, h.maxZoom, squareDistance_eq]
  rfl

/-- Two touches at different points begin a pinch. As long as it goes on, a sample zooms by the
ratio of its distance to the first one, relative to the zoom at which a pointer was released last;
if none was, or only at the zoom that was on when the pinch began, then relative to that one. -/
theorem pinch_zooms (c : Camera ℝ) (hc : c.pinchBaseline? = none) (p q : Point ℝ) (hpq : p ≠ q)
    (calls : List (CameraCall ℝ)) (hcalls : ∀ call ∈ calls, call.Pinches) (r s : Point ℝ) :
    ∃ a d e, c.touchMove [p, q] = .ok a ∧ a.zoom = c.zoom ∧ a.callAll calls = .ok d ∧
      d.touchMove [r, s] = .ok e ∧
      e.zoom = min (max c.minZoom (√(squareDistance r s / squareDistance p q) *
        (a.releases calls).getLastD c.zoom)) c.maxZoom ∧
      ((∀ z ∈ a.releases calls, z = c.zoom) →
        e.zoom = min (max c.minZoom (√(squareDistance r s / squareDistance p q) * c.zoom))
          c.maxZoom) := by
  have hpos : 0.0 < squareDistance p q := by
    rw [zero]
    exact squareDistance_pos hpq
  obtain ⟨a, ha, hzoom, hpinching⟩ :=
    pinching_touchMove hc (p := p) (q := q) (by rw [squareDistance_eq]; exact hpos)
  rw [squareDistance_eq] at hpinching
  obtain ⟨d, hd, hpinching⟩ := hpinching.callAll hpos hcalls
  obtain ⟨e, he, -, hsample⟩ := hpinching.sample hpq r s
  refine ⟨a, d, e, ha, hzoom, hd, he, hsample, fun hreleases => ?_⟩
  have hlast : (a.releases calls).getLastD c.zoom = c.zoom :=
    (List.mem_cons.mp List.getLastD_mem_cons).elim id (hreleases _)
  rw [hsample, hlast]

theorem make_standard : ∃ c : Camera ℝ, make 100 100 .standard = .ok c ∧ c.pinchBaseline? = none ∧
    c.zoom = 1 ∧ c.minZoom = 1 / 10 ∧ c.maxZoom = 5 := by
  unfold make
  rw [if_neg (by simp [CameraSettings.standard, literal]; norm_num)]
  refine ⟨_, rfl, rfl, ?_, ?_, ?_⟩ <;> simp [CameraSettings.standard, literal, clamp_eq] <;>
    norm_num

/-- A pointer is released before anything zooms; then a sample and a wheel zoom, a pointer goes down
and moves, and one finger is left for a moment. -/
noncomputable def meanwhile : List (CameraCall ℝ) :=
  [.pointerUp, .touchMove [⟨0, 0⟩, ⟨20, 0⟩], .wheel (1 / 2), .pointerDown ⟨1, 2⟩,
    .pointerMove ⟨5, 5⟩, .touchMove [⟨3, 3⟩]]

/-- Touches three times as far apart as at first zoom to three times the first zoom. -/
theorem meanwhile_pinch_zooms : ∃ c a d e : Camera ℝ, make 100 100 .standard = .ok c ∧
    c.pinchBaseline? = none ∧ c.zoom = 1 ∧ (⟨0, 0⟩ : Point ℝ) ≠ ⟨10, 0⟩ ∧
    c.touchMove [⟨0, 0⟩, ⟨10, 0⟩] = .ok a ∧ (∀ call ∈ meanwhile, call.Pinches) ∧
    a.callAll meanwhile = .ok d ∧ d.touchMove [⟨0, 0⟩, ⟨0, 30⟩] = .ok e ∧ e.zoom = 3 := by
  obtain ⟨c, hc, hidle, hone, hmin, hmax⟩ := make_standard
  have hne : (⟨0, 0⟩ : Point ℝ) ≠ ⟨10, 0⟩ := by simp
  have hcalls : ∀ call ∈ meanwhile, call.Pinches := by simp [meanwhile, CameraCall.Pinches]
  obtain ⟨a, d, e, ha, hzoom, hd, he, -, hsample⟩ :=
    pinch_zooms c hidle ⟨0, 0⟩ ⟨10, 0⟩ hne meanwhile hcalls ⟨0, 0⟩ ⟨0, 30⟩
  have hreleases : a.releases meanwhile = [a.zoom] := by
    rw [meanwhile, releases]
    exact congrArg (a.zoom :: ·) (releases_eq_nil (by simp))
  refine ⟨c, a, d, e, hc, hidle, hone, hne, ha, hcalls, hd, he, ?_⟩
  rw [hsample (by simp [hreleases, hzoom]), hone, hmin, hmax]
  have hroot : √(squareDistance ⟨0, 0⟩ ⟨0, 30⟩ / squareDistance ⟨0, 0⟩ ⟨10, 0⟩) = 3 := by
    rw [Real.sqrt_eq_iff_mul_self_eq_of_pos (by norm_num)]
    norm_num [squareDistance]
  rw [hroot]
  norm_num

/-- Touches twice as far apart as at first zoom to twice the first zoom, and to four times that once
a pointer was released in between. -/
theorem released_zooms_again : ∃ c a b d e : Camera ℝ, make 100 100 .standard = .ok c ∧
    c.zoom = 1 ∧ c.touchMove [⟨0, 0⟩, ⟨10, 0⟩] = .ok a ∧
    a.touchMove [⟨0, 0⟩, ⟨20, 0⟩] = .ok b ∧ b.zoom = 2 ∧ b.callAll [.pointerUp] = .ok d ∧
    d.touchMove [⟨0, 0⟩, ⟨20, 0⟩] = .ok e ∧ e.zoom = 4 ∧
    e.zoom ≠ min (max c.minZoom (√(squareDistance ⟨0, 0⟩ ⟨20, 0⟩ / squareDistance ⟨0, 0⟩ ⟨10, 0⟩) *
      c.zoom)) c.maxZoom := by
  obtain ⟨c, hc, hidle, hone, hmin, hmax⟩ := make_standard
  have hne : (⟨0, 0⟩ : Point ℝ) ≠ ⟨10, 0⟩ := by simp
  have hroot : √(squareDistance ⟨0, 0⟩ ⟨20, 0⟩ / squareDistance ⟨0, 0⟩ ⟨10, 0⟩) = 2 := by
    rw [Real.sqrt_eq_iff_mul_self_eq_of_pos (by norm_num)]
    norm_num [squareDistance]
  obtain ⟨a, ha, -, hfirst⟩ := pinching_touchMove hidle (p := ⟨0, 0⟩) (q := ⟨10, 0⟩) (by
    rw [squareDistance_eq, zero]
    exact squareDistance_pos hne)
  rw [squareDistance_eq] at hfirst
  obtain ⟨b, hb, hpinching, htwice⟩ := hfirst.sample hne ⟨0, 0⟩ ⟨20, 0⟩
  have htwo : b.zoom = 2 := by
    rw [htwice, hroot, hone, hmin, hmax]
    norm_num
  have hreleased : b.pointerUp.Pinching c.minZoom c.maxZoom (squareDistance ⟨0, 0⟩ ⟨10, 0⟩) 2 :=
    ⟨hpinching.minZoom, hpinching.maxZoom, by simp [pointerUp, hpinching.state],
      hpinching.baseline, htwo⟩
  obtain ⟨e, he, -, hagain⟩ := hreleased.sample hne ⟨0, 0⟩ ⟨20, 0⟩
  have hfour : e.zoom = 4 := by
    rw [hagain, hroot, hmin, hmax]
    norm_num
  refine ⟨c, a, b, b.pointerUp, e, hc, hone, ha, hb, htwo, rfl, he, hfour, ?_⟩
  rw [← htwice, htwo, hfour]
  norm_num

end Camera

end DebugDesk
