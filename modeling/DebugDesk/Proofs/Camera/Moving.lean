import DebugDesk.Proofs.Camera.Limits
import DebugDesk.Proofs.Camera.Transforms

/-!
# Moving a camera

The point of the canvas at which the pointer went down stays under the pointer, wherever that is
moved and whatever wheels and single touches do meanwhile. So where the camera is depends on where
the pointer went down and where it is now, and not on the way between.

A camera zooms about the center of its viewport: whatever makes it zoom, the point of the canvas
that is shown there stays there. Recentering is what brings another point there, at any zoom.
-/
namespace DebugDesk

namespace CameraCall

variable {α : Type}

/-- What may come between a press and its release: moves, wheels, touches that are no pair, and the
end of touches. -/
def Pans : CameraCall α → Prop
  | pointerMove _ | wheel _ | touchEnd => True
  | touchMove touches => touches.length ≠ 2
  | _ => False

/-- Where the pointer is after a call, if it was at a point before. -/
def pointer (p : Point α) : CameraCall α → Point α
  | pointerMove q => q
  | _ => p

def pointerAfter (p : Point α) (calls : List (CameraCall α)) : Point α := calls.foldl pointer p

/-- What makes a camera zoom: wheels, touches, up to their end, and being told to. -/
def Zooms : CameraCall α → Prop
  | wheel _ | touchMove _ | touchEnd | setZoom _ | zoomToFit .. => True
  | _ => False

end CameraCall

namespace Camera

section

/-- A camera pans since the pointer went down at a point of the screen, over a camera before, and by
now the pointer is at another point. -/
structure Panned (c : Camera ℚ) (pressed now : Point ℚ) (d : Camera ℚ) : Prop where
  state : d.state = .panning
  width : d.width = c.width
  height : d.height = c.height
  zoom : d.zoom = c.zoom
  origin : d.origin = ⟨pressed.x / c.zoom - c.x, pressed.y / c.zoom - c.y⟩
  x : d.x = now.x / c.zoom - (pressed.x / c.zoom - c.x)
  y : d.y = now.y / c.zoom - (pressed.y / c.zoom - c.y)

variable {c d : Camera ℚ} {p q : Point ℚ}

theorem panned_pointerDown (hc : c.Sound) (hstate : c.state ≠ .pinching) (p : Point ℚ) :
    ∃ d, c.pointerDown p = .ok d ∧ c.Panned p p d := by
  unfold pointerDown
  rw [if_neg hstate, Scalar.divide_of_not_le hc.zoom, Scalar.divide_of_not_le hc.zoom]
  exact ⟨_, rfl, rfl, rfl, rfl, rfl, rfl, (sub_sub_cancel _ _).symm, (sub_sub_cancel _ _).symm⟩

namespace Panned

/-- The pointer takes the camera along, from its origin. -/
theorem pointerMove (h : c.Panned p q d) (hc : c.Sound) (r : Point ℚ) :
    ∃ moved e, d.pointerMove r = .ok (moved, e) ∧ c.Panned p r e := by
  have hzoom : ¬d.zoom ≤ 0.0 := h.zoom ▸ hc.zoom
  unfold Camera.pointerMove
  rw [if_neg (not_not.mpr h.state), Scalar.divide_of_not_le hzoom, Scalar.divide_of_not_le hzoom]
  simp only [Effect.ok_bind, h.origin, h.zoom]
  split
  next hsame =>
    -- The camera is where the pointer takes it already.
    simp only [Bool.and_eq_true, beq_iff_eq] at hsame
    exact ⟨false, d, rfl, h.state, h.width, h.height, h.zoom, h.origin, hsame.1.symm, hsame.2.symm⟩
  next => exact ⟨true, _, rfl, h.state, h.width, h.height, rfl, rfl, rfl, rfl⟩

theorem call [ExactRoots] (h : c.Panned p q d) (hc : c.Sound) {call : CameraCall ℚ}
    (hcall : call.Pans) : ∃ e, call.apply d = .ok e ∧ c.Panned p (call.pointer q) e := by
  cases call with
  | pointerMove r =>
    obtain ⟨moved, e, hmove, he⟩ := h.pointerMove hc r
    exact ⟨e, by simp [CameraCall.apply, hmove], he⟩
  | wheel delta =>
    refine ⟨d, ?_, h⟩
    rw [CameraCall.apply, Camera.wheel, if_pos h.state]
  | touchMove touches => exact ⟨d, d.touchMove_of_length_ne hcall, h⟩
  | touchEnd =>
    refine ⟨_, rfl, ?_⟩
    rw [touchEnd, if_neg (by simp [h.state])]
    exact ⟨h.state, h.width, h.height, h.zoom, h.origin, h.x, h.y⟩
  | _ => exact hcall.elim

theorem callAll [ExactRoots] (h : c.Panned p q d) (hc : c.Sound) {calls : List (CameraCall ℚ)}
    (hcalls : ∀ call ∈ calls, call.Pans) :
    ∃ e, d.callAll calls = .ok e ∧ c.Panned p (CameraCall.pointerAfter q calls) e := by
  induction calls generalizing d q with
  | nil => exact ⟨d, rfl, h⟩
  | cons call calls ih =>
    obtain ⟨hcall, hcalls⟩ := List.forall_mem_cons.mp hcalls
    obtain ⟨e, he, hpanned⟩ := h.call hc hcall
    rw [Camera.callAll, he, Effect.ok_bind]
    exact ih hpanned hcalls

theorem screenToCanvas (h : c.Panned p q d) (hzoom : 0 < c.zoom) :
    d.screenToCanvas q = c.screenToCanvas p := by
  rw [screenToCanvas_eq (h.zoom ▸ hzoom), screenToCanvas_eq hzoom, h.width, h.height, h.zoom, h.x,
    h.y, Point.mk.injEq]
  constructor <;> ring

end Panned

/-- A camera that is not pinching pans as long as the pointer is down: the point of the canvas that
was pressed stays under the pointer, the zoom stays the same, and the camera has moved by as much as
the pointer has, whichever way that went. -/
theorem Reached.callAll_pans [ExactRoots] (hc : c.Reached) (hstate : c.state ≠ .pinching)
    (p : Point ℚ) (calls : List (CameraCall ℚ)) (hcalls : ∀ call ∈ calls, call.Pans) :
    ∃ d, c.callAll (.pointerDown p :: calls) = .ok d ∧
      d.screenToCanvas (CameraCall.pointerAfter p calls) = c.screenToCanvas p ∧
      d.zoom = c.zoom ∧
      d.x = c.x + ((CameraCall.pointerAfter p calls).x - p.x) / c.zoom ∧
      d.y = c.y + ((CameraCall.pointerAfter p calls).y - p.y) / c.zoom ∧
      ∀ others : List (CameraCall ℚ), (∀ call ∈ others, call.Pans) →
        CameraCall.pointerAfter p others = CameraCall.pointerAfter p calls →
        ∃ e, c.callAll (.pointerDown p :: others) = .ok e ∧ e.x = d.x ∧ e.y = d.y := by
  obtain ⟨b, hdown, hpressed⟩ := panned_pointerDown hc.sound hstate p
  have hrun : ∀ others : List (CameraCall ℚ), (∀ call ∈ others, call.Pans) →
      ∃ d, c.callAll (.pointerDown p :: others) = .ok d ∧
        c.Panned p (CameraCall.pointerAfter p others) d := by
    intro others hothers
    rw [Camera.callAll, CameraCall.apply, hdown, Effect.ok_bind]
    exact hpressed.callAll hc.sound hothers
  obtain ⟨d, hd, hpanned⟩ := hrun calls hcalls
  refine ⟨d, hd, hpanned.screenToCanvas hc.sound.zoom_pos, hpanned.zoom, ?_, ?_, ?_⟩
  · rw [hpanned.x]
    ring
  · rw [hpanned.y]
    ring
  · intro others hothers hsame
    obtain ⟨e, he, hpanned'⟩ := hrun others hothers
    rw [hsame] at hpanned'
    exact ⟨e, he, hpanned'.x.trans hpanned.x.symm, hpanned'.y.trans hpanned.y.symm⟩

/-- The pointer is moved there and back, a wheel turns, and a finger is put down and lifted. -/
def drag : List (CameraCall ℚ) :=
  [.pointerMove ⟨40, 25⟩, .wheel 3, .touchMove [⟨0, 0⟩], .touchEnd, .pointerMove ⟨10, 20⟩,
    .pointerMove ⟨70, -15⟩]

theorem drag_pans :
    let _ := ExactRoots.ofSquares
    ∃ c d : Camera ℚ, c.Reached ∧ c.zoom = 2 ∧ c.x = 20 ∧ c.y = 30 ∧
      (∀ call ∈ drag, call.Pans) ∧ c.callAll (.pointerDown ⟨10, 20⟩ :: drag) = .ok d ∧
      d.screenToCanvas ⟨70, -15⟩ = c.screenToCanvas ⟨10, 20⟩ ∧
      d.zoom = 2 ∧ d.x = 50 ∧ d.y = 25 / 2 := by
  intro _
  have hmake : Camera.make (α := ℚ) 100 100 .standard = .ok _ := if_neg (by decide +kernel)
  have hmoved : Reached _ := .call (.make hmake)
    (show CameraCall.apply _ (.setPosition 20 30) = .ok _ from rfl)
  have hzoomed : Reached _ := .call hmoved
    (show CameraCall.apply _ (.setZoom 2) = .ok _ from rfl)
  have hdrag : ∀ call ∈ drag, call.Pans := by simp [drag, CameraCall.Pans]
  obtain ⟨d, hd, hunder, hzoom, hx, hy, -⟩ :=
    hzoomed.callAll_pans (by decide +kernel) ⟨10, 20⟩ drag hdrag
  refine ⟨_, d, hzoomed, by decide +kernel, by decide +kernel, by decide +kernel, hdrag, hd, hunder,
    ?_, ?_, ?_⟩
  · rw [hzoom]
    decide +kernel
  · rw [hx]
    decide +kernel
  · rw [hy]
    decide +kernel

end

section

variable {α : Type} [Scalar α] {c d e : Camera α}

/-- A camera neither moves nor changes its size. -/
structure Stays (c d : Camera α) : Prop where
  width : d.width = c.width
  height : d.height = c.height
  x : d.x = c.x
  y : d.y = c.y

omit [Scalar α] in
theorem Stays.refl : c.Stays c := ⟨rfl, rfl, rfl, rfl⟩

omit [Scalar α] in
theorem Stays.trans (h : c.Stays d) (h' : d.Stays e) : c.Stays e :=
  ⟨h'.width.trans h.width, h'.height.trans h.height, h'.x.trans h.x, h'.y.trans h.y⟩

theorem stays_zoomTo (c : Camera α) (zoom : α) : c.Stays (c.zoomTo zoom) := by
  unfold zoomTo
  dsimp only
  split
  · exact .refl
  · exact ⟨rfl, rfl, rfl, rfl⟩

theorem stays_setZoom (c : Camera α) (zoom : α) : c.Stays (c.setZoom zoom) :=
  (c.stays_zoomTo zoom).trans ⟨rfl, rfl, rfl, rfl⟩

theorem stays_zoomToFit {width height margin : α} (h : c.zoomToFit width height margin = .ok d) :
    c.Stays d := by
  unfold zoomToFit at h
  split at h
  · cases h
    exact .refl
  · obtain ⟨across, -, h⟩ := Effect.bind_eq_ok h
    obtain ⟨down, -, h⟩ := Effect.bind_eq_ok h
    cases h
    exact c.stays_setZoom _

theorem stays_wheel (c : Camera α) (delta : α) : c.Stays (c.wheel delta) := by
  unfold wheel
  split
  · exact .refl
  · have hmark : c.Stays { c with trackpad := !isWhole delta } := ⟨rfl, rfl, rfl, rfl⟩
    exact hmark.trans (stays_zoomTo _ _)

omit [Scalar α] in
theorem stays_touchEnd (c : Camera α) : c.Stays c.touchEnd := by
  unfold touchEnd
  split <;> exact ⟨rfl, rfl, rfl, rfl⟩

end

section

variable {α : Type} [RootScalar α] {c d : Camera α}

theorem stays_touchMove {touches : List (Point α)} (h : c.touchMove touches = .ok d) :
    c.Stays d := by
  unfold touchMove at h
  split at h
  · dsimp only at h
    split at h
    · cases h
      exact ⟨rfl, rfl, rfl, rfl⟩
    · obtain ⟨ratio, -, h⟩ := Effect.bind_eq_ok h
      obtain ⟨root, -, h⟩ := Effect.bind_eq_ok h
      cases h
      exact c.stays_zoomTo _
  · cases h
    exact .refl

theorem stays_call {call : CameraCall α} (hcall : call.Zooms) (h : call.apply c = .ok d) :
    c.Stays d := by
  cases call with
  | wheel delta => exact Except.ok.inj h ▸ c.stays_wheel delta
  | touchMove touches => exact stays_touchMove h
  | touchEnd => exact Except.ok.inj h ▸ c.stays_touchEnd
  | setZoom zoom => exact Except.ok.inj h ▸ c.stays_setZoom zoom
  | zoomToFit width height margin => exact stays_zoomToFit h
  | _ => exact hcall.elim

end

open Exact

instance : SignedScalar ℚ where
  squareDistance_not_lt_zero x₁ y₁ x₂ y₂ := by
    rw [zero, not_lt]
    exact add_nonneg (mul_self_nonneg _) (mul_self_nonneg _)
  div_not_lt_zero ha hb := by
    rw [zero] at *
    rw [not_lt] at *
    exact div_nonneg ha hb.le

/-- However a camera was made and called, its limits are in order and kept. -/
theorem Reached.bounded [ExactRoots] {c : Camera ℚ} (h : c.Reached) :
    ∃ lo hi : ℚ, 0.0 < lo ∧ lo ≤ hi ∧ c.Bounded lo hi := by
  induction h with
  | @make width height settings c made =>
    have hsound := sound_of_make made
    have hmin : c.minZoom = settings.minZoom ∧ c.maxZoom = settings.maxZoom := by
      unfold Camera.make at made
      split at made
      · cases made
      · cases made
        exact ⟨rfl, rfl⟩
    have hlo : 0.0 < settings.minZoom := hmin.1 ▸ lt_of_not_ge hsound.minZoom
    have hle : settings.minZoom ≤ settings.maxZoom :=
      hmin.1 ▸ hmin.2 ▸ le_of_not_gt hsound.maxZoom
    obtain ⟨d, hd, hbounded⟩ := bounded_make width height hlo hle
    obtain rfl := Except.ok.inj (made.symm.trans hd)
    exact ⟨_, _, hlo, hle, hbounded⟩
  | @call c d call _ called ih =>
    obtain ⟨lo, hi, hlo, hle, hbounded⟩ := ih
    obtain ⟨e, he, hbounded⟩ := hbounded.call hlo hle call
    obtain rfl := Except.ok.inj (called.symm.trans he)
    exact ⟨lo, hi, hlo, hle, hbounded⟩
  | consumed _ ih =>
    obtain ⟨lo, hi, hlo, hle, h⟩ := ih
    exact ⟨lo, hi, hlo, hle, h.minZoom, h.maxZoom, h.zoom, h.lastZoom, h.baseline⟩

/-- Calls that zoom all succeed, and leave the camera where it is. -/
theorem Reached.zoomAll [ExactRoots] {c : Camera ℚ} (h : c.Reached) {calls : List (CameraCall ℚ)}
    (hcalls : ∀ call ∈ calls, call.Zooms) :
    ∃ d, c.callAll calls = .ok d ∧ d.Reached ∧ c.Stays d := by
  induction calls generalizing c with
  | nil => exact ⟨c, rfl, h, .refl⟩
  | cons call calls ih =>
    obtain ⟨hcall, hcalls⟩ := List.forall_mem_cons.mp hcalls
    obtain ⟨lo, hi, hlo, hle, hbounded⟩ := h.bounded
    obtain ⟨d, hd, -⟩ := hbounded.call hlo hle call
    obtain ⟨e, he, hreached, hstays⟩ := ih (h.call hd) hcalls
    rw [callAll, hd, Effect.ok_bind]
    exact ⟨e, he, hreached, (stays_call hcall hd).trans hstays⟩

def center (c : Camera ℚ) : Point ℚ := ⟨c.width / 2, c.height / 2⟩

theorem screenToCanvas_center {c : Camera ℚ} (hzoom : 0 < c.zoom) :
    c.screenToCanvas c.center = ⟨c.width / 2 - c.x, c.height / 2 - c.y⟩ := by
  rw [screenToCanvas_eq hzoom, center, sub_self, sub_self, zero_div, zero_add, zero_add]

theorem Stays.screenToCanvas_center {c d : Camera ℚ} (h : c.Stays d) (hc : 0 < c.zoom)
    (hd : 0 < d.zoom) : d.screenToCanvas d.center = c.screenToCanvas c.center := by
  rw [Camera.screenToCanvas_center hc, Camera.screenToCanvas_center hd, h.width, h.height, h.x, h.y]

theorem position_recenter (c : Camera ℚ) (p : Point ℚ) :
    (c.recenter p).width = c.width ∧ (c.recenter p).height = c.height ∧
      (c.recenter p).x = c.width / 2 - p.x ∧ (c.recenter p).y = c.height / 2 - p.y := by
  unfold recenter setPosition
  rw [two]
  split
  next hsame =>
    simp only [Bool.and_eq_true, beq_iff_eq] at hsame
    exact ⟨rfl, rfl, hsame.1.symm, hsame.2.symm⟩
  next => exact ⟨rfl, rfl, rfl, rfl⟩

theorem screenToCanvas_recenter {c : Camera ℚ} (p : Point ℚ) (hzoom : 0 < (c.recenter p).zoom) :
    (c.recenter p).screenToCanvas (c.recenter p).center = p := by
  obtain ⟨hwidth, hheight, hx, hy⟩ := c.position_recenter p
  rw [screenToCanvas_center hzoom, hwidth, hheight, hx, hy, sub_sub_cancel, sub_sub_cancel]

/-- Whatever was done to a camera, it maps the screen to the canvas and back without loss. All that
makes it zoom leaves the point of the canvas at the center of the viewport there, and after
recentering that point is the one asked for, at any zoom. -/
theorem Reached.zooms_about_center [ExactRoots] {c : Camera ℚ} (h : c.Reached) :
    (∀ p, c.screenToCanvas (c.canvasToScreen p) = p) ∧
    (∀ p, c.canvasToScreen (c.screenToCanvas p) = p) ∧
    (∀ calls : List (CameraCall ℚ), (∀ call ∈ calls, call.Zooms) →
      ∃ d, c.callAll calls = .ok d ∧ d.screenToCanvas d.center = c.screenToCanvas c.center) ∧
    ∀ (p : Point ℚ) (calls : List (CameraCall ℚ)), (∀ call ∈ calls, call.Zooms) →
      ∃ d, (c.recenter p).callAll calls = .ok d ∧ d.screenToCanvas d.center = p := by
  have hzoom := h.sound.zoom_pos
  have hcentered : ∀ {c : Camera ℚ}, c.Reached → ∀ calls : List (CameraCall ℚ),
      (∀ call ∈ calls, call.Zooms) →
      ∃ d, c.callAll calls = .ok d ∧ d.screenToCanvas d.center = c.screenToCanvas c.center := by
    intro c h calls hcalls
    obtain ⟨d, hd, hreached, hstays⟩ := h.zoomAll hcalls
    exact ⟨d, hd, hstays.screenToCanvas_center h.sound.zoom_pos hreached.sound.zoom_pos⟩
  refine ⟨screenToCanvas_map hzoom, map_screenToCanvas hzoom, hcentered h, fun p calls hcalls => ?_⟩
  have hreached : (c.recenter p).Reached :=
    h.call (show CameraCall.apply c (.recenter p) = .ok (c.recenter p) from rfl)
  obtain ⟨d, hd, hcenter⟩ := hcentered hreached calls hcalls
  exact ⟨d, hd, hcenter.trans (screenToCanvas_recenter p hreached.sound.zoom_pos)⟩

/-- Two fingers move apart, a wheel turns on, and an extent is fitted in after that. -/
def zoomingCalls : List (CameraCall ℚ) :=
  [.touchMove [⟨0, 0⟩, ⟨10, 0⟩], .touchMove [⟨0, 0⟩, ⟨25, 0⟩], .wheel (1 / 2), .touchEnd,
    .zoomToFit 200 50 1]

theorem zoomingCalls_zoom_about_center :
    let _ := ExactRoots.ofSquares
    ∃ c : Camera ℚ, c.Reached ∧ (∀ call ∈ zoomingCalls, call.Zooms) ∧
      c.screenToCanvas (c.canvasToScreen ⟨3, 4⟩) = ⟨3, 4⟩ ∧
      c.canvasToScreen (c.screenToCanvas ⟨3, 4⟩) = ⟨3, 4⟩ ∧
      (c.callAll zoomingCalls).toOption.map Camera.zoom = some (1 / 2) ∧
      (∃ d, c.callAll zoomingCalls = .ok d ∧
        d.screenToCanvas d.center = c.screenToCanvas c.center) ∧
      ∃ d, (c.recenter ⟨7, -3⟩).callAll zoomingCalls = .ok d ∧
        d.screenToCanvas d.center = ⟨7, -3⟩ := by
  intro _
  have hmake : Camera.make (α := ℚ) 100 100 .standard = .ok _ := if_neg (by decide +kernel)
  have hmoved : Reached _ := .call (.make hmake)
    (show CameraCall.apply _ (.setPosition 20 30) = .ok _ from rfl)
  have hcalls : ∀ call ∈ zoomingCalls, call.Zooms := by simp [zoomingCalls, CameraCall.Zooms]
  obtain ⟨hcanvas, hscreen, hzoom, hrecenter⟩ := hmoved.zooms_about_center
  exact ⟨_, hmoved, hcalls, hcanvas _, hscreen _, by decide +kernel, hzoom _ hcalls,
    hrecenter _ _ hcalls⟩

end Camera

end DebugDesk
