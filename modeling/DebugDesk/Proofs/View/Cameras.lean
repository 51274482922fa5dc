import DebugDesk.Camera
import DebugDesk.Effect

/-!
# Calls of a camera

The zoom of a camera is never zero, so no division by it fails, and a call that changes what is
visible marks the camera dirty.
-/
namespace DebugDesk

namespace Scalar

variable {α : Type} [Scalar α]

theorem lt_of_not_le {a b : α} (ha : a ≤ a) (hb : b ≤ b) (h : ¬b ≤ a) : a < b :=
  (lt_iff a b).mpr ⟨(le_total ha hb).resolve_right h, h⟩

/-- What is clamped between positive bounds is positive. -/
theorem not_clamp_le {x lo hi z : α} (hlo : ¬lo ≤ z) (hhi : ¬hi < lo) : ¬clamp x lo hi ≤ z := by
  intro h
  unfold clamp lesser at h
  split at h
  next hlt =>
    unfold greater at hlt
    split at hlt
    next hx =>
      have hlox := ((lt_iff lo x).mp hx).1
      by_cases hle : lo ≤ hi
      · exact hlo (le_trans hle h)
      · exact hhi (lt_of_not_le (le_left h) (le_left hlox) hle)
    next => exact hhi hlt
  next =>
    unfold greater at h
    split at h
    next hx => exact hlo (le_trans ((lt_iff lo x).mp hx).1 h)
    next => exact hlo h

theorem beq_zero_of_not_le {a : α} (h : ¬a ≤ 0.0) : (a == 0.0) = false := by
  cases he : a == 0.0 with
  | false => rfl
  | true => exact absurd ((beq_iff a 0.0).mp he).1 h

theorem divide_of_not_le {a b : α} (h : ¬b ≤ 0.0) : divide a b = .ok (a / b) := by
  simp [divide, beq_zero_of_not_le h]

end Scalar

namespace Camera

variable {α : Type} [Scalar α] {c d e : Camera α}

/-- The limits of the zoom are in order, and zoom and limits above zero. -/
structure Sound (c : Camera α) : Prop where
  minZoom : ¬c.minZoom ≤ 0.0
  maxZoom : ¬c.maxZoom < c.minZoom
  zoom : ¬c.zoom ≤ 0.0

theorem sound_of_make {width height : α} {s : CameraSettings α} (h : make width height s = .ok c) :
    c.Sound := by
  unfold make at h
  split at h
  next => exact nomatch h
  next hlimits =>
    simp only [Bool.or_eq_true, decide_eq_true_eq, not_or] at hlimits
    cases h
    exact ⟨hlimits.1, hlimits.2, Scalar.not_clamp_le hlimits.1 hlimits.2⟩

/-- Whether two cameras show the same, with the same mark. -/
structure Still (c d : Camera α) : Prop where
  width : d.width = c.width
  height : d.height = c.height
  x : d.x = c.x
  y : d.y = c.y
  zoom : d.zoom = c.zoom
  dirty : d.dirty = c.dirty

/-- How a camera may change: it is still, or marked. -/
structure Moves (c d : Camera α) : Prop where
  sound : c.Sound → d.Sound
  marked : d.dirty = true ∨ c.Still d

omit [Scalar α] in
theorem Still.refl : c.Still c := ⟨rfl, rfl, rfl, rfl, rfl, rfl⟩

theorem Moves.refl : c.Moves c := ⟨id, .inr .refl⟩

theorem Moves.trans (h : c.Moves d) (h' : d.Moves e) : c.Moves e := by
  refine ⟨h'.sound ∘ h.sound, h'.marked.elim .inl fun s => h.marked.imp (s.dirty.trans ·) ?_⟩
  intro t
  exact ⟨s.width.trans t.width, s.height.trans t.height, s.x.trans t.x, s.y.trans t.y,
    s.zoom.trans t.zoom, s.dirty.trans t.dirty⟩

theorem moves_setSize (c : Camera α) (width height : α) : c.Moves (c.setSize width height) := by
  unfold setSize
  split
  · exact .refl
  · exact ⟨fun h => ⟨h.minZoom, h.maxZoom, h.zoom⟩, .inl rfl⟩

theorem moves_setPosition (c : Camera α) (x y : α) : c.Moves (c.setPosition x y) := by
  unfold setPosition
  split
  · exact .refl
  · exact ⟨fun h => ⟨h.minZoom, h.maxZoom, h.zoom⟩, .inl rfl⟩

theorem moves_recenter (c : Camera α) (p : Point α) : c.Moves (c.recenter p) :=
  moves_setPosition c _ _

theorem moves_zoomTo (c : Camera α) (zoom : α) : c.Moves (c.zoomTo zoom) := by
  unfold zoomTo
  dsimp only
  split
  · exact .refl
  · exact ⟨fun h => ⟨h.minZoom, h.maxZoom, Scalar.not_clamp_le h.minZoom h.maxZoom⟩, .inl rfl⟩

theorem Moves.of_still (h : c.Still d) (hmin : d.minZoom = c.minZoom)
    (hmax : d.maxZoom = c.maxZoom) : c.Moves d := by
  refine ⟨fun hc => ⟨?_, ?_, ?_⟩, .inr h⟩
  · exact hmin ▸ hc.minZoom
  · exact hmin ▸ hmax ▸ hc.maxZoom
  · exact h.zoom ▸ hc.zoom

theorem moves_setZoom (c : Camera α) (zoom : α) : c.Moves (c.setZoom zoom) :=
  (moves_zoomTo c zoom).trans (.of_still ⟨rfl, rfl, rfl, rfl, rfl, rfl⟩ rfl rfl)

theorem moves_zoomToFit {width height margin : α} (h : c.zoomToFit width height margin = .ok d) :
    c.Moves d := by
  unfold zoomToFit at h
  split at h
  · cases h
    exact .refl
  · obtain ⟨across, -, h⟩ := Effect.bind_eq_ok h
    obtain ⟨down, -, h⟩ := Effect.bind_eq_ok h
    cases h
    exact moves_setZoom c _

theorem moves_pointerDown {p : Point α} (h : c.pointerDown p = .ok d) : c.Moves d := by
  unfold pointerDown at h
  split at h
  · cases h
    exact .refl
  · obtain ⟨x, -, h⟩ := Effect.bind_eq_ok h
    obtain ⟨y, -, h⟩ := Effect.bind_eq_ok h
    cases h
    exact .of_still ⟨rfl, rfl, rfl, rfl, rfl, rfl⟩ rfl rfl

theorem moves_pointerMove {p : Point α} {moved : Bool} (h : c.pointerMove p = .ok (moved, d)) :
    c.Moves d := by
  unfold pointerMove at h
  split at h
  · cases h
    exact .refl
  · obtain ⟨x, -, h⟩ := Effect.bind_eq_ok h
    obtain ⟨y, -, h⟩ := Effect.bind_eq_ok h
    dsimp only at h
    split at h
    · cases h
      exact .refl
    · cases h
      exact ⟨fun h => ⟨h.minZoom, h.maxZoom, h.zoom⟩, .inl rfl⟩

theorem moves_pointerUp (c : Camera α) : c.Moves c.pointerUp :=
  .of_still ⟨rfl, rfl, rfl, rfl, rfl, rfl⟩ rfl rfl

theorem moves_wheel (c : Camera α) (delta : α) : c.Moves (c.wheel delta) := by
  unfold wheel
  split
  · exact .refl
  · have h : c.Moves { c with trackpad := !isWhole delta } :=
      .of_still ⟨rfl, rfl, rfl, rfl, rfl, rfl⟩ rfl rfl
    exact h.trans (moves_zoomTo _ _)

theorem moves_touchEnd (c : Camera α) : c.Moves c.touchEnd := by
  unfold touchEnd
  split <;> exact .of_still ⟨rfl, rfl, rfl, rfl, rfl, rfl⟩ rfl rfl

theorem Sound.consumed (h : c.Sound) : c.consumeDirty.2.Sound := ⟨h.minZoom, h.maxZoom, h.zoom⟩

end Camera

theorem Camera.moves_touchMove {α : Type} [RootScalar α] {c d : Camera α} {ps : List (Point α)}
    (h : c.touchMove ps = .ok d) : c.Moves d := by
  unfold touchMove at h
  split at h
  · dsimp only at h
    split at h
    · cases h
      exact .of_still ⟨rfl, rfl, rfl, rfl, rfl, rfl⟩ rfl rfl
    · obtain ⟨ratio, -, h⟩ := Effect.bind_eq_ok h
      obtain ⟨root, -, h⟩ := Effect.bind_eq_ok h
      cases h
      exact moves_zoomTo c _
  · cases h
    exact .refl

end DebugDesk
