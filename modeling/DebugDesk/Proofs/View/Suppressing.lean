import DebugDesk.Proofs.Number.Sums
import DebugDesk.Proofs.View.Presses

/-!
# Clicks after a drag

A press that was dragged, or that is released while the camera does not pan, is no click, and for a
while after its release no press is. That begins with the release of a press only: a pointer that is
released without one, be it amidst a pinch, does not keep anything from being a click.
-/
namespace DebugDesk.View

def Deed.releasedAt? {α : Type} : Deed α → Option α
  | .happens (.gesture (.pointerUp _ time)) => some time
  | _ => none

/-- Gestures of the pointer that end nothing. -/
def Gesture.Ongoing {α : Type} : Gesture α → Prop
  | pointerDown _ | pointerMove _ | wheel _ => True
  | _ => False

section

variable {α : Type} [Scalar α] {v : View α} {gs : GraphStore} {p : Point α} {time : α}
  {c : Clicked α}

theorem Release.deadline (h : Release v gs p time c) :
    c.view.suppressClicksUntil = v.suppressClicksUntil ∨
      c.view.suppressClicksUntil = time + v.clickSuppression := by
  cases h with
  | dragged => exact .inr rfl
  | click => exact .inl (samePointer_selectAt v.released gs p).deadline
  | _ => exact .inl rfl

/-- A press that is no click by itself selects nothing, and suppresses clicks anew. -/
theorem Release.of_dragged (h : Release v gs p time c) (hpress : v.press.isSome = true)
    (hdragged : v.dragged = true ∨ v.camera.state ≠ .panning) :
    c.graphs = gs ∧ c.told = [] ∧ c.view.suppressClicksUntil = time + v.clickSuppression := by
  have hclick (still : v.dragged = false) (panning : v.camera.state = .panning) : False :=
    hdragged.elim (fun h => by cases h.symm.trans still) (absurd panning)
  cases h with
  | unpressed press => simp [press] at hpress
  | dragged => exact ⟨rfl, rfl, rfl⟩
  | early _ still panning => exact (hclick still panning).elim
  | click _ still panning => exact (hclick still panning).elim

theorem Release.of_early (h : Release v gs p time c) (hearly : time < v.suppressClicksUntil) :
    c.graphs = gs ∧ c.told = [] := by
  cases h with
  | click _ _ _ late => exact absurd hearly late
  | _ => exact ⟨rfl, rfl⟩

end

namespace Ledger

section

variable {α : Type} [RootScalar α] {s : Ledger α}

/-- What does not end a press selects nothing. -/
theorem graphs_of_ongoing (s : Ledger α) {gesture : Gesture α} (h : gesture.Ongoing) :
    (s.step (.happens (.gesture gesture))).graphs = s.graphs ∧
      s.told (.happens (.gesture gesture)) = [] := by
  rcases hgesture : gesture.apply s.view s.graphs with fault | ⟨w, hs⟩
  · rw [step_gesture_error hgesture]
    exact ⟨rfl, Gesture.told_of_error hgesture⟩
  rw [step_gesture hgesture]
  cases gesture with
  | pointerDown p =>
    obtain ⟨u, -, hok⟩ := Effect.bind_eq_ok hgesture
    cases hok
    exact ⟨rfl, rfl⟩
  | pointerMove p =>
    obtain ⟨u, -, hok⟩ := Effect.bind_eq_ok hgesture
    cases hok
    exact ⟨rfl, rfl⟩
  | wheel delta =>
    cases hgesture
    exact ⟨rfl, rfl⟩
  | _ => exact h.elim

/-- Only a release changes until when clicks are suppressed. -/
theorem Kept.deadline_step (h : s.Kept) (deed : Deed α) :
    (s.step deed).view.suppressClicksUntil = s.view.suppressClicksUntil ∨
      ∃ time, deed.releasedAt? = some time ∧
        (s.step deed).view.suppressClicksUntil = time + s.view.clickSuppression := by
  have hpointed := h.pointed deed
  generalize (s.step deed).view = w at hpointed ⊢
  cases hpointed with
  | aside _ hsame => exact .inl hsame.deadline
  | down => exact .inl rfl
  | hover => exact .inl rfl
  | move => exact .inl rfl
  | up p time =>
    exact (s.view.release s.graphs p time).deadline.imp_right fun hdeadline =>
      ⟨time, rfl, hdeadline⟩

end

variable {s : Ledger Float} {dragThreshold clickSuppression since : Float}
  {latest : Option (Press Float)}

/-- Whether clicks are suppressed from a moment on for as long as they are to be. -/
def Waits (s : Ledger Float) (since : Float) : Prop :=
  ∀ time, time < since + s.view.clickSuppression → time < s.view.suppressClicksUntil

theorem Kept.waits_step (h : s.Kept) (htracks : s.view.Tracks dragThreshold clickSuppression latest)
    (hwaits : s.Waits since) {deed : Deed Float}
    (hlater : ∀ time ∈ deed.releasedAt?, since ≤ time) : (s.step deed).Waits since := by
  have hsame : (s.step deed).view.clickSuppression = s.view.clickSuppression :=
    (h.tracks_step htracks deed).suppression.trans htracks.suppression.symm
  intro time htime
  rw [hsame] at htime
  -- A deadline that moves does so by a release that is not earlier, so it moves on.
  rcases h.deadline_step deed with hkept | ⟨released, hreleased, hanew⟩
  · rw [hkept]
    exact hwaits time htime
  · rw [hanew]
    exact Binary64.lt_add_of_le (hlater released hreleased) htime

theorem Kept.waits_run (h : s.Kept) (htracks : s.view.Tracks dragThreshold clickSuppression latest)
    (hwaits : s.Waits since) {deeds : List (Deed Float)}
    (hlater : ∀ deed ∈ deeds, ∀ time ∈ deed.releasedAt?, since ≤ time) :
    (s.run deeds).Waits since := by
  induction deeds generalizing s latest with
  | nil => exact hwaits
  | cons deed deeds ih =>
    obtain ⟨hdeed, hdeeds⟩ := List.forall_mem_cons.mp hlater
    exact ih (h.step deed) (h.tracks_step htracks deed) (h.waits_step htracks hwaits hdeed) hdeeds

/-- However a view and its graphs are used, nothing that does not end a press selects anything, and
neither does the release of a press that was dragged, or of any press while the camera does not pan;
and then, if releases do not go back in time, no release does until clicks are no longer suppressed,
whatever is done meanwhile. -/
theorem run_suppresses {width height : Float} {settings : CameraSettings Float}
    {camera : Camera Float} (hmake : Camera.make width height settings = .ok camera)
    (style : ViewStyle Float) (dragThreshold clickSuppression : Float) (deeds : List (Deed Float)) :
    let s := (start camera style dragThreshold clickSuppression).run deeds
    (∀ gesture : Gesture Float, gesture.Ongoing →
      (s.step (.happens (.gesture gesture))).graphs = s.graphs ∧
        s.told (.happens (.gesture gesture)) = []) ∧
    ∀ (x : Press Float) (p : Point Float) (since : Float), Press.last? deeds = some x →
      (x.Dragged dragThreshold ∨ s.view.camera.state ≠ .panning) →
      let up := Deed.happens (.gesture (.pointerUp p since))
      (s.step up).graphs = s.graphs ∧ s.told up = [] ∧
      ∀ more : List (Deed Float), (∀ deed ∈ more, ∀ time ∈ deed.releasedAt?, since ≤ time) →
        ∀ (q : Point Float) (time : Float), time < since + clickSuppression →
          let t := (s.step up).run more
          let next := Deed.happens (.gesture (.pointerUp q time))
          (t.step next).graphs = t.graphs ∧ t.told next = [] := by
  intro s
  have hnew := kept_start (Camera.sound_of_make hmake) style dragThreshold clickSuppression
  have hkept : s.Kept := hnew.run deeds
  have htracks : s.view.Tracks dragThreshold clickSuppression (Press.last? deeds) :=
    hnew.tracks_run (tracks_start camera style dragThreshold clickSuppression) deeds
  refine ⟨fun gesture hongoing => s.graphs_of_ongoing hongoing, ?_⟩
  intro x p since hlast hdragged up
  have hpress : s.view.press.isSome = true := by simp [htracks.press, hlast]
  obtain ⟨hgraphs, htold, hdeadline⟩ := (s.view.release s.graphs p since).of_dragged hpress
    (hdragged.imp_left (htracks.dragged x hlast).mpr)
  refine ⟨hgraphs, htold, fun more hlater q time htime => ?_⟩
  intro t next
  have hkept' : (s.step up).Kept := hkept.step up
  have htracks' := hkept.tracks_step htracks up
  have hwaits : (s.step up).Waits since := fun time htime => by
    rw [htracks'.suppression, ← htracks.suppression] at htime
    exact hdeadline ▸ htime
  have hlast' := hkept'.waits_run htracks' hwaits hlater time
  have hsuppression := (hkept'.tracks_run htracks' more).suppression
  rw [hsuppression] at hlast'
  exact (t.view.release t.graphs q time).of_early (hlast' htime)

/-- The pointer is moved far away before it is released, and goes down once more. -/
theorem dragged_suppresses :
    let deeds := pressed ++ [.happens (.gesture (.pointerMove ⟨50.0, 0.0⟩))]
    let s := (start Stage.opened .standard standardDragThreshold standardClickSuppression).run deeds
    let up := Deed.happens (.gesture (.pointerUp ⟨50.0, 0.0⟩ 100.0))
    let t := (s.step up).run [.happens (.gesture (.pointerDown ⟨9.0, 9.0⟩))]
    let next := Deed.happens (.gesture (.pointerUp ⟨9.0, 9.0⟩ 100.1))
    (s.step up).graphs = s.graphs ∧ (t.step next).graphs = t.graphs ∧ t.told next = [] := by
  intro deeds s up t next
  obtain ⟨-, hreleases⟩ := run_suppresses Stage.make_opened .standard standardDragThreshold
    standardClickSuppression deeds
  have hdragged : Press.Dragged standardDragThreshold
      (⟨⟨0.0, 0.0⟩, [⟨50.0, 0.0⟩]⟩ : Press Float) := by
    refine ⟨_, List.mem_cons_self, ?_⟩
    unfold Press.Strays
    decide +kernel
  obtain ⟨hgraphs, -, hsuppressed⟩ := hreleases _ ⟨50.0, 0.0⟩ 100.0 rfl (.inl hdragged)
  refine ⟨hgraphs, hsuppressed _ (fun deed hdeed time htime => ?_) _ _ (by decide +kernel)⟩
  obtain rfl := List.mem_singleton.mp hdeed
  cases htime

def pinched : List (Deed Float) :=
  [.happens (.create .nothing), .happens (.alter 0 .addVertex), .happens (.setGraph (some 0)),
    .select 0 (some (.inside 0)),
    .happens (.gesture (.camera (.touchMove [⟨0.0, 0.0⟩, ⟨100.0, 0.0⟩])))]

/-- A release without a press suppresses no clicks, though the camera pinches. -/
theorem released_without_press_suppresses_nothing :
    let s := (start Stage.opened .standard standardDragThreshold
      standardClickSuppression).run pinched
    let t := (s.step (.happens (.gesture (.pointerUp ⟨400.0, 300.0⟩ 100.0)))).run
      [.happens (.gesture (.camera .touchEnd)), .happens (.gesture (.pointerDown ⟨9.0, 9.0⟩))]
    let next := Deed.happens (.gesture (.pointerUp ⟨9.0, 9.0⟩ 100.1))
    s.view.camera.state ≠ .panning ∧ (100.0 : Float) ≤ 100.1 ∧
      (100.1 : Float) < 100.0 + standardClickSuppression ∧
      (t.graphs.graph 0).vertices.map Vertex.selected = [true] ∧
      ((t.step next).graphs.graph 0).vertices.map Vertex.selected = [false] ∧
      t.told next = [none] :=
  ⟨by decide +kernel, by decide +kernel, by decide +kernel, by decide +kernel, by decide +kernel,
    by decide +kernel⟩

end Ledger

end DebugDesk.View
