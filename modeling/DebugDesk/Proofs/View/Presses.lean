import DebugDesk.Proofs.View.Selecting

/-!
# Presses and clicks

A press is a click only if the pointer was moved nowhere, since it is down, that is as far away as
the threshold. Only moves of the pointer are looked at: where the press is released does not matter,
so far away from where it began it may still be a click.
-/
namespace DebugDesk.View

structure Press (α : Type) where
  start : Point α
  /-- Where the pointer was moved since. -/
  path : List (Point α)

def Gesture.Points {α : Type} : Gesture α → Prop
  | pointerDown _ | pointerMove _ | pointerUp .. => True
  | _ => False

def Deed.Points {α : Type} : Deed α → Prop
  | .happens (.gesture gesture) => gesture.Points
  | _ => False

namespace Press

variable {α : Type}

def after (press : Option (Press α)) : Deed α → Option (Press α)
  | .happens (.gesture (.pointerDown p)) => some ⟨p, []⟩
  | .happens (.gesture (.pointerMove p)) => press.map fun x => { x with path := x.path ++ [p] }
  | .happens (.gesture (.pointerUp ..)) => none
  | _ => press

/-- The press that is going on after some deeds, the first ones of a view. -/
def last? (deeds : List (Deed α)) : Option (Press α) := deeds.foldl after none

theorem after_of_not_points {deed : Deed α} (h : ¬deed.Points) (press : Option (Press α)) :
    after press deed = press := by
  rcases deed with (_ | _ | _ | (_ | _ | _ | _ | _ | _ | _ | _ | _) | _) | _ | _ | _
  case happens.gesture.pointerDown => exact absurd trivial h
  case happens.gesture.pointerMove => exact absurd trivial h
  case happens.gesture.pointerUp => exact absurd trivial h
  all_goals rfl

variable [RootScalar α] {threshold : α}

/-- Whether a point is as far from where the press began as the threshold. -/
def Strays (threshold : α) (x : Press α) (p : Point α) : Prop :=
  threshold ≤ RootScalar.hypotenuse (p.x - x.start.x) (p.y - x.start.y)

/-- Whether the pointer was moved to a point that is as far away as the threshold. -/
def Dragged (threshold : α) (x : Press α) : Prop := ∃ p ∈ x.path, x.Strays threshold p

theorem dragged_move (x : Press α) (p : Point α) :
    Dragged threshold { x with path := x.path ++ [p] } ↔
      x.Dragged threshold ∨ x.Strays threshold p := by
  simp [Dragged, Strays, or_and_right, exists_or]

end Press

section

variable {α : Type} {u v w : View α}

structure SamePointer (v w : View α) : Prop where
  press : w.press = v.press
  dragged : w.dragged = v.dragged
  deadline : w.suppressClicksUntil = v.suppressClicksUntil
  threshold : w.dragThreshold = v.dragThreshold
  suppression : w.clickSuppression = v.clickSuppression

theorem SamePointer.refl (v : View α) : v.SamePointer v := ⟨rfl, rfl, rfl, rfl, rfl⟩

theorem SamePointer.trans (h : u.SamePointer v) (h' : v.SamePointer w) : u.SamePointer w :=
  ⟨h'.press.trans h.press, h'.dragged.trans h.dragged, h'.deadline.trans h.deadline,
    h'.threshold.trans h.threshold, h'.suppression.trans h.suppression⟩

variable [Scalar α] {gs hs : GraphStore}

theorem Prepared.samePointer {r : Except Fault Bool} {a : Option Attempt}
    (h : Prepared v gs r w a) : v.SamePointer w := by
  cases h <;> exact ⟨rfl, rfl, rfl, rfl, rfl⟩

omit [Scalar α] in
theorem samePointer_setGraph (v : View α) (gs : GraphStore) (graph : Option Nat) :
    v.SamePointer (v.setGraph gs graph).1 := by
  unfold setGraph
  split <;> exact ⟨rfl, rfl, rfl, rfl, rfl⟩

theorem samePointer_recenter (h : v.recenter gs = .ok w) : v.SamePointer w := by
  unfold recenter at h
  split at h
  · cases h
    exact ⟨rfl, rfl, rfl, rfl, rfl⟩
  · obtain ⟨p, -, h⟩ := Effect.bind_eq_ok h
    cases h
    exact ⟨rfl, rfl, rfl, rfl, rfl⟩

theorem samePointer_zoomToFit (h : v.zoomToFit = .ok w) : v.SamePointer w := by
  unfold zoomToFit at h
  split at h
  · cases h
    exact .refl v
  · obtain ⟨c, -, h⟩ := Effect.bind_eq_ok h
    cases h
    exact ⟨rfl, rfl, rfl, rfl, rfl⟩

theorem samePointer_selectAt (v : View α) (gs : GraphStore) (p : Point α) :
    v.SamePointer (v.selectAt gs p).view := by
  unfold selectAt
  split <;> exact ⟨rfl, rfl, rfl, rfl, rfl⟩

/-- What a frame does after preparing is of no matter to the pointer. -/
theorem samePointer_update (engine : LayoutEngine α) (measure : Measure Id α) (gs : GraphStore)
    (v : View α) :
    (Effect.outcome (preprocess engine measure gs) v).2.SamePointer
      (Effect.outcome (update engine measure gs) v).2 := by
  rw [outcome_update]
  rcases Effect.outcome (preprocess engine measure gs) v with ⟨fault | answer, w⟩
  · exact .refl w
  dsimp only
  split
  · exact .refl w
  split <;> exact ⟨rfl, rfl, rfl, rfl, rfl⟩

/-- A press of the pointer begins, whatever the camera makes of it. -/
theorem pointerDown_eq (h : v.camera.Sound) (p : Point α) :
    ∃ camera, v.pointerDown p = .ok { v with camera, press := some p, dragged := false } := by
  obtain ⟨camera, hcamera⟩ : ∃ camera, v.camera.pointerDown p = .ok camera := by
    unfold Camera.pointerDown
    split
    · exact ⟨_, rfl⟩
    · rw [Scalar.divide_of_not_le h.zoom, Scalar.divide_of_not_le h.zoom]
      exact ⟨_, rfl⟩
  exact ⟨camera, by rw [pointerDown, hcamera]; rfl⟩

theorem Release.view {p : Point α} {time : α} {c : Clicked α} (h : Release v gs p time c) :
    c.view.press = none ∧ c.view.dragThreshold = v.dragThreshold ∧
      c.view.clickSuppression = v.clickSuppression := by
  cases h with
  | click =>
    have hsame := samePointer_selectAt v.released gs p
    exact ⟨hsame.press, hsame.threshold, hsame.suppression⟩
  | _ => exact ⟨rfl, rfl, rfl⟩

end

section

variable {α : Type} [RootScalar α] {v w : View α} {gs hs : GraphStore}

/-- A move of the pointer drags from where it is far enough away. -/
theorem pointerMove_eq (h : v.camera.Sound) {start : Point α} (hpress : v.press = some start)
    (p : Point α) :
    ∃ camera, v.pointerMove p = .ok { v with
      camera
      dragged := v.dragged ||
        decide (v.dragThreshold ≤ RootScalar.hypotenuse (p.x - start.x) (p.y - start.y)) } := by
  obtain ⟨moved, camera, hcamera⟩ :
      ∃ moved camera, v.camera.pointerMove p = .ok (moved, camera) := by
    unfold Camera.pointerMove
    split
    · exact ⟨_, _, rfl⟩
    · rw [Scalar.divide_of_not_le h.zoom, Scalar.divide_of_not_le h.zoom]
      simp only [Effect.ok_bind]
      split <;> exact ⟨_, _, rfl⟩
  unfold pointerMove
  rw [hpress]
  dsimp only
  split
  · exact ⟨camera, by rw [hcamera]; rfl⟩
  · exact ⟨v.camera, rfl⟩

theorem Gesture.samePointer {gesture : Gesture α} (h : gesture.apply v gs = .ok (w, hs))
    (hpoints : ¬gesture.Points) : v.SamePointer w := by
  cases gesture with
  | pointerDown p => exact absurd trivial hpoints
  | pointerMove p => exact absurd trivial hpoints
  | pointerUp p time => exact absurd trivial hpoints
  | wheel delta =>
    cases h
    exact ⟨rfl, rfl, rfl, rfl, rfl⟩
  | recenter =>
    obtain ⟨u, hu, h⟩ := Effect.bind_eq_ok h
    cases h
    exact samePointer_recenter hu
  | zoomToFit =>
    obtain ⟨u, hu, h⟩ := Effect.bind_eq_ok h
    cases h
    exact samePointer_zoomToFit hu
  | setSuppressed suppressed =>
    cases h
    exact ⟨rfl, rfl, rfl, rfl, rfl⟩
  | selectAt p =>
    cases h
    exact samePointer_selectAt v gs p
  | camera call =>
    obtain ⟨c, -, h⟩ := Effect.bind_eq_ok h
    cases h
    exact ⟨rfl, rfl, rfl, rfl, rfl⟩

/-- What a view knows of the press that is going on. -/
structure Tracks (threshold suppression : α) (latest : Option (Press α)) (v : View α) : Prop where
  press : v.press = latest.map Press.start
  dragged : ∀ x, latest = some x → (v.dragged = true ↔ x.Dragged threshold)
  threshold : v.dragThreshold = threshold
  suppression : v.clickSuppression = suppression

variable {threshold suppression : α} {latest : Option (Press α)}

theorem Tracks.of_samePointer (h : v.Tracks threshold suppression latest)
    (hsame : v.SamePointer w) :
    w.Tracks threshold suppression latest :=
  ⟨hsame.press.trans h.press, fun x hx => hsame.dragged ▸ h.dragged x hx,
    hsame.threshold.trans h.threshold, hsame.suppression.trans h.suppression⟩

/-- A release that changes a graph, or is told, ends a press that went nowhere far away. -/
theorem Tracks.still_of_click (h : v.Tracks threshold suppression latest) {p : Point α} {time : α}
    {c : Clicked α} (hrelease : Release v gs p time c) (hclick : c.graphs ≠ gs ∨ c.told ≠ []) :
    ∃ x, latest = some x ∧ ∀ q ∈ x.path, ¬x.Strays threshold q := by
  cases hrelease with
  | click hpress hstill =>
    rw [h.press, Option.isSome_map] at hpress
    obtain ⟨x, rfl⟩ := Option.isSome_iff_exists.mp hpress
    refine ⟨x, rfl, fun q hq hstrays => ?_⟩
    rw [(h.dragged x rfl).mpr ⟨q, hq, hstrays⟩] at hstill
    cases hstill
  | _ => exact absurd hclick (by simp [Clicked.told])

end

namespace Ledger

variable {α : Type} [RootScalar α] {s : Ledger α} {threshold suppression : α}
  {latest : Option (Press α)}

theorem Kept.camera (h : s.Kept) : s.view.camera.Sound := by
  obtain ⟨attempt, hcoherent⟩ := h.coherent
  exact hcoherent.camera

theorem Kept.samePointer_preprocess (h : s.Kept) (engine : LayoutEngine α)
    (measure : Measure Id α) :
    s.view.SamePointer (Effect.outcome (preprocess engine measure s.graphs) s.view).2 := by
  obtain ⟨attempt, hcoherent⟩ := h.coherent
  exact (hcoherent.prepared engine measure).samePointer

/-- Only gestures of the pointer change what a view knows of it. -/
theorem Kept.samePointer_step (h : s.Kept) {deed : Deed α} (hpoints : ¬deed.Points) :
    s.view.SamePointer (s.step deed).view := by
  cases deed with
  | happens happening =>
    cases happening with
    | create provider => exact .refl _
    | alter ref change => exact .refl _
    | setGraph graph =>
      change s.view.SamePointer ((s.stage none).step (.setGraph graph)).view
      unfold Stage.step
      dsimp only
      split
      · exact samePointer_setGraph s.view s.graphs graph
      · exact .refl _
    | gesture gesture =>
      rcases hgesture : gesture.apply s.view s.graphs with fault | ⟨w, hs⟩
      · rw [step_gesture_error hgesture]
        exact .refl _
      · rw [step_gesture hgesture]
        exact Gesture.samePointer hgesture hpoints
    | update engine measure =>
      change s.view.SamePointer
        (s.framed (updateCounted s.period engine measure s.graphs)).view
      unfold framed
      rw [counted_update]
      exact (h.samePointer_preprocess engine measure).trans
        (samePointer_update engine measure s.graphs s.view)
  | preprocess engine measure =>
    change s.view.SamePointer
      (s.framed (preprocessCounted s.period engine measure s.graphs)).view
    unfold framed
    rw [counted_preprocess]
    exact h.samePointer_preprocess engine measure
  | render measure =>
    change s.view.SamePointer (s.view.render (m := Id) measure s.graphs).2
    rw [render_eq]
    exact ⟨rfl, rfl, rfl, rfl, rfl⟩
  | select ref choice => exact .refl _

theorem Kept.step_pointerDown (h : s.Kept) (p : Point α) :
    ∃ camera, (s.step (.happens (.gesture (.pointerDown p)))).view =
      { s.view with camera, press := some p, dragged := false } := by
  obtain ⟨camera, hdown⟩ := pointerDown_eq h.camera p
  refine ⟨camera, ?_⟩
  rw [step_gesture (by rw [Gesture.apply, hdown]; rfl)]
  rfl

theorem Kept.step_pointerMove (h : s.Kept) {start : Point α} (hpress : s.view.press = some start)
    (p : Point α) :
    ∃ camera, (s.step (.happens (.gesture (.pointerMove p)))).view = { s.view with
      camera
      dragged := s.view.dragged ||
        decide (s.view.dragThreshold ≤
            RootScalar.hypotenuse (p.x - start.x) (p.y - start.y)) } := by
  obtain ⟨camera, hmove⟩ := pointerMove_eq h.camera hpress p
  refine ⟨camera, ?_⟩
  rw [step_gesture (by rw [Gesture.apply, hmove]; rfl)]
  rfl

theorem step_pointerMove_of_none (hpress : s.view.press = none) (p : Point α) :
    (s.step (.happens (.gesture (.pointerMove p)))).view = s.view := by
  have hmove : s.view.pointerMove p = .ok s.view := by rw [pointerMove, hpress]
  rw [step_gesture (by rw [Gesture.apply, hmove]; rfl)]
  rfl

theorem step_pointerUp (s : Ledger α) (p : Point α) (time : α) :
    s.step (.happens (.gesture (.pointerUp p time))) =
      s.moved (s.view.pointerUp s.graphs p time).view (s.view.pointerUp s.graphs p time).graphs :=
  step_gesture rfl

/-- What a deed does to a view, as far as the pointer is concerned. -/
inductive Pointed (s : Ledger α) : Deed α → View α → Prop
  | aside {deed : Deed α} {w : View α} (points : ¬deed.Points) (same : s.view.SamePointer w) :
    Pointed s deed w
  | down (p : Point α) (camera : Camera α) :
    Pointed s (.happens (.gesture (.pointerDown p)))
      { s.view with camera, press := some p, dragged := false }
  /-- A pointer that is up is moved over the view. -/
  | hover (p : Point α) (press : s.view.press = none) :
    Pointed s (.happens (.gesture (.pointerMove p))) s.view
  | move (p start : Point α) (camera : Camera α) (press : s.view.press = some start) :
    Pointed s (.happens (.gesture (.pointerMove p))) { s.view with
      camera
      dragged := s.view.dragged ||
        decide (s.view.dragThreshold ≤ RootScalar.hypotenuse (p.x - start.x) (p.y - start.y)) }
  | up (p : Point α) (time : α) :
    Pointed s (.happens (.gesture (.pointerUp p time))) (s.view.pointerUp s.graphs p time).view

theorem Kept.pointed (h : s.Kept) (deed : Deed α) : s.Pointed deed (s.step deed).view := by
  by_cases hpoints : deed.Points
  case neg => exact .aside hpoints (h.samePointer_step hpoints)
  rcases deed with (_ | _ | _ | gesture | _) | _ | _ | _
  case happens.gesture =>
    cases gesture with
    | pointerDown p =>
      obtain ⟨camera, hview⟩ := h.step_pointerDown p
      exact hview ▸ .down p camera
    | pointerMove p =>
      rcases Option.eq_none_or_eq_some s.view.press with hpress | ⟨start, hpress⟩
      · exact (step_pointerMove_of_none hpress p).symm ▸ .hover p hpress
      · obtain ⟨camera, hview⟩ := h.step_pointerMove hpress p
        exact hview ▸ .move p start camera hpress
    | pointerUp p time =>
      rw [step_pointerUp]
      exact .up p time
    | _ => exact hpoints.elim
  all_goals exact hpoints.elim

/-- A view keeps track of presses. -/
theorem Kept.tracks_step (h : s.Kept) (htracks : s.view.Tracks threshold suppression latest)
    (deed : Deed α) :
    (s.step deed).view.Tracks threshold suppression (Press.after latest deed) := by
  have hpointed := h.pointed deed
  generalize (s.step deed).view = w at hpointed ⊢
  cases hpointed with
  | aside hpoints hsame =>
    rw [Press.after_of_not_points hpoints]
    exact htracks.of_samePointer hsame
  | down p camera =>
    refine ⟨rfl, fun x hx => ?_, htracks.threshold, htracks.suppression⟩
    obtain rfl := Option.some.inj hx
    simp [Press.Dragged]
  | hover p hpress =>
    rw [htracks.press, Option.map_eq_none_iff] at hpress
    subst hpress
    exact htracks
  | move p start camera hpress =>
    -- Once dragged, a press stays so: the new point adds to what was known of the earlier ones.
    rw [htracks.press, Option.map_eq_some_iff] at hpress
    obtain ⟨x, rfl, rfl⟩ := hpress
    refine ⟨htracks.press, fun y hy => ?_, htracks.threshold, htracks.suppression⟩
    obtain rfl := Option.some.inj hy
    rw [Press.dragged_move, ← htracks.dragged x rfl, ← htracks.threshold]
    simp [Press.Strays]
  | up p time =>
    obtain ⟨hpress, hthreshold, hsuppression⟩ := (s.view.release s.graphs p time).view
    refine ⟨hpress, fun x hx => ?_, hthreshold.trans htracks.threshold,
      hsuppression.trans htracks.suppression⟩
    cases hx

theorem Kept.tracks_run (h : s.Kept) (htracks : s.view.Tracks threshold suppression latest)
    (deeds : List (Deed α)) :
    (s.run deeds).view.Tracks threshold suppression (deeds.foldl Press.after latest) := by
  induction deeds generalizing s latest with
  | nil => exact htracks
  | cons deed deeds ih => exact ih (h.step deed) (h.tracks_step htracks deed)

theorem tracks_start (camera : Camera α) (style : ViewStyle α) (threshold suppression : α) :
    (start camera style threshold suppression).view.Tracks threshold suppression none :=
  ⟨rfl, fun _ hx => absurd hx (by simp), rfl, rfl⟩

/-- However a view and its graphs are used, a release of the pointer changes a graph, or is told,
only if it ends a press since which the pointer was never moved as far away as the threshold. -/
theorem run_clicks {width height : α} {settings : CameraSettings α} {camera : Camera α}
    (hmake : Camera.make width height settings = .ok camera) (style : ViewStyle α)
    (dragThreshold clickSuppression : α) (deeds : List (Deed α)) (p : Point α) (time : α) :
    let s := (start camera style dragThreshold clickSuppression).run deeds
    let up := Deed.happens (.gesture (.pointerUp p time))
    (s.step up).graphs ≠ s.graphs ∨ s.told up ≠ [] →
      ∃ x, Press.last? deeds = some x ∧ ∀ q ∈ x.path, ¬x.Strays dragThreshold q := by
  intro s up hclick
  have hkept := kept_start (Camera.sound_of_make hmake) style dragThreshold clickSuppression
  have htracks : s.view.Tracks dragThreshold clickSuppression (Press.last? deeds) :=
    hkept.tracks_run (tracks_start camera style dragThreshold clickSuppression) deeds
  exact htracks.still_of_click (s.view.release s.graphs p time) hclick

def pressed : List (Deed Float) :=
  [.happens (.create .nothing), .happens (.alter 0 .addVertex), .happens (.setGraph (some 0)),
    .select 0 (some (.inside 0)), .happens (.gesture (.pointerDown ⟨0.0, 0.0⟩))]

/-- The pointer is moved a little, and released. -/
theorem nudged_clicks :
    let deeds := pressed ++ [.happens (.gesture (.pointerMove ⟨3.0, 0.0⟩))]
    let s := (start Stage.opened .standard standardDragThreshold standardClickSuppression).run deeds
    let up := Deed.happens (.gesture (.pointerUp ⟨3.0, 0.0⟩ 100.0))
    s.told up ≠ [] ∧ ∃ x : Press Float, Press.last? deeds = some x ∧
      ∀ q ∈ x.path, ¬x.Strays standardDragThreshold q := by
  intro deeds s up
  have htold : s.told up ≠ [] := by decide +kernel
  exact ⟨htold, run_clicks Stage.make_opened .standard standardDragThreshold
    standardClickSuppression deeds ⟨3.0, 0.0⟩ 100.0 (.inr htold)⟩

/-- A press that is released far away, without a move, is a click: it clears the selection. -/
theorem released_far_away_clicks :
    let s := (start Stage.opened .standard standardDragThreshold
      standardClickSuppression).run pressed
    let up := Deed.happens (.gesture (.pointerUp ⟨500.0, 0.0⟩ 100.0))
    Press.last? pressed = some ⟨⟨0.0, 0.0⟩, []⟩ ∧
      Press.Strays standardDragThreshold (⟨⟨0.0, 0.0⟩, []⟩ : Press Float) ⟨500.0, 0.0⟩ ∧
      (s.graphs.graph 0).vertices.map Vertex.selected = [true] ∧
      ((s.step up).graphs.graph 0).vertices.map Vertex.selected = [false] ∧
      s.told up = [none] := by
  refine ⟨rfl, ?_, by decide, by decide, by decide⟩
  unfold Press.Strays
  decide +kernel

end Ledger

end DebugDesk.View
