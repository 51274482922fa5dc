import DebugDesk.Proofs.View.Runs
import DebugDesk.Proofs.Effect.Respecting

/-!
# Frames on a surface

A surface that measures texts has a state of its own, which frames go through as well. Whatever the
surface is, a frame keeps the zoom of the camera above zero.
-/
namespace DebugDesk.View

variable {α σ β γ : Type} {P : View α → View α → Prop} {v w : View α}

namespace Frame

theorem run_bind (x : Frame (StateM σ) α β) (f : β → Frame (StateM σ) α γ) (v : View α) (s : σ) :
    ((x >>= f).run.run v).run s =
      match (x.run.run v).run s with
      | ((.ok b, w), t) => ((f b).run.run w).run t
      | ((.error fault, w), t) => ((.error fault, w), t) := by
  change _ = match x v s with
    | ((.ok b, w), t) => ((f b).run.run w).run t
    | ((.error fault, w), t) => ((.error fault, w), t)
  simp only [bind, ExceptT.bind, ExceptT.run, ExceptT.mk, StateT.bind, StateT.run]
  rcases x v s with ⟨⟨r, w⟩, t⟩
  cases r <;> rfl

/-- The view that a frame leaves is related to the one it starts from. -/
def RespectsAt (P : View α → View α → Prop) (v : View α) (x : Frame (StateM σ) α β) : Prop :=
  ∀ s, P v ((x.run.run v).run s).1.2

namespace RespectsAt

theorem bind [IsPreorder (View α) P] {x : Frame (StateM σ) α β}
    {f : β → Frame (StateM σ) α γ} (hx : RespectsAt P v x) (hf : ∀ b w, RespectsAt P w (f b)) :
    RespectsAt P v (x >>= f) := by
  intro s
  rw [run_bind]
  have hv := hx s
  generalize (x.run.run v).run s = o at hv
  rcases o with ⟨⟨fault | b, w⟩, t⟩
  · exact hv
  · exact trans_of P hv (hf b w t)

theorem get_bind {f : View α → Frame (StateM σ) α β} (h : RespectsAt P v (f v)) :
    RespectsAt P v (get >>= f) := h

theorem lift_bind {x : StateM σ β} {f : β → Frame (StateM σ) α γ}
    (h : ∀ b, RespectsAt P v (f b)) : RespectsAt P v (Frame.lift x >>= f) := fun _ => h _ _

theorem set (h : P v w) : RespectsAt P v (set w : Frame (StateM σ) α Unit) := fun _ => h

theorem modify {f : View α → View α} (h : P v (f v)) :
    RespectsAt P v (modify f : Frame (StateM σ) α Unit) := fun _ => h

variable [IsPreorder (View α) P]

theorem pure (b : β) : RespectsAt P v (Pure.pure b : Frame (StateM σ) α β) :=
  fun _ => refl_of P v

theorem ofExcept_bind {r : Except Fault β} {f : β → Frame (StateM σ) α γ}
    (h : ∀ b, r = .ok b → RespectsAt P v (f b)) :
    RespectsAt P v (MonadExcept.ofExcept r >>= f) := by
  cases r with
  | error fault => exact fun _ => refl_of P v
  | ok b => exact h b rfl

end RespectsAt

end Frame

variable [Scalar α]

def KeepsZoom (v w : View α) : Prop := v.camera.Sound → w.camera.Sound

instance : IsPreorder (View α) KeepsZoom where
  refl _ := id
  trans _ _ _ h h' := h' ∘ h

theorem keepsZoom_recenter {gs : GraphStore} (h : v.recenter gs = .ok w) : KeepsZoom v w :=
  (touched_recenter h).camera.sound

theorem keepsZoom_draw (measure : Measure (StateM σ) α) (gs : GraphStore) (g : Graph)
    (l : Layout α) : Frame.RespectsAt KeepsZoom v (draw measure gs g l) := by
  refine .bind (.modify id) fun _ w => .ofExcept_bind fun placed _ => .get_bind <|
    .lift_bind fun boxes => .bind (.set id) fun _ w => .ofExcept_bind fun ends _ =>
    .bind (.modify id) fun _ w => ?_
  split
  · exact .bind (.modify id) fun _ w => .get_bind <| .ofExcept_bind fun centered h =>
      .set (keepsZoom_recenter h)
  · exact .pure _

theorem keepsZoom_preprocess (engine : LayoutEngine α) (measure : Measure (StateM σ) α)
    (gs : GraphStore) : Frame.RespectsAt KeepsZoom v (preprocess engine measure gs) := by
  refine .get_bind ?_
  split
  · exact .pure false
  · dsimp only
    split
    · exact .pure false
    · split
      · exact .bind (.set id) fun _ _ => .pure true
      · refine .lift_bind fun laid => ?_
        rcases laid with ⟨⟨fault | l, cache⟩, boxes⟩
        · exact .bind (.set id) fun _ _ => .pure true
        · exact .bind (.set id) fun _ _ => .bind (keepsZoom_draw _ _ _ _) fun _ _ => .pure true

theorem keepsZoom_prepare (engine : LayoutEngine α) (measure : Measure (StateM σ) α)
    (gs : GraphStore) : Frame.RespectsAt KeepsZoom v (prepare engine measure gs) := by
  refine .bind (keepsZoom_preprocess engine measure gs) fun _ w => .get_bind ?_
  split
  · exact .pure false
  · exact .bind (.set fun h => ⟨h.minZoom, h.maxZoom, h.zoom⟩) fun _ _ => .pure _

theorem camera_render (measure : Measure (StateM σ) α) (v : View α) (gs : GraphStore) (s : σ) :
    ((v.render measure gs).run s).1.2.camera = v.camera := by
  simp only [render]
  split <;> rfl

end DebugDesk.View
