import DebugDesk.Proofs.Desk.Sound

/-!
# Widgets of sound desks

Whatever is done with a graph widget, the zoom of its camera stays above zero.
-/
namespace DebugDesk.Desk

open Effect

variable [Platform] {d d' : Desk} {β : Type} {Q : Desk → Desk → Prop} [Lenient Q]

theorem widget_keeps (w : Nat) : (widget w).Respects (KeepsAlso Q) := by
  refine .bind .get fun d => ?_
  split
  · exact .pure _
  · exact .throw _

/-- A change of a widget that keeps the zoom of its camera above zero. -/
theorem keeps_widget (w : Nat) {f : GraphWidget → GraphWidget}
    (hf : ∀ x, d.widgets[w]? = some x → x.view.KeepsZoom (f x).view) :
    KeepsAlso Q d { d with widgets := d.widgets.modify w f } := by
  refine keeps_and (fun h => ?_) fun _ => Lenient.aside _ _ rfl rfl rfl rfl
  have hlength : (d.widgets.modify w f).length = d.widgets.length := List.length_modify ..
  have hstays : Stays Anyhow d { d with widgets := d.widgets.modify w f } :=
    ⟨.refl _, fun _ => rfl, Nat.le_of_eq hlength.symm, trivial⟩
  refine ⟨⟨h.arranged, h.managed, h.quiet, h.contents, fun c hc w hw => ?_, fun x hx => ?_,
    fun i hi => (h.callees i hi).stays hstays⟩, hstays⟩
  · exact Nat.lt_of_lt_of_eq (h.widgets c hc w hw) hlength.symm
  · obtain ⟨j, hj⟩ := List.mem_iff_getElem?.mp hx
    rw [List.getElem?_modify] at hj
    obtain ⟨y, hy, rfl⟩ := Option.map_eq_some_iff.mp hj
    have hsound := h.cameras y (List.mem_of_getElem? hy)
    split
    next hwj =>
      subst hwj
      exact hf y hy hsound
    · exact hsound

theorem changeWidget_keeps (w : Nat) {f : GraphWidget → GraphWidget}
    (hf : ∀ x : GraphWidget, x.view.KeepsZoom (f x).view) :
    (changeWidget w f).Respects (KeepsAlso Q) :=
  fun _ => keeps_widget w fun x _ => hf x

theorem changeView_keeps (w : Nat) {f : View Float → View Float}
    (hf : ∀ v, View.KeepsZoom v (f v)) : (changeView w f).Respects (KeepsAlso Q) :=
  changeWidget_keeps w fun x => hf x.view

theorem outcome_widget {w : Nat} {x : GraphWidget} (h : d.widgets[w]? = some x) :
    (widget w).outcome d = (.ok x, d) := by
  simp only [widget, Effect.outcome_bind, Effect.outcome_get, h, Effect.outcome_pure]

theorem outcome_widget_none {w : Nat} (h : d.widgets[w]? = none) :
    (widget w).outcome d = (.error .missing, d) := by
  simp only [widget, Effect.outcome_bind, Effect.outcome_get, h, Effect.outcome_throw]

/-- What is done with a widget that is looked at first. -/
theorem widget_bind_keeps (w : Nat) {f : GraphWidget → Effect Desk β}
    (hf : ∀ x d, d.widgets[w]? = some x → KeepsAlso Q d ((f x).outcome d).2) :
    (widget w >>= f).Respects (KeepsAlso Q) := by
  intro d
  cases h : d.widgets[w]? with
  | none =>
    rw [Effect.outcome_bind_error (outcome_widget_none h)]
    exact refl_of (KeepsAlso Q) d
  | some x =>
    rw [Effect.outcome_bind_ok (outcome_widget h)]
    exact hf x d h

theorem tryView_keeps (w : Nat) {f : View Float → Except Fault (View Float)}
    (hf : ∀ v v', f v = .ok v' → View.KeepsZoom v v') :
    (tryView w f).Respects (KeepsAlso Q) := by
  refine widget_bind_keeps w fun x d hx => ?_
  cases hv : f x.view with
  | error fault => exact refl_of (KeepsAlso Q) d
  | ok view =>
    refine keeps_widget w fun y hy => ?_
    rw [hx] at hy
    exact Option.some.inj hy ▸ hf x.view view hv

theorem graphs_keeps (graphs : GraphStore) :
    (modify fun d : Desk => { d with graphs } : Effect Desk Unit).Respects (KeepsAlso Q) :=
  fun _ => keeps_aside rfl rfl rfl rfl rfl

theorem setWidgetGraph_keeps (w : Nat) (graph : Option Nat) :
    (setWidgetGraph w graph).Respects (KeepsAlso Q) := by
  refine widget_bind_keeps w fun x d hx => ?_
  have hzoom : x.view.KeepsZoom (x.view.setGraph d.graphs graph).1 := by
    unfold View.setGraph
    split <;> exact id
  rw [Effect.outcome_bind_ok (Effect.outcome_get d)]
  generalize x.view.setGraph d.graphs graph = o at hzoom
  rcases o with ⟨view, graphs⟩
  have hview : KeepsAlso Q d { d with widgets := d.widgets.modify w fun y => { y with view } } := by
    refine keeps_widget w fun y hy => ?_
    rw [hx] at hy
    exact Option.some.inj hy ▸ hzoom
  exact trans_of (KeepsAlso Q) hview (graphs_keeps graphs _)

theorem recenterWidget_keeps (w : Nat) : (recenterWidget w).Respects (KeepsAlso Q) :=
  .bind .get fun _ => tryView_keeps w fun _ _ => View.keepsZoom_recenter

theorem fitWidget_keeps (w : Nat) : (fitWidget w).Respects (KeepsAlso Q) :=
  tryView_keeps w fun v v' h =>
    (View.touched_zoomToFit h : v.Touched [] v' []).camera.sound

theorem resizeWidget_keeps (w : Nat) (width height : Float) :
    (resizeWidget w width height).Respects (KeepsAlso Q) :=
  .bind (widget_keeps w) fun _ => .bind (configure_keeps _ _) fun _ =>
    changeView_keeps w fun v => (Camera.moves_setSize v.camera width height).sound

theorem suppressWidget_keeps (w : Nat) (flag : Bool) :
    (suppressWidget w flag).Respects (KeepsAlso Q) :=
  changeView_keeps w fun _ => id

theorem enableWidget_keeps (w : Nat) (flag : Bool) : (enableWidget w flag).Respects (KeepsAlso Q) :=
  changeWidget_keeps w fun _ => id

theorem destroyWidget_keeps (w : Nat) : (destroyWidget w).Respects (KeepsAlso Q) :=
  .bind (cancel_keeps _) fun _ => .bind (widget_keeps w) fun _ =>
    .bind (deleteItem_keeps _) fun _ => deleteItem_keeps _

theorem mouseInWidget_keeps (w : Nat) : (mouseInWidget w).Respects (KeepsAlso Q) :=
  .bind .get fun _ => .bind (widget_keeps w) fun _ => .ofExcept _

theorem widgetHasMouse_keeps (w : Nat) : (widgetHasMouse w).Respects (KeepsAlso Q) := by
  refine .bind (widget_keeps w) fun x => ?_
  split
  · exact .pure _
  · exact .bind .get fun _ => .ofExcept _

theorem pressWidget_keeps (w : Nat) : (pressWidget w).Respects (KeepsAlso Q) := by
  refine .bind (widgetHasMouse_keeps w) fun hasMouse => ?_
  split
  · exact .bind (mouseInWidget_keeps w) fun p => tryView_keeps w fun v v' h =>
      (View.touched_pointerDown h : v.Touched [] v' []).camera.sound
  · exact .pure ()

theorem moveOverWidget_keeps (w : Nat) : (moveOverWidget w).Respects (KeepsAlso Q) := by
  refine .bind (widget_keeps w) fun x => ?_
  split
  · exact .bind (mouseInWidget_keeps w) fun p => tryView_keeps w fun v v' h =>
      (View.touched_pointerMove h : v.Touched [] v' []).camera.sound
  · exact .pure ()

theorem releaseWidget_keeps (w : Nat) : (releaseWidget w).Respects (KeepsAlso Q) := by
  refine .bind (mouseInWidget_keeps w) fun p => .bind seconds_keeps fun now =>
    widget_bind_keeps w fun x d hx => ?_
  rw [Effect.outcome_bind_ok (Effect.outcome_get d)]
  have hzoom := (View.touched_pointerUp x.view d.graphs p now).camera.sound
  generalize x.view.pointerUp d.graphs p now = c at hzoom
  have hview : KeepsAlso Q d { d with widgets := d.widgets.modify w fun y =>
      { y with view := c.view } } := by
    refine keeps_widget w fun y hy => ?_
    rw [hx] at hy
    exact Option.some.inj hy ▸ hzoom
  have hrest : (do
      modify fun d => { d with graphs := c.graphs }
      if c.changed then
        let g := c.view.shown? c.graphs
        record (.selected (← widget w).panel
          (c.vertex.bind fun i => g.bind fun g => (g.vertices[i]?).map Vertex.id)) :
      Effect Desk Unit).Respects (KeepsAlso Q) := by
    refine .bind (graphs_keeps c.graphs) fun _ => ?_
    split
    · exact .bind (widget_keeps w) fun _ => record_keeps _
    · exact .pure ()
  exact trans_of (KeepsAlso Q) hview (hrest _)

theorem wheelOverWidget_keeps (w : Nat) (delta : Float) :
    (wheelOverWidget w delta).Respects (KeepsAlso Q) := by
  refine .bind (widgetHasMouse_keeps w) fun hasMouse => ?_
  split
  · exact changeView_keeps w fun v => (Camera.moves_wheel v.camera (-delta)).sound
  · exact .pure ()

theorem vertexOnScreen_keeps (w : Nat) (position : Int) :
    (vertexOnScreen w position).Respects (KeepsAlso Q) := by
  refine .bind (widget_keeps w) fun x => .bind .get fun d => ?_
  dsimp only
  split <;> refine .bind ?_ fun i => ?_
  · exact .throw _
  rotate_left
  · exact .ofExcept _
  all_goals
    split
    · exact .bind .get fun _ => .pure _
    · exact .throw _

/-- A frame leaves the zoom of the camera above zero, however it ends. -/
theorem widgetFrame_keeps (w : Nat) : (widgetFrame w).Respects (KeepsAlso Q) := by
  refine .bind .get fun d => .bind .get fun d' => widget_bind_keeps w fun x e hx => ?_
  have hzoom := View.keepsZoom_prepare (v := x.view) Platform.engine
    (DrawlistSurface.measure d.toolkit) d'.graphs x.surface
  generalize ((View.prepare Platform.engine (DrawlistSurface.measure d.toolkit) d'.graphs).run.run
    x.view).run x.surface = o at hzoom
  rcases o with ⟨⟨prepared, view⟩, surface⟩
  have hprepared : KeepsAlso Q e { e with widgets := e.widgets.modify w fun y =>
      { y with view, surface } } := by
    refine keeps_widget w fun y hy => ?_
    rw [hx] at hy
    exact Option.some.inj hy ▸ hzoom
  refine Effect.related_bind hprepared fun _ e' he' => ?_
  have hcamera : ∀ y, e'.widgets[w]? = some y → y.view.camera = view.camera := by
    obtain ⟨-, rfl⟩ := Prod.mk.inj he'
    intro y hy
    rw [List.getElem?_modify] at hy
    obtain ⟨z, -, rfl⟩ := Option.map_eq_some_iff.mp hy
    simp
  rcases prepared with fault | _ | _
  · exact refl_of (KeepsAlso Q) e'
  · exact refl_of (KeepsAlso Q) e'
  · have hrender := View.camera_render (DrawlistSurface.measure d.toolkit) view d'.graphs surface
    rw [Effect.outcome_bind_ok (Effect.outcome_ofExcept _ _)]
    dsimp only
    generalize (view.render (DrawlistSurface.measure d.toolkit) d'.graphs).run surface = o
      at hrender
    rcases o with ⟨⟨ops, rendered⟩, painted⟩
    have hrest : (do
        let surface ← toolkitPart.within (painted.paint ops)
        changeWidget w fun y => { y with surface, view := { y.view with needsRender := false } }
        return .keep : Effect Desk FrameAction).Respects (KeepsAlso Q) :=
      .bind (toolkit_keeps _) fun _ => .bind (changeWidget_keeps w fun _ => id) fun _ => .pure _
    refine Effect.related_bind (keeps_widget w fun y hy => ?_) fun _ e'' _ => hrest e''
    change y.view.camera.Sound → rendered.camera.Sound
    rw [hcamera y hy, hrender]
    exact id

/-- A widget is made. -/
theorem push_widget_keeps {x : GraphWidget} (hx : x.view.camera.Sound) :
    (modify fun d : Desk => { d with widgets := d.widgets ++ [x] } :
      Effect Desk Unit).Respects (KeepsAlso Q) := by
  refine fun d => keeps_and (fun h => ?_) fun _ => Lenient.aside _ _ rfl rfl rfl rfl
  have hlength : d.widgets.length ≤ (d.widgets ++ [x]).length := by simp
  have hstays : Stays Anyhow d { d with widgets := d.widgets ++ [x] } :=
    ⟨.refl _, fun _ => rfl, hlength, trivial⟩
  refine ⟨⟨h.arranged, h.managed, h.quiet, h.contents,
    fun c hc w hw => Nat.lt_of_lt_of_le (h.widgets c hc w hw) hlength, fun y hy => ?_,
    fun i hi => (h.callees i hi).stays hstays⟩, hstays⟩
  rcases List.mem_append.mp hy with hy | hy
  · exact h.cameras y hy
  · exact List.mem_singleton.mp hy ▸ hx

theorem handlers_keeps (w : Nat) : (makeAround "handler_registry" [] [] do
    let _ ← makeActive "add_mouse_click_handler" leftButton (.widgetPress w)
    let _ ← makeActive "add_mouse_move_handler" [] (.widgetMove w)
    let _ ← makeActive "add_mouse_release_handler" leftButton (.widgetRelease w)
    makeActive "add_mouse_wheel_handler" [] (.widgetWheel w)).Respects (KeepsAlso Q) :=
  makeAround_keeps _ _ _ <| .bind (makeActive_keeps _ _ _) fun _ =>
    .bind (makeActive_keeps _ _ _) fun _ => .bind (makeActive_keeps _ _ _) fun _ =>
    makeActive_keeps _ _ _

theorem makeWidget_keeps (parent : String) (tag : Option String) (width height : Float)
    (settings : WidgetSettings) (panel : Option Nat) :
    (makeWidget parent tag width height settings panel).Respects (KeepsAlso Q) :=
  .bind (make_keeps _ _ _ _) fun _ => .bind (make_keeps _ _ _ _) fun _ =>
    .ofExcept_bind fun _ hcamera => .bind .get fun _ => .bind (handlers_keeps _) fun _ =>
    .bind (push_widget_keeps (Camera.sound_of_make hcamera)) fun _ =>
    .bind (add_keeps _) fun _ => .pure _

/-- The number of a widget that was made is that of a widget. -/
theorem lt_of_makeWidget {parent : String} {tag : Option String} {width height : Float}
    {settings : WidgetSettings} {panel : Option Nat} {w : Nat} (hd : Sound d)
    (h : (makeWidget parent tag width height settings panel).outcome d = (.ok w, d')) :
    w < d'.widgets.length := by
  obtain ⟨group, d₁, h₁, h⟩ := Effect.of_bind_ok h
  obtain ⟨drawlist, d₂, h₂, h⟩ := Effect.of_bind_ok h
  obtain ⟨camera, d₃, h₃, h⟩ := Effect.of_bind_ok h
  obtain ⟨e, d₄, h₄, h⟩ := Effect.of_bind_ok h
  obtain ⟨made, d₅, h₅, h⟩ := Effect.of_bind_ok h
  obtain ⟨_, d₆, h₆, h⟩ := Effect.of_bind_ok h
  obtain ⟨_, d₇, h₇, h⟩ := Effect.of_bind_ok h
  obtain ⟨hw, rfl⟩ := Prod.mk.inj h
  obtain ⟨hcamera, rfl⟩ := Prod.mk.inj h₃
  obtain ⟨he, rfl⟩ := Prod.mk.inj h₄
  obtain rfl := Except.ok.inj he
  obtain rfl := Except.ok.inj hw
  have hbefore : Keeps d d₂ := trans_of Keeps ((make_keeps _ _ _ _).of_outcome h₁)
    ((make_keeps _ _ _ _).of_outcome h₂)
  have hmake := (handlers_keeps (Q := Anyhow) d₂.widgets.length).of_outcome h₅ (hbefore hd).1
  have hpush : Keeps d₅ d₆ :=
    (push_widget_keeps (by exact Camera.sound_of_make hcamera)).of_outcome h₆
  have hadd := (add_keeps (Q := Anyhow) _).of_outcome h₇ (hpush hmake.1).1
  obtain ⟨-, rfl⟩ := Prod.mk.inj h₆
  have hcount := hadd.2.widgets
  rw [List.length_append] at hcount
  exact Nat.lt_of_lt_of_le (Nat.lt_succ_of_le hmake.2.widgets) hcount

end DebugDesk.Desk
