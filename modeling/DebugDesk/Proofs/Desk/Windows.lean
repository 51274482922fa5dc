import DebugDesk.Desk.Host
import DebugDesk.Proofs.Desk.Calls
import DebugDesk.Proofs.Panel.Releasing

/-!
# Panels, windows and frames of sound desks

Whatever the panels are told is passed on to their contents and bindings, which changes no panel.
Animations and callbacks do what panels, widgets and windows do.
-/
namespace DebugDesk.Desk

open Effect

variable [Platform] {d : Desk} {β : Type} {panel : Nat} {Q : Desk → Desk → Prop}

section

variable {P : Desk → Desk → Prop}

theorem onWorkspace_respects {f : Workspace Float Binding → β × Workspace Float Binding}
    (hf : ∀ d : Desk, P d (passSignals.outcome { d with workspace := (f d.workspace).2 }).2) :
    (onWorkspace f).Respects P := by
  intro d
  have hchange : (workspacePart.within (Effect.change f)).outcome d =
      (.ok (f d.workspace).1, { d with workspace := (f d.workspace).2 }) := rfl
  rw [onWorkspace, Effect.outcome_bind_ok hchange, Effect.outcome_bind_pure]
  exact hf d

/-- A change of the workspace that fails changes nothing. -/
theorem outcome_step_workspace
    (f : Workspace Float Binding → Except Fault (β × Workspace Float Binding)) (d : Desk) :
    (workspacePart.within (Effect.step f)).outcome d =
      match f d.workspace with
      | .ok (b, w) => (.ok b, { d with workspace := w })
      | .error fault => (.error fault, d) := by
  have hwithin : (workspacePart.within (Effect.step f)).outcome d =
      (((Effect.step f).outcome d.workspace).1,
        { d with workspace := ((Effect.step f).outcome d.workspace).2 }) := rfl
  rw [hwithin, Effect.outcome_step]
  rcases f d.workspace with fault | ⟨b, w⟩ <;> rfl

variable [IsPreorder Desk P]

theorem tryWorkspace_respects
    {f : Workspace Float Binding → Except Fault (β × Workspace Float Binding)}
    (hf : ∀ (d : Desk) b w, f d.workspace = .ok (b, w) →
      P d (passSignals.outcome { d with workspace := w }).2) :
    (tryWorkspace f).Respects P := by
  intro d
  have hstep := outcome_step_workspace f d
  rw [tryWorkspace]
  rcases hw : f d.workspace with fault | ⟨b, w⟩ <;> rw [hw] at hstep
  · rw [Effect.outcome_bind_error hstep]
    exact refl_of P d
  · rw [Effect.outcome_bind_ok hstep, Effect.outcome_bind_pure]
    exact hf d b w hw

/-- A change of the workspace without an answer. -/
theorem attempt_workspace_respects
    {f : Workspace Float Binding → Except Fault (Workspace Float Binding)}
    (hf : ∀ (d : Desk) w, f d.workspace = .ok w →
      P d (passSignals.outcome { d with workspace := w }).2) :
    (tryWorkspace fun w => return ((), ← f w)).Respects P := by
  refine tryWorkspace_respects fun d b w h => ?_
  obtain ⟨v, hv, h⟩ := Effect.bind_eq_ok h
  cases h
  exact hf d _ hv

end

omit [Platform] in
theorem wanes_takeSignals (w : Workspace Float Binding) : w.Wanes w.takeSignals.2 :=
  .of_panels rfl rfl

section

variable [Lenient Q] (hcall : ∀ (c : Call) d, Sound d → Q d (c.effect.outcome d).2)

include hcall

theorem release_keeps (b : Binding) : (release b).Respects (KeepsAlso Q) := by
  cases b with
  | window window windowTheme bodyTheme =>
    exact .bind (deleteItem_keeps _) fun _ => .bind (deleteItem_keeps _) fun _ =>
      deleteItem_keeps _
  | requests panel =>
    exact fun d => keeps_and (Call.keeps (.discard panel) d) (hcall (.discard panel) d)

theorem passOn_keeps (signal : Nat × PanelSignal Float Binding) :
    (passOn signal).Respects (KeepsAlso Q) := by
  rcases signal with ⟨panel, signal⟩
  cases signal with
  | resized width height => exact resizeContent_keeps panel width height
  | suppressed flag => exact suppressContent_keeps panel flag
  | destroyed => exact destroyContent_keeps panel
  | released binding => exact release_keeps hcall binding

theorem passAll_keeps {w : Workspace Float Binding} (hw : d.workspace.Wanes w)
    (hQ : Sound d → Q d { d with workspace := w.takeSignals.2 }) :
    KeepsAlso Q d (passSignals.outcome { d with workspace := w }).2 := by
  have htaken : KeepsAlso Q d { d with workspace := w.takeSignals.2 } :=
    keeps_workspace (hw.trans (wanes_takeSignals w)) rfl hQ
  have hpassed : (w.signals.forM passOn).Respects (KeepsAlso Q) :=
    .forM _ fun s _ => passOn_keeps hcall s
  exact trans_of (KeepsAlso Q) htaken (hpassed _)

end

/-- A relation that also stands what is bound to panels. -/
class Lasting (Q : Desk → Desk → Prop) : Prop extends Lenient Q where
  bind : ∀ (d : Desk) (panel : Nat) (binding : Binding),
    Q d { d with workspace := d.workspace.bind panel binding }

/-- A relation that also stands changes of the workspace whose signals are passed on, and calls of
the transport. -/
class Enduring (Q : Desk → Desk → Prop) : Prop extends Lenient Q where
  bind : ∀ (d : Desk) (panel : Nat) (binding : Binding),
    Q d { d with workspace := d.workspace.bind panel binding }
  pass : ∀ (d : Desk) (w : Workspace Float Binding), Sound d → d.workspace.Wanes w →
    d.workspace.Yields w → Q d (passSignals.outcome { d with workspace := w }).2
  call : ∀ (c : Call) (d : Desk), Sound d → Q d (c.effect.outcome d).2

instance : Enduring Anyhow where
  bind _ _ _ := trivial
  pass _ _ _ _ _ := trivial
  call _ _ _ := trivial

instance [Enduring Q] : Lasting Q where
  bind := Enduring.bind

section

variable [Enduring Q]

theorem call_keeps_also (c : Call) : c.effect.Respects (KeepsAlso Q) :=
  fun d => keeps_and (c.keeps d) (Enduring.call c d)

theorem passSignals_keeps {w : Workspace Float Binding} (hw : d.workspace.Wanes w)
    (hy : d.workspace.Yields w) :
    KeepsAlso Q d (passSignals.outcome { d with workspace := w }).2 :=
  keeps_and (passAll_keeps (fun _ _ _ => trivial) hw fun _ => trivial) fun h =>
    Enduring.pass d w h hw hy

theorem onWorkspace_keeps {f : Workspace Float Binding → β × Workspace Float Binding}
    (hf : ∀ w, Workspace.Wanes w (f w).2) (hy : ∀ w, Workspace.Yields w (f w).2) :
    (onWorkspace f).Respects (KeepsAlso Q) :=
  onWorkspace_respects fun d => passSignals_keeps (hf d.workspace) (hy d.workspace)

theorem tryWorkspace_keeps
    {f : Workspace Float Binding → Except Fault (β × Workspace Float Binding)}
    (hf : ∀ w b w', f w = .ok (b, w') → Workspace.Wanes w w')
    (hy : ∀ w b w', f w = .ok (b, w') → Workspace.Yields w w') :
    (tryWorkspace f).Respects (KeepsAlso Q) :=
  tryWorkspace_respects fun d b w hw =>
    passSignals_keeps (hf d.workspace b w hw) (hy d.workspace b w hw)

theorem attempt_workspace_keeps
    {f : Workspace Float Binding → Except Fault (Workspace Float Binding)}
    (hf : ∀ w w', f w = .ok w' → Workspace.Wanes w w')
    (hy : ∀ w w', f w = .ok w' → Workspace.Yields w w') :
    (tryWorkspace fun w => return ((), ← f w)).Respects (KeepsAlso Q) :=
  attempt_workspace_respects fun d w hw =>
    passSignals_keeps (hf d.workspace w hw) (hy d.workspace w hw)

theorem focusPanel_keeps (panel : Nat) : (focusPanel panel).Respects (KeepsAlso Q) :=
  attempt_workspace_keeps (fun _ _ => .focus) fun _ _ => .focus

theorem togglePanel_keeps (panel : Nat) : (togglePanel panel).Respects (KeepsAlso Q) :=
  onWorkspace_keeps (fun w => .toggleExpanded w panel) fun w => .toggleExpanded w panel

theorem removePanel_keeps (panel : Nat) : (removePanel panel).Respects (KeepsAlso Q) :=
  attempt_workspace_keeps (fun _ _ => .remove) fun _ _ => .remove

theorem finishClosing_keeps (panel : Nat) : (finishClosing panel).Respects (KeepsAlso Q) :=
  attempt_workspace_keeps (fun _ _ => .finishClosing) fun _ _ => .finishClosing

theorem closingFrame_keeps (panel : Nat) (time : Int) :
    (closingFrame panel time).Respects (KeepsAlso Q) :=
  tryWorkspace_keeps (fun _ _ _ => .closingFrame) fun _ _ _ => .closingFrame

theorem closePanel_keeps (panel : Nat) : (closePanel panel).Respects (KeepsAlso Q) := by
  refine .bind (onWorkspace_keeps (fun w => .beginClose w panel) fun w => .beginClose w panel)
    fun begins => ?_
  split
  · exact .bind (update_workspace_keeps (fun _ => rfl) (fun _ => rfl) fun _ => rfl) fun _ =>
      add_keeps _
  · exact .pure ()

end

section

variable [Lasting Q]

theorem bind_keeps (panel : Nat) (binding : Binding) :
    (workspacePart.update (·.bind panel binding)).Respects (KeepsAlso Q) := by
  intro d h
  have hwanes : d.workspace.Wanes (d.workspace.bind panel binding) :=
    .modifyPanel d.workspace panel fun _ _ => ⟨⟨rfl, id⟩, rfl⟩
  exact keeps_workspace hwanes h.quiet (fun _ => Lasting.bind d panel binding) h

theorem panelHost_keeps : panelHost.Respects (KeepsAlso Q) := by
  refine .bind .get fun d => ?_
  split
  · exact .pure _
  · exact .throw _

theorem changeHost_keeps (f : PanelHost → PanelHost) : (changeHost f).Respects (KeepsAlso Q) :=
  fun _ => keeps_aside rfl rfl rfl rfl rfl

theorem makeHost_keeps (origin : Point Float) (buttonWidth handleSize : Float) :
    (makeHost origin buttonWidth handleSize).Respects (KeepsAlso Q) := by
  refine .bind (makeAround_keeps _ _ _ ?_) fun _ =>
    .bind (fun _ => keeps_aside rfl rfl rfl rfl rfl) fun _ => add_keeps _
  exact .bind (makeActive_keeps _ _ _) fun _ => .bind (makeActive_keeps _ _ _) fun _ =>
    makeActive_keeps _ _ _

theorem makeTheme_keeps (opacity : Float) : (makeTheme opacity).Respects (KeepsAlso Q) :=
  .bind (makeAround_keeps _ _ _ (makeAround_keeps _ _ _ (make_keeps _ _ _ _))) fun _ => .pure _

theorem makeHeader_keeps (panel : Nat) (p : Panel Float Binding) (buttonWidth : Float) :
    (makeHeader panel p buttonWidth).Respects (KeepsAlso Q) := by
  refine .bind (makeAround_keeps _ _ _ ?_) fun _ => .pure _
  exact .bind (makeActive_keeps _ _ _) fun _ => .bind (make_keeps _ _ _ _) fun _ =>
    .bind (makeActive_keeps _ _ _) fun _ => .pure _

theorem makeWindow_keeps (panel : Nat) (p : Panel Float Binding) :
    (makeWindow panel p).Respects (KeepsAlso Q) := by
  refine .bind panelHost_keeps fun host => .bind (.ofExcept _) fun width =>
    .bind (.ofExcept _) fun height => .bind (makeAround_keeps _ _ _ ?_) fun made => ?_
  · exact .bind (makeHeader_keeps panel p _) fun _ =>
      .bind (makeAround_keeps _ _ _ (.pure _)) fun _ => .pure _
  · exact .bind (makeTheme_keeps _) fun _ => .bind (makeTheme_keeps _) fun _ =>
      .bind (call_keeps _ _) fun _ => .bind (call_keeps _ _) fun _ =>
      .bind (buildContent_keeps panel p _) fun _ => .bind (bind_keeps panel _) fun _ => .pure _

theorem showWindow_keeps (place : Platform.Address) (p : Panel Float Binding)
    (window : PanelWindow) : (showWindow place p window).Respects (KeepsAlso Q) := by
  refine .bind (.ofExcept _) fun a => ?_
  split
  · exact .pure ()
  · exact .bind (changeHost_keeps _) fun _ => .bind panelHost_keeps fun _ =>
      .bind (configure_keeps _ _) fun _ => .bind (configure_keeps _ _) fun _ =>
      .bind (call_keeps _ _) fun _ => call_keeps _ _

theorem syncPanel_keeps (panel : Nat) : (syncPanel panel).Respects (KeepsAlso Q) := by
  refine .bind .get fun d => ?_
  split
  · exact .pure ()
  · refine .bind panelHost_keeps fun host => ?_
    split
    · exact showWindow_keeps _ _ _
    · exact .bind (makeWindow_keeps panel _) fun window => .bind (changeHost_keeps _) fun _ =>
        showWindow_keeps _ _ window

theorem restack_keeps : restack.Respects (KeepsAlso Q) := by
  refine .bind panelHost_keeps fun host => .bind .get fun d => ?_
  dsimp only
  split
  · exact .pure ()
  · exact .bind (changeHost_keeps _) fun _ => .forM _ fun _ _ => call_keeps _ _

theorem mouseOnWorkspace_keeps : mouseOnWorkspace.Respects (KeepsAlso Q) :=
  .bind .get fun _ => .bind panelHost_keeps fun _ => .pure _

theorem panelForInput_keeps : panelForInput.Respects (KeepsAlso Q) := by
  refine .bind .get fun d => ?_
  dsimp only
  split
  · exact .pure _
  · exact .bind mouseOnWorkspace_keeps fun _ => .pure _

theorem gateInput_keeps : gateInput.Respects (KeepsAlso Q) :=
  .bind panelForInput_keeps fun _ => .bind .get fun _ =>
    .forM _ fun panel _ => enableContent_keeps panel _

theorem hostFrame_keeps : hostFrame.Respects (KeepsAlso Q) :=
  .bind .get fun _ => .bind (changeHost_keeps _) fun _ =>
    .bind (.forM _ fun panel _ => syncPanel_keeps panel) fun _ =>
    .bind restack_keeps fun _ => .bind gateInput_keeps fun _ => .pure _

end

section

variable [Enduring Q]

theorem toggleByButton_keeps (panel : Nat) : (toggleByButton panel).Respects (KeepsAlso Q) := by
  refine .bind (togglePanel_keeps panel) fun _ => .bind panelHost_keeps fun host =>
    .bind .get fun d => ?_
  split
  · exact configure_keeps _ _
  · exact .pure ()

theorem pressPanels_keeps : pressPanels.Respects (KeepsAlso Q) := by
  refine .bind mouseOnWorkspace_keeps fun pointer => .bind panelHost_keeps fun host =>
    .bind .get fun d => ?_
  dsimp only
  split
  · exact .pure ()
  next panel _ =>
    split
    · exact .pure ()
    · split
      · exact .bind (onWorkspace_keeps (fun w => .beginResize w panel pointer)
          fun w => .beginResize w panel pointer) fun _ => .pure ()
      · split
        · exact onWorkspace_keeps (fun w => .beginMove w panel pointer)
            fun w => .beginMove w panel pointer
        · exact focusPanel_keeps panel

theorem dragPanels_keeps : dragPanels.Respects (KeepsAlso Q) := by
  refine .bind .get fun d => ?_
  split
  · exact .pure ()
  · exact .bind mouseOnWorkspace_keeps fun _ =>
      .bind (tryWorkspace_keeps (fun _ _ _ => .moveTo) fun _ _ _ => .moveTo) fun _ =>
      .bind (tryWorkspace_keeps (fun _ _ _ => .resizeTo) fun _ _ _ => .resizeTo) fun _ => .pure ()

theorem releasePanels_keeps : releasePanels.Respects (KeepsAlso Q) := by
  refine .bind .get fun d => ?_
  split
  · exact .pure ()
  · exact .bind (onWorkspace_keeps (fun w => .endMove w _)
      fun w => .signalling w _ Panel.ties_endMove) fun _ =>
      onWorkspace_keeps (fun w => .endResize w _) fun w => .signalling w _ Panel.ties_endResize

end

section

section

variable [Lasting Q] (hframe : ∀ panel time, (closingFrame panel time).Respects (KeepsAlso Q))
  (hlast : ∀ panel, (finishClosing panel).Respects (KeepsAlso Q))

include hframe in
theorem renderAnimation_respects (key : AnimationKey) (time : Int) :
    (renderAnimation key time).Respects (KeepsAlso Q) := by
  cases key with
  | host => exact hostFrame_keeps
  | widget w => exact widgetFrame_keeps w
  | closing panel => exact hframe panel time
  | clock panel =>
    refine contentOf_bind_keeps fun c => ?_
    cases c with
    | clock c => exact clockFrame_keeps panel c time
    | _ => exact .pure _
  | log panel =>
    refine contentOf_bind_keeps fun c => ?_
    cases c with
    | log c => exact logFrame_keeps panel c
    | _ => exact .pure _

include hlast in
theorem finishAnimation_respects (key : AnimationKey) :
    (finishAnimation key).Respects (KeepsAlso Q) := by
  cases key with
  | closing panel => exact hlast panel
  | _ => exact .pure ()

include hframe hlast in
theorem renderFrame_respects : renderFrame.Respects (KeepsAlso Q) :=
  .bind .get fun d => Animator.renderFrame_respects (A := animator)
    (renderAnimation_respects hframe) (finishAnimation_respects hlast) update_registry_keeps d.clock

end

variable [Enduring Q]

theorem renderFrame_keeps : renderFrame.Respects (KeepsAlso Q) :=
  renderFrame_respects closingFrame_keeps finishClosing_keeps

theorem clearAnimations_keeps : animator.clear.Respects (KeepsAlso Q) :=
  Animator.clear_respects (A := animator) (finishAnimation_respects finishClosing_keeps)
    update_registry_keeps

theorem handle_keeps (delta : Float) (h : Handler) : (handle delta h).Respects (KeepsAlso Q) := by
  cases h with
  | widgetPress w => exact pressWidget_keeps w
  | widgetMove w => exact moveOverWidget_keeps w
  | widgetRelease w => exact releaseWidget_keeps w
  | widgetWheel w => exact wheelOverWidget_keeps w delta
  | panelPress => exact pressPanels_keeps
  | panelMove => exact dragPanels_keeps
  | panelRelease => exact releasePanels_keeps
  | toggle panel => exact toggleByButton_keeps panel
  | close panel => exact closePanel_keeps panel
  | recenter panel => exact recenterGraph_keeps panel
  | zoomToFit panel => exact fitGraph_keeps panel
  | menu path => exact .pure ()

theorem callBack_keeps (kind : String) (delta : Float) :
    (callBack kind delta).Respects (KeepsAlso Q) :=
  .bind .get fun _ => .forM _ fun h _ => handle_keeps delta h

theorem pressButton_keeps (label : String) (window : Option String) :
    (pressButton label window).Respects (KeepsAlso Q) := by
  refine .bind .get fun d => ?_
  split
  · exact .pure false
  · exact .bind (.forM _ fun h _ => handle_keeps 0 h) fun _ => .pure true

theorem setClock_keeps (time : Int) :
    (modify fun d : Desk => { d with clock := time } : Effect Desk Unit).Respects (KeepsAlso Q) :=
  fun _ => keeps_aside rfl rfl rfl rfl rfl

/-- What a user does opens no panel, unless an item of the menu does. -/
theorem act_keeps {choose : List String → Effect Desk Unit} (action : UserAction)
    (hchoose : ∀ path, action = .menu path → (choose path).Respects (KeepsAlso Q)) :
    (act choose action).Respects (KeepsAlso Q) := by
  cases action with
  | mouse position => exact .bind (update_toolkit_keeps _) fun _ => .pure none
  | down => exact .bind (callBack_keeps _ _) fun _ => .pure none
  | move => exact .bind (callBack_keeps _ _) fun _ => .pure none
  | up => exact .bind (callBack_keeps _ _) fun _ => .pure none
  | wheel delta => exact .bind (callBack_keeps _ delta) fun _ => .pure none
  | press label window => exact .bind (pressButton_keeps label window) fun _ => .pure _
  | menu path =>
    refine .bind .get fun d => ?_
    split
    · exact .pure _
    · exact .bind (hchoose path rfl) fun _ => .pure _
  | clock time => exact .bind (setClock_keeps time) fun _ => .pure none
  | textMode mode => exact .bind (update_toolkit_keeps _) fun _ => .pure none
  | rectMin position => exact .bind (update_toolkit_keeps _) fun _ => .pure none

end

end DebugDesk.Desk
