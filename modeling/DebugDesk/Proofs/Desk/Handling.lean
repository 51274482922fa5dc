import DebugDesk.Proofs.App.Opening
import DebugDesk.Proofs.Desk.Hosting

/-!
# Panels that are handled

Panels are added, focused, dragged, closed and removed. Whatever is done with them, the frames that
were made are kept for those that are managed, and deleted for those that are not.
-/
namespace DebugDesk

namespace Workspace

variable {w w' : Workspace Float Desk.Binding} {m i : Nat}

/-- How a workspace goes on as long as no panel is added and nothing is bound, and what it tells. -/
structure Goes (w w' : Workspace Float Desk.Binding) : Prop where
  wanes : w.Wanes w'
  fares : w.Fares w'
  parts : w.Parts w'

theorem Goes.of (hw : w.Wanes w') (hf : w.Fares w') (hy : w.Yields w') : w.Goes w' :=
  ⟨hw, hf, .of_yields hy hf⟩

theorem Goes.focus (h : w.focus m i = .ok w') : w.Goes w' := .of (.focus h) (.focus h) (.focus h)

theorem Goes.remove (h : w.remove m i = .ok w') : w.Goes w' :=
  .of (.remove h) (.remove h) (.remove h)

theorem Goes.beginClose (w : Workspace Float Desk.Binding) (i : Nat) :
    w.Goes (w.beginClose i).2 := .of (.beginClose w i) (.beginClose w i) (.beginClose w i)

theorem Goes.closeAtOnce (w : Workspace Float Desk.Binding) (m i : Nat) :
    w.Goes (w.closeAtOnce m i).2 :=
  ⟨.closeAtOnce w m i, (Fares.beginClose w i).trans (.closeAtOnce w m i), .closeAtOnce w m i⟩

theorem Goes.finishClosing (h : w.finishClosing i = .ok w') : w.Goes w' :=
  .of (.finishClosing h) (.finishClosing h) (.finishClosing h)

theorem Goes.closingFrame {time : Int} {action : FrameAction}
    (h : w.closingFrame i time = .ok (action, w')) : w.Goes w' :=
  .of (.closingFrame h) (.closingFrame h) (.closingFrame h)

theorem Goes.toggleExpanded (w : Workspace Float Desk.Binding) (i : Nat) :
    w.Goes (w.toggleExpanded i).2 :=
  .of (.toggleExpanded w i) (.toggleExpanded w i) (.toggleExpanded w i)

theorem Goes.beginMove (w : Workspace Float Desk.Binding) (i : Nat) (pointer : Point Float) :
    w.Goes (w.beginMove i pointer) :=
  .of (.beginMove w i pointer) (.beginMove w i pointer) (.beginMove w i pointer)

theorem Goes.beginResize (w : Workspace Float Desk.Binding) (i : Nat) (pointer : Point Float) :
    w.Goes (w.beginResize i pointer).2 :=
  .of (.beginResize w i pointer) (.beginResize w i pointer) (.beginResize w i pointer)

theorem Goes.moveTo {pointer : Point Float} {b : Bool} (h : w.moveTo i pointer = .ok (b, w')) :
    w.Goes w' := .of (.moveTo h) (.moveTo h) (.moveTo h)

theorem Goes.resizeTo {pointer : Point Float} {b : Bool}
    (h : w.resizeTo i pointer = .ok (b, w')) : w.Goes w' :=
  .of (.resizeTo h) (.resizeTo h) (.resizeTo h)

theorem Goes.endMove (w : Workspace Float Desk.Binding) (i : Nat) : w.Goes (w.endMove i) :=
  .of (.endMove w i)
    (.signalling fun p _ => p.mild_endMove) (.signalling w i Panel.ties_endMove)

theorem Goes.endResize (w : Workspace Float Desk.Binding) (i : Nat) : w.Goes (w.endResize i) :=
  .of (.endResize w i)
    (.signalling fun p _ => p.mild_endResize) (.signalling w i Panel.ties_endResize)

theorem Goes.cancelGesture (w : Workspace Float Desk.Binding) (i : Nat) :
    w.Goes (w.cancelGesture i) :=
  .of (.signalling w i Panel.fades_cancelGesture Panel.steady_cancelGesture)
    (.signalling fun p _ => p.mild_cancelGesture) (.signalling w i Panel.ties_cancelGesture)

end Workspace

namespace Desk

open Effect Toolkit
open Display (Spares)

variable [Platform]

variable {d d' : Desk} {β : Type} {fs : List PanelFrame} {i panel : Nat}
  {p : Panel Float Binding} {c : Content}

/-- A panel that has not been managed, with a content that has not been built. -/
structure Fresh (p : Panel Float Binding) (c : Content) : Prop where
  free : p.manager = none
  unframed : p.bindings.filter Binding.isWindow = []
  items : c.items = []
  widget : c.widget? = none

theorem members_withPanel (h : Sound d) (p : Panel Float Binding) (c : Content) :
    (App.withPanel p c d).workspace.members manager =
      d.workspace.members manager ++ [d.workspace.panels.length] := by
  have hmanaged : manager < (d.workspace.push p).managers.length := h.managed
  rw [App.withPanel, Workspace.members_raise, Workspace.members_attach hmanaged, if_pos rfl]
  rfl

theorem mem_members_withPanel (h : Sound d) {p : Panel Float Binding} {c : Content}
    (hi : i ≠ d.workspace.panels.length) :
    i ∈ (App.withPanel p c d).workspace.members manager ↔ i ∈ d.workspace.members manager := by
  rw [members_withPanel h]
  simp [hi]

theorem contents_withPanel_of_ne (h : Sound d) (hi : i ≠ d.workspace.panels.length) :
    (App.withPanel p c d).contents[i]? = d.contents[i]? := by
  rw [← h.contents] at hi
  rcases Nat.lt_or_gt_of_ne hi with hlt | hlt
  · exact App.contents_withPanel_of_lt hlt
  · rw [List.getElem?_eq_none hlt.le]
    refine List.getElem?_eq_none ?_
    simp only [App.withPanel, List.length_append, List.length_singleton]
    exact hlt

/-- A panel is managed in a place that was vacant. -/
theorem Tracks.addMember {members : List Nat} {host : PanelHost} (h : Tracks fs members host)
    (hfree : Platform.address i ∉ members.map Platform.address)
    (hforgotten : Platform.address i ∉ host.windows.map Prod.fst) (hnew : ∀ f ∈ fs, f.panel ≠ i) :
    Tracks fs (members ++ [i]) host := by
  refine ⟨fun x hx => ?_, h.once, fun f hf hm => ?_, ?_⟩
  · obtain ⟨f, hkept⟩ := h.known x hx
    refine ⟨f, hkept.frame, hkept.place, hkept.window, hkept.body, fun j hj hplace => ?_⟩
    rcases List.mem_append.mp hj with hj | hj
    · exact hkept.alone j hj hplace
    · obtain rfl := List.mem_singleton.mp hj
      exact absurd (hplace ▸ List.mem_map_of_mem hx) hforgotten
  · rcases List.mem_append.mp hm with hm | hm
    · exact h.covers f hf hm
    · exact absurd (List.mem_singleton.mp hm) (hnew f hf)
  · rw [List.map_append, List.map_singleton, List.nodup_append]
    refine ⟨h.apart, List.nodup_singleton _, fun a ha b hb he => ?_⟩
    exact hfree (List.mem_singleton.mp hb ▸ he ▸ ha)

variable [LawfulGui Platform.Toolkit Handler]

structure Hosting (fs : List PanelFrame) (d : Desk) : Prop where
  sound : Sound d
  tidy : d.transport.Tidy
  hosted : Hosted fs d

/-- A desk goes on to keep the frames, and makes none. -/
def Hosts (fs : List PanelFrame) (d d' : Desk) : Prop := Hosting fs d → Hosting fs d'

instance : IsPreorder Desk (Hosts fs) where
  refl _ := id
  trans _ _ _ h h' := h' ∘ h

/-- What the frames have nothing to do with. -/
theorem Hosted.congr (h : Hosted fs d) (ht : d'.toolkit = d.toolkit)
    (hc : d'.contents = d.contents) (hx : d'.widgets = d.widgets) (he : d'.events = d.events)
    (hh : d'.host = d.host) (hp : d'.workspace.panels = d.workspace.panels)
    (hm : d'.workspace.managers = d.workspace.managers) : Hosted fs d' := by
  have hinput (i : Nat) : d'.input? i = d.input? i := by rw [input?, input?, hc, he, hx]
  have hspares : (display d.toolkit).Spares (display d'.toolkit) := by
    rw [ht]
    exact refl_of Spares _
  exact h.of_spares (h.stocked.congr ht hc hx) hspares (by rw [ht]) hh hp hm hc fun i _ =>
    hinput i

theorem Hosting.congr (h : Hosting fs d) (hk : Keeps d d') (hr : d'.transport = d.transport)
    (ht : d'.toolkit = d.toolkit) (hc : d'.contents = d.contents) (hx : d'.widgets = d.widgets)
    (he : d'.events = d.events) (hh : d'.host = d.host)
    (hp : d'.workspace.panels = d.workspace.panels)
    (hm : d'.workspace.managers = d.workspace.managers) : Hosting fs d' :=
  ⟨(hk h.sound).1, hr ▸ h.tidy, h.hosted.congr ht hc hx he hh hp hm⟩

theorem passSignals_hosts {w : Workspace Float Binding} (hg : d.workspace.Goes w) :
    Hosts fs d (passSignals.outcome { d with workspace := w }).2 := by
  rintro ⟨hsound, htidy, hhosted⟩
  have hpassed : Sound (passSignals.outcome { d with workspace := w }).2 :=
    (passAll_keeps (Q := Anyhow) (fun _ _ _ => trivial) hg.wanes (fun _ => trivial) hsound).1
  have hcalms := (passSignals_settles hsound hg.wanes).calms
  have hpasses := passSignals_passes hhosted.stocked hsound htidy hg.wanes (hg.parts hsound.quiet)
  exact ⟨hpassed, (hcalms htidy).1, hhosted.passes hsound hg.wanes hg.fares hpasses⟩

theorem onWorkspace_hosts {f : Workspace Float Binding → β × Workspace Float Binding}
    (hf : ∀ w, Workspace.Goes w (f w).2) : (onWorkspace f).Respects (Hosts fs) :=
  onWorkspace_respects fun d => passSignals_hosts (hf d.workspace)

theorem tryWorkspace_hosts
    {f : Workspace Float Binding → Except Fault (β × Workspace Float Binding)}
    (hf : ∀ w b w', f w = .ok (b, w') → Workspace.Goes w w') :
    (tryWorkspace f).Respects (Hosts fs) :=
  tryWorkspace_respects fun d b w hw => passSignals_hosts (hf d.workspace b w hw)

theorem attempt_workspace_hosts
    {f : Workspace Float Binding → Except Fault (Workspace Float Binding)}
    (hf : ∀ w w', f w = .ok w' → Workspace.Goes w w') :
    (tryWorkspace fun w => return ((), ← f w)).Respects (Hosts fs) :=
  attempt_workspace_respects fun d w hw => passSignals_hosts (hf d.workspace w hw)

theorem focusPanel_hosts (panel : Nat) : (focusPanel panel).Respects (Hosts fs) :=
  attempt_workspace_hosts fun _ _ => .focus

theorem removePanel_hosts (panel : Nat) : (removePanel panel).Respects (Hosts fs) :=
  attempt_workspace_hosts fun _ _ => .remove

theorem togglePanel_hosts (panel : Nat) : (togglePanel panel).Respects (Hosts fs) :=
  onWorkspace_hosts fun w => .toggleExpanded w panel

theorem closeAtOnce_hosts (panel : Nat) : (closeAtOnce panel).Respects (Hosts fs) :=
  .bind (onWorkspace_hosts fun w => .closeAtOnce w manager panel) fun _ => .ofExcept _

theorem update_closings_hosts {f : Workspace Float Binding → Workspace Float Binding}
    (hp : ∀ w, (f w).panels = w.panels) (hm : ∀ w, (f w).managers = w.managers)
    (hq : ∀ w, (f w).signals = w.signals) : (workspacePart.update f).Respects (Hosts fs) :=
  fun d h => h.congr (update_workspace_keeps hp hm hq d) rfl rfl rfl rfl rfl rfl
    (hp d.workspace) (hm d.workspace)

theorem add_hosts (key : AnimationKey) : (registration.add key).Respects (Hosts fs) := by
  refine .bind ?_ fun _ d h => h.congr (update_registry_keeps _ d) rfl rfl rfl rfl rfl rfl rfl rfl
  cases key with
  | closing panel =>
    exact .bind .get fun d => update_closings_hosts (fun _ => rfl) (fun _ => rfl) fun _ => rfl
  | _ => exact .pure ()

theorem closePanel_hosts (panel : Nat) : (closePanel panel).Respects (Hosts fs) := by
  refine .bind (onWorkspace_hosts fun w => .beginClose w panel) fun begins => ?_
  split
  · exact .bind (update_closings_hosts (fun _ => rfl) (fun _ => rfl) fun _ => rfl) fun _ =>
      add_hosts _
  · exact .pure ()

/-- A frame of a panel that fades out, which may be its last. -/
theorem fadeOne_hosts (panel : Nat) (time : Int) :
    (animator.renderOne time (.closing panel)).Respects (Hosts fs) := by
  refine .bind (tryWorkspace_hosts fun _ _ _ => .closingFrame) fun action => ?_
  cases action with
  | keep => exact .pure false
  | finish =>
    exact .bind (attempt_workspace_hosts fun _ _ => .finishClosing) fun _ => .pure true
  | drop => exact .pure true
  | unknown word => exact .throw _

theorem panelHost_hosts : panelHost.Respects (Hosts fs) := by
  refine .bind .get fun d => ?_
  split
  · exact .pure _
  · exact .throw _

theorem mouseOnWorkspace_hosts : mouseOnWorkspace.Respects (Hosts fs) :=
  .bind .get fun _ => .bind panelHost_hosts fun _ => .pure _

theorem pressPanels_hosts : pressPanels.Respects (Hosts fs) := by
  refine .bind mouseOnWorkspace_hosts fun pointer => .bind panelHost_hosts fun host =>
    .bind .get fun d => ?_
  dsimp only
  split
  · exact .pure ()
  next panel _ =>
    split
    · exact .pure ()
    · split
      · exact .bind (onWorkspace_hosts fun w => .beginResize w panel pointer) fun _ => .pure ()
      · split
        · exact onWorkspace_hosts fun w => .beginMove w panel pointer
        · exact focusPanel_hosts panel

theorem dragPanels_hosts : dragPanels.Respects (Hosts fs) := by
  refine .bind .get fun d => ?_
  split
  · exact .pure ()
  · exact .bind mouseOnWorkspace_hosts fun _ =>
      .bind (tryWorkspace_hosts fun _ _ _ => .moveTo) fun _ =>
      .bind (tryWorkspace_hosts fun _ _ _ => .resizeTo) fun _ => .pure ()

theorem releasePanels_hosts : releasePanels.Respects (Hosts fs) := by
  refine .bind .get fun d => ?_
  split
  · exact .pure ()
  · exact .bind (onWorkspace_hosts fun w => .endMove w _) fun _ =>
      onWorkspace_hosts fun w => .endResize w _

theorem stocked_withPanel (h : Stocked d) (hsound : Sound d) (hfresh : Fresh p c) :
    Stocked (App.withPanel p c d) := by
  refine ⟨h.inOrder, h.widgets, fun c' hc' => ?_, fun i c' hc' w hw => ?_⟩
  · rcases List.mem_append.mp hc' with hc' | hc'
    · exact h.items c' hc'
    · rw [List.mem_singleton.mp hc', hfresh.items]
      simp
  · by_cases hi : i = d.workspace.panels.length
    · subst hi
      rw [← hsound.contents, App.contents_withPanel] at hc'
      obtain rfl := Option.some.inj hc'
      rw [hfresh.widget] at hw
      cases hw
    · rw [contents_withPanel_of_ne hsound hi] at hc'
      exact h.owned i c' hc' w hw

/-- Nothing of the host is bound to a new panel, and the others keep what is bound to them. -/
theorem Hosted.bound_withPanel (h : Hosted fs d) (hsound : Sound d) (hfresh : Fresh p c)
    {q : Panel Float Binding} (hq : (App.withPanel p c d).workspace.panel? i = some q) :
    q.bindings.filter Binding.isWindow =
      (fs.filter fun f => f.panel = i ∧
        i ∈ (App.withPanel p c d).workspace.members manager).map PanelFrame.binding := by
  have hties : (App.withPanel p c d).workspace.ties? i = some q.ties := by
    rw [Workspace.ties?, hq, Option.map_some]
  rw [App.ties?_withPanel] at hties
  by_cases hi : i = d.workspace.panels.length
  · have hnone : fs.filter (fun f => f.panel = i ∧
        i ∈ (App.withPanel p c d).workspace.members manager) = [] := by
      simp only [List.filter_eq_nil_iff, decide_eq_true_eq, not_and]
      exact fun f hf he => absurd (he.trans hi) (h.known f hf).ne
    rw [if_pos hi.symm] at hties
    have hbindings : q.bindings = p.bindings :=
      congrArg Panel.Ties.bindings (Option.some.inj hties).symm
    rw [hnone, hbindings, hfresh.unframed, List.map_nil]
  · rw [if_neg (Ne.symm hi)] at hties
    obtain ⟨r, hr, hrq⟩ := Option.map_eq_some_iff.mp hties
    have hbindings : q.bindings = r.bindings := congrArg Panel.Ties.bindings hrq.symm
    rw [hbindings, h.bound i r hr]
    simp only [mem_members_withPanel hsound hi]

/-- A new panel has no frame yet. -/
theorem Hosted.withPanel (h : Hosted fs d) (hsound : Sound d) (hfresh : Fresh p c)
    (hvacant : d.Vacant (Platform.address d.workspace.panels.length)) :
    Hosted fs (App.withPanel p c d) := by
  have hold {f : PanelFrame} (hf : f ∈ fs) : f.panel ≠ d.workspace.panels.length :=
    (h.known f hf).ne
  obtain ⟨host, hhost, htracks, hlayered⟩ := h.host
  refine ⟨stocked_withPanel h.stocked hsound hfresh, h.outside, h.windows, h.themes, h.stack,
    h.distinct, h.issued, h.once, fun f hf => ?_, fun f hf hm => ?_, fun f hf hm => ?_,
    fun i q hq => ?_, fun f hf hm c' hc' => ?_, fun i hi => ?_, host, hhost, ?_, hlayered⟩
  · rw [App.length_withPanel]
    exact Nat.lt_succ_of_lt (h.known f hf)
  · exact h.standing f hf ((mem_members_withPanel hsound (hold hf)).mp hm)
  · exact h.fallen f hf fun hm' => hm ((mem_members_withPanel hsound (hold hf)).mpr hm')
  · exact h.bound_withPanel hsound hfresh hq
  · rw [contents_withPanel_of_ne hsound (hold hf)] at hc'
    exact h.built f hf ((mem_members_withPanel hsound (hold hf)).mp hm) c' hc'
  · rw [members_withPanel hsound, List.mem_append, not_or] at hi
    have hne : i ≠ d.workspace.panels.length := by simpa using hi.2
    have hsilent := h.silent i hi.1
    unfold input? at hsilent ⊢
    rwa [contents_withPanel_of_ne hsound hne]
  · have hforgotten := hvacant.forgotten
    rw [tracked, hhost] at hforgotten
    rw [members_withPanel hsound]
    exact htracks.addMember hvacant.free hforgotten fun f hf => hold hf

theorem addPanel_hosts (hfresh : Fresh p c)
    (hvacant : d.Vacant (Platform.address d.workspace.panels.length)) :
    Hosts fs d ((addPanel p c).outcome d).2 := by
  rintro ⟨hsound, htidy, hhosted⟩
  rw [App.outcome_addPanel c hfresh.free hsound.quiet]
  exact ⟨App.sound_withPanel hsound hfresh.free hfresh.widget, htidy,
    hhosted.withPanel hsound hfresh hvacant⟩

end Desk

end DebugDesk
