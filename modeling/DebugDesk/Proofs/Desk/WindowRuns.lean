import DebugDesk.Proofs.Desk.Stacking
import DebugDesk.Proofs.Desk.Tending

/-!
# Runs of panels and their windows

Panels are added, focused, dragged, closed and removed in any order, and the host is updated in
between. One frame is made for each panel that is managed at an update, and it is there for as long
as the panel is managed.

After an update that succeeds, the host knows the windows of exactly the managed panels, they lie on
the screen as the panels are stacked, and contents take input if they are to. The update succeeds if
all panels have sizes that windows can have.
-/
namespace DebugDesk

namespace Desk

open Effect Toolkit
open Display (Spares)

variable [Platform]

section

variable {d d' : Desk} {fs more : List PanelFrame} {f : PanelFrame} {i : Nat} {host : PanelHost}

def StaysTidy (d d' : Desk) : Prop := d.transport.Tidy → d'.transport.Tidy

instance : Lenient StaysTidy where
  refl _ := id
  trans _ _ _ h h' := h' ∘ h
  aside _ _ _ _ ht _ h := ht ▸ h
  content _ _ _ _ _ _ _ _ := id

instance : Enduring StaysTidy where
  bind _ _ _ := id
  pass _ _ h hw _ ht := ((passSignals_settles h hw).calms ht).1
  call c d _ ht := ((c.settles d).calms ht).1

def Content.takesInput : Content → Bool
  | .recording | .graph _ => true
  | _ => false

def takesInput (d : Desk) (i : Nat) : Bool := (d.contents[i]?).any Content.takesInput

theorem Built.hears (h : Built d i) : d.hears i = d.takesInput i := by
  unfold Desk.hears takesInput
  cases hc : d.contents[i]? with
  | none => rfl
  | some c =>
    cases c with
    | graph c => simpa [Content.hears, Content.takesInput] using h c hc
    | _ => rfl

/-- The host that only keeps windows for the places of some panels. -/
def onlyOf (members : List Nat) (host : PanelHost) : PanelHost :=
  { host with windows := host.windows.filter fun (place, _) =>
      (members.map Platform.address).contains place }

theorem Tracks.onlyOf {members : List Nat} (h : Tracks fs members host) :
    Tracks fs members (onlyOf members host) := by
  refine ⟨fun x hx => h.known x (List.mem_filter.mp hx).1,
    h.once.sublist (List.filter_sublist.map _), fun f hf hm => ?_, h.apart⟩
  obtain ⟨x, hx, hplace⟩ := List.mem_map.mp (h.covers f hf hm)
  refine List.mem_map.mpr ⟨x, List.mem_filter.mpr ⟨hx, ?_⟩, hplace⟩
  rw [List.contains_iff_mem, hplace]
  exact List.mem_map_of_mem hm

theorem outcome_hostFrame (hhost : d.host = some host) : hostFrame.outcome d = (do
      (d.workspace.members manager).forM syncPanel
      restack
      gateInput
      return FrameAction.keep : Effect Desk FrameAction).outcome
        { d with host := some (onlyOf (d.workspace.members manager) host) } := by
  have hforget : (changeHost (onlyOf (d.workspace.members manager))).outcome d =
      (.ok (), { d with host := some (onlyOf (d.workspace.members manager) host) }) :=
    outcome_changeHost hhost _
  rw [hostFrame, outcome_bind_ok (outcome_get d)]
  exact outcome_bind_ok hforget _

variable [LawfulGui Platform.Toolkit Handler]

theorem Hosted.gates (h : Hosted fs d) {flag : Nat → Bool}
    (hg : GatesAll (d.workspace.members manager) flag d d') : Hosted fs d' := by
  have hspares : (display d.toolkit).Spares (display d'.toolkit) := by
    rw [hg.toolkit]
    exact refl_of Spares _
  refine h.of_spares hg.stocked hspares (by rw [hg.toolkit]) hg.host (by rw [hg.workspace])
    (by rw [hg.workspace]) hg.contents fun i hi => ?_
  rw [hg.inputs, if_neg fun hboth => hi hboth.1]

/-- What the host shows of the panels after an update. -/
structure UpToDate (d : Desk) (host : PanelHost) : Prop where
  tracked : (host.windows.map Prod.fst).Perm ((d.workspace.members manager).map Platform.address)
  stacked : (display d.toolkit).onScreen.map some =
    (d.workspace.inStackingOrder manager).map fun i => (host.window? i).map PanelWindow.window
  gated : ∀ i, d.input? i =
    if i ∈ d.workspace.members manager ∧ d.takesInput i then
      some (decide (d.inputPanel host = some i))
    else none

/-- Which contents take input once all managed ones were told. -/
theorem Hosted.gated (h : Hosted fs d) (hc : Complete fs d)
    (hg : GatesAll (d.workspace.members manager) (fun i => d.inputPanel host = some i) d d')
    (i : Nat) : d'.input? i =
      if i ∈ d'.workspace.members manager ∧ d'.takesInput i then
        some (decide (d'.inputPanel host = some i))
      else none := by
  have hpanel : d'.inputPanel host = d.inputPanel host := by
    rw [inputPanel, hg.workspace, hg.toolkit, inputPanel]
  have htakes : d'.takesInput i = d.takesInput i := by rw [takesInput, hg.contents, takesInput]
  rw [hg.inputs, hg.workspace, hpanel, htakes]
  by_cases hm : i ∈ d.workspace.members manager
  · obtain ⟨f, hf, rfl⟩ := hc i hm
    rw [(h.built f hf hm).hears]
    by_cases htakes : d.takesInput f.panel
    · rw [if_pos ⟨hm, htakes⟩, if_pos ⟨hm, htakes⟩]
    · rw [if_neg fun hboth => htakes hboth.2, if_neg fun hboth => htakes hboth.2]
      refine input?_of_not_hears ?_
      rw [(h.built f hf hm).hears]
      simpa using htakes
  · rw [if_neg fun hboth => hm hboth.1, if_neg fun hboth => hm hboth.1, h.silent i hm]

/-- The windows are stacked and the contents told once every managed panel has a frame. -/
theorem Hosted.finishes (h : Hosted fs d) (hs : Sound d) (hc : Complete fs d)
    (ht : d.tracked ⊆ (d.workspace.members manager).map Platform.address) :
    ∃ d' host, (do
        restack
        gateInput
        return FrameAction.keep : Effect Desk FrameAction).outcome d = (.ok .keep, d') ∧
      Hosted fs d' ∧ d'.workspace = d.workspace ∧ d'.host = some host ∧ UpToDate d' host := by
  obtain ⟨host, hhost, htracks, -⟩ := h.host
  obtain ⟨t, hrestack, hhosted, hscreen⟩ := restack_orders h hs hhost
  obtain ⟨d', hgate, hgates⟩ := gateInput_gates hhosted.stocked rfl
  refine ⟨d', { host with stacking := windowOrder d host }, ?_, hhosted.gates hgates,
    hgates.workspace, hgates.host, ?_, ?_, hhosted.gated hc hgates⟩
  · rw [outcome_bind_ok hrestack, outcome_bind_ok hgate]
    rfl
  · have hkeys : d.tracked = host.windows.map Prod.fst := by
      rw [tracked, hhost]
      rfl
    rw [hgates.workspace]
    refine (List.perm_ext_iff_of_nodup htracks.once htracks.apart).mpr fun place =>
      ⟨fun hp => ht (hkeys ▸ hp), fun hp => ?_⟩
    obtain ⟨i, hi, rfl⟩ := List.mem_map.mp hp
    obtain ⟨f, hf, rfl⟩ := hc i hi
    exact htracks.covers f hf hi
  · rw [hgates.workspace, hgates.toolkit, hscreen]
    exact map_windowOrder h hs htracks hc

/-- What an update makes of the frames, and when it succeeds. -/
structure Updates (fs more : List PanelFrame) (d : Desk) (r : Except Fault FrameAction)
    (d' : Desk) : Prop where
  hosting : Hosting (fs ++ more) d'
  members : d'.workspace.members manager = d.workspace.members manager
  fitting : ∀ f ∈ more, f.panel ∈ d.workspace.members manager
  complete : r.isOk → Complete (fs ++ more) d' ∧ ∃ host, d'.host = some host ∧ UpToDate d' host
  succeeds : (∀ i ∈ d.workspace.members manager, ∀ p, d.workspace.panel? i = some p → Sized p) →
    r.isOk

theorem hostFrame_updates (h : Hosting fs d)
    (hcan : ∀ i ∈ d.workspace.members manager, CanFrame fs d i) :
    ∃ more, Updates fs more d (hostFrame.outcome d).1 (hostFrame.outcome d).2 := by
  obtain ⟨hsound, htidy, hhosted⟩ := h
  obtain ⟨hsound', hstays⟩ := hostFrame_keeps (Q := StaysTidy) d hsound
  have htidy' := hstays.also htidy
  obtain ⟨host, hhost, htracks, hlayered⟩ := hhosted.host
  have hframe := outcome_hostFrame hhost
  have hkeeps : Keeps d { d with host := some (onlyOf (d.workspace.members manager) host) } :=
    keeps_aside rfl rfl rfl rfl rfl
  have hsound₀ := (hkeeps hsound).1
  have htracked : tracked { d with host := some (onlyOf (d.workspace.members manager) host) } ⊆
      (d.workspace.members manager).map Platform.address := by
    intro place hp
    obtain ⟨x, hx, rfl⟩ := List.mem_map.mp hp
    exact List.contains_iff_mem.mp (List.mem_filter.mp hx).2
  obtain ⟨more, hsyncs⟩ := forM_syncPanel_syncs (hhosted.withHost htracks.onlyOf hlayered) hsound₀
    (Workspace.nodup_members hsound.arranged) (List.Subset.refl _) hcan
  have hkeeps₁ : ((d.workspace.members manager).forM syncPanel).Respects Keeps :=
    .forM _ fun i _ => syncPanel_keeps i
  refine ⟨more, ?_⟩
  rcases hsync : ((d.workspace.members manager).forM syncPanel).outcome
    { d with host := some (onlyOf (d.workspace.members manager) host) } with ⟨fault | _, d₁⟩ <;>
    rw [hsync] at hsyncs
  · rw [outcome_bind_error hsync] at hframe
    rw [hframe] at hsound' htidy' ⊢
    refine ⟨⟨hsound', htidy', hsyncs.hosted⟩, hsyncs.others.members, hsyncs.fitting,
      fun hok => ?_, fun hsized => ?_⟩
    · cases hok
    · cases hsyncs.succeeds hsized
  · have hcomplete : Complete (fs ++ more) d₁ := fun i hi =>
      hsyncs.complete rfl i (hsyncs.others.members ▸ hi)
    have hforgot : d₁.tracked ⊆ (d₁.workspace.members manager).map Platform.address := by
      rw [hsyncs.others.members]
      intro place hp
      rcases List.mem_append.mp (hsyncs.others.tracked hp) with hp | hp
      · exact htracked hp
      · exact hp
    have hsound₁ := (hkeeps₁.of_outcome hsync hsound₀).1
    obtain ⟨d', host', hrest, hhosted', hworkspace, hhost', hcurrent⟩ :=
      hsyncs.hosted.finishes hsound₁ hcomplete hforgot
    rw [outcome_bind_ok hsync, hrest] at hframe
    rw [hframe] at hsound' htidy' ⊢
    have hmembers : d'.workspace.members manager = d₁.workspace.members manager := by
      rw [hworkspace]
    exact ⟨⟨hsound', htidy', hhosted'⟩, hmembers.trans hsyncs.others.members, hsyncs.fitting,
      fun _ => ⟨fun i hi => hcomplete i (hmembers ▸ hi), host', hhost', hcurrent⟩, fun _ => rfl⟩

end

section

variable {d d' : Desk} {fs : List PanelFrame} {i : Nat}

inductive PanelAction where
  | add (p : Panel Float Binding) (c : Content)
  | focus (panel : Nat)
  | remove (panel : Nat)
  | close (panel : Nat)
  | closeAtOnce (panel : Nat)
  /-- A frame of a panel that fades out, which may be its last. -/
  | fade (panel : Nat) (time : Int)
  | toggle (panel : Nat)
  | beginMove (panel : Nat) (pointer : Point Float)
  | moveTo (panel : Nat) (pointer : Point Float)
  | endMove (panel : Nat)
  | beginResize (panel : Nat) (pointer : Point Float)
  | resizeTo (panel : Nat) (pointer : Point Float)
  | endResize (panel : Nat)
  | cancelGesture (panel : Nat)
  /-- The mouse goes somewhere. -/
  | mouse (position : Point Float)
  | press
  | drag
  | release
  | clock (time : Int)
  | update

def PanelAction.effect : PanelAction → Effect Desk Unit
  | .add p c => do let _ ← addPanel p c
  | .focus panel => focusPanel panel
  | .remove panel => removePanel panel
  | .close panel => closePanel panel
  | .closeAtOnce panel => Desk.closeAtOnce panel
  | .fade panel time => do let _ ← animator.renderOne time (.closing panel)
  | .toggle panel => toggleByButton panel
  | .beginMove panel pointer => onWorkspace fun w => ((), w.beginMove panel pointer)
  | .moveTo panel pointer => do let _ ← tryWorkspace (·.moveTo panel pointer)
  | .endMove panel => onWorkspace fun w => ((), w.endMove panel)
  | .beginResize panel pointer => do let _ ← onWorkspace (·.beginResize panel pointer)
  | .resizeTo panel pointer => do let _ ← tryWorkspace (·.resizeTo panel pointer)
  | .endResize panel => onWorkspace fun w => ((), w.endResize panel)
  | .cancelGesture panel => onWorkspace fun w => ((), w.cancelGesture panel)
  | .mouse position => toolkitPart.update (Gui.setMouse · position)
  | .press => pressPanels
  | .drag => dragPanels
  | .release => releasePanels
  | .clock time => modify fun d => { d with clock := time }
  | .update => do let _ ← hostFrame

/-- Panels that are added are new and come to vacant places, and contents can be built when the host
comes to that. -/
def PanelAction.Allowed (d : Desk) : PanelAction → Prop
  | .add p c => Fresh p c ∧ d.Vacant (Platform.address d.workspace.panels.length)
  | .update => ∀ i ∈ d.workspace.members manager, Platform.address i ∉ d.tracked → ∀ p c,
      d.workspace.panel? i = some p → d.contents[i]? = some c → c.CanBuild p d.clock
  | _ => True

section

variable [LawfulGui Platform.Toolkit Handler]

theorem configure_hosts (id : String) (options : Toolkit.Options) :
    (configure id options).Respects (Hosts fs) := by
  rintro d ⟨hsound, htidy, hhosted⟩
  obtain ⟨hstocked, hback⟩ := hhosted.stocked.back (configure_back id options d)
  exact ⟨(configure_keeps (Q := Anyhow) id options d hsound).1, htidy,
    hhosted.backstage hstocked hback⟩

theorem toggleByButton_hosts (panel : Nat) : (toggleByButton panel).Respects (Hosts fs) := by
  refine .bind (togglePanel_hosts panel) fun _ => .bind panelHost_hosts fun host =>
    .bind .get fun d => ?_
  split
  · exact configure_hosts _ _
  · exact .pure ()

theorem mouse_hosts (position : Point Float) :
    (toolkitPart.update (Gui.setMouse · position)).Respects (Hosts fs) := by
  rintro d ⟨hsound, htidy, hhosted⟩
  have hback : Back none [] d { d with toolkit := Gui.setMouse d.toolkit position } :=
    back_toolkit fun hin => hin.setMouse position
  obtain ⟨hstocked, hbackstage⟩ := hhosted.stocked.back hback
  exact ⟨(update_toolkit_keeps (Q := Anyhow) (Gui.setMouse · position) d hsound).1, htidy,
    hhosted.backstage hstocked hbackstage⟩

theorem clock_hosts (time : Int) :
    (modify fun d => { d with clock := time } : Effect Desk Unit).Respects (Hosts fs) :=
  fun _ h => h.congr (keeps_aside rfl rfl rfl rfl rfl) rfl rfl rfl rfl rfl rfl rfl rfl

/-- Whatever is done between updates keeps the frames. -/
theorem PanelAction.hosts (a : PanelAction) (ha : a.Allowed d) (hne : a ≠ .update) :
    Hosts fs d (a.effect.outcome d).2 := by
  cases a with
  | add p c => exact related_bind (addPanel_hosts ha.1 ha.2) fun _ d' _ => refl_of (Hosts fs) d'
  | focus panel => exact focusPanel_hosts panel d
  | remove panel => exact removePanel_hosts panel d
  | close panel => exact closePanel_hosts panel d
  | closeAtOnce panel => exact closeAtOnce_hosts panel d
  | fade panel time => exact Respects.bind (fadeOne_hosts panel time) (fun _ => .pure ()) d
  | toggle panel => exact toggleByButton_hosts panel d
  | beginMove panel pointer => exact onWorkspace_hosts (fun w => .beginMove w panel pointer) d
  | moveTo panel pointer =>
    exact Respects.bind (tryWorkspace_hosts fun _ _ _ => .moveTo) (fun _ => .pure ()) d
  | endMove panel => exact onWorkspace_hosts (fun w => .endMove w panel) d
  | beginResize panel pointer =>
    exact Respects.bind (onWorkspace_hosts fun w => .beginResize w panel pointer)
      (fun _ => .pure ()) d
  | resizeTo panel pointer =>
    exact Respects.bind (tryWorkspace_hosts fun _ _ _ => .resizeTo) (fun _ => .pure ()) d
  | endResize panel => exact onWorkspace_hosts (fun w => .endResize w panel) d
  | cancelGesture panel => exact onWorkspace_hosts (fun w => .cancelGesture w panel) d
  | mouse position => exact mouse_hosts position d
  | press => exact pressPanels_hosts d
  | drag => exact dragPanels_hosts d
  | release => exact releasePanels_hosts d
  | clock time => exact clock_hosts time d
  | update => exact absurd rfl hne

end

structure HostRun where
  desk : Desk
  /-- The panels that were managed at some update. -/
  met : List Nat
  shown : List Nat
  /-- Whether an update that succeeded was the last that happened. -/
  updated : Bool

namespace HostRun

def start (grid stage : Float) (origin : Point Float) (buttonWidth handleSize : Float) : HostRun :=
  ⟨((makeHost origin buttonWidth handleSize).outcome (Desk.empty (.make grid stage))).2, [], [],
    false⟩

/-- The run goes on, also if something fails. -/
def next (s : HostRun) (a : PanelAction) : HostRun :=
  let (result, desk) := a.effect.outcome s.desk
  let members := s.desk.workspace.members manager
  match a with
  | .update => ⟨desk, s.met ++ members, if result.isOk then s.shown ++ members else s.shown,
      result.isOk⟩
  | _ => { s with desk, updated := false }

def after (s : HostRun) (actions : List PanelAction) : HostRun := actions.foldl next s

/-- Everything in a run is allowed where it happens. -/
def Permits (s : HostRun) : List PanelAction → Prop
  | [] => True
  | a :: rest => a.Allowed s.desk ∧ (s.next a).Permits rest

variable {s : HostRun} {a : PanelAction}

theorem next_of_ne (hne : a ≠ .update) :
    s.next a = { s with desk := (a.effect.outcome s.desk).2, updated := false } := by
  cases a with
  | update => exact absurd rfl hne
  | _ => rfl

theorem next_update (s : HostRun) : s.next .update =
    let r := hostFrame.outcome s.desk
    let members := s.desk.workspace.members manager
    ⟨r.2, s.met ++ members, if r.1.isOk then s.shown ++ members else s.shown, r.1.isOk⟩ := by
  have hdesk : (PanelAction.update.effect.outcome s.desk).2 = (hostFrame.outcome s.desk).2 :=
    outcome_bind_pure _ _ _
  have hok : (PanelAction.update.effect.outcome s.desk).1.isOk =
      (hostFrame.outcome s.desk).1.isOk := by
    rw [PanelAction.effect]
    rcases hframe : hostFrame.outcome s.desk with ⟨fault | action, d'⟩
    · rw [outcome_bind_error hframe]
      rfl
    · rw [outcome_bind_ok hframe]
      rfl
  change HostRun.mk (PanelAction.update.effect.outcome s.desk).2 _
    (if (PanelAction.update.effect.outcome s.desk).1.isOk then _ else _)
    (PanelAction.update.effect.outcome s.desk).1.isOk = _
  rw [hdesk, hok]

def makeHandlers : Effect Desk (String × String) :=
  makeAround "handler_registry" [] [] do
    let _ ← makeActive "add_mouse_click_handler" leftButton .panelPress
    let _ ← makeActive "add_mouse_move_handler" [] .panelMove
    makeActive "add_mouse_release_handler" leftButton .panelRelease

theorem makeHandlers_total : Total makeHandlers :=
  makeAround_total (.bind makeActive_total fun _ => .bind makeActive_total fun _ =>
    makeActive_total)

variable [LawfulGui Platform.Toolkit Handler]

/-- The host keeps frames, one for each panel that it has to show. -/
structure Shows (fs : List PanelFrame) (s : HostRun) : Prop where
  hosting : Hosting fs s.desk
  met : ∀ f ∈ fs, f.panel ∈ s.met
  shown : ∀ i ∈ s.shown, ∃ f ∈ fs, f.panel = i
  updated : s.updated → ∃ host, s.desk.host = some host ∧ UpToDate s.desk host

/-- What the host does not know yet has no frame, so its content can be built. -/
theorem canFrame (h : Hosted fs d) (ha : PanelAction.update.Allowed d) :
    ∀ i ∈ d.workspace.members manager, CanFrame fs d i := by
  intro i hm hnew p c hp hc
  refine ha i hm (fun hplace => ?_) p c hp hc
  obtain ⟨host, hhost, htracks, -⟩ := h.host
  rw [tracked, hhost] at hplace
  obtain ⟨x, hx, hxi⟩ := List.mem_map.mp hplace
  obtain ⟨f, hkept⟩ := htracks.known x hx
  exact hnew f hkept.frame (hkept.alone i hm hxi.symm).symm

/-- An update makes the frames that are missing. -/
theorem Shows.update (h : s.Shows fs) (ha : PanelAction.update.Allowed s.desk) :
    (∃ more, (s.next .update).Shows (fs ++ more)) ∧
      ((∀ i ∈ s.desk.workspace.members manager, ∀ p,
        s.desk.workspace.panel? i = some p → Sized p) → (s.next .update).updated) := by
  obtain ⟨more, hupdates⟩ := hostFrame_updates h.hosting (canFrame h.hosting.hosted ha)
  rw [next_update]
  refine ⟨⟨more, hupdates.hosting, fun f hf => ?_, fun i hi => ?_, fun hok =>
    (hupdates.complete hok).2⟩, hupdates.succeeds⟩
  · rcases List.mem_append.mp hf with hf | hf
    · exact List.mem_append_left _ (h.met f hf)
    · exact List.mem_append_right _ (hupdates.fitting f hf)
  · have hbefore (hi : i ∈ s.shown) : ∃ f ∈ fs ++ more, f.panel = i := by
      obtain ⟨f, hf, hpanel⟩ := h.shown i hi
      exact ⟨f, List.mem_append_left _ hf, hpanel⟩
    dsimp only at hi
    split at hi
    next hok =>
      rcases List.mem_append.mp hi with hi | hi
      · exact hbefore hi
      · exact (hupdates.complete hok).1 i (hupdates.members ▸ hi)
    · exact hbefore hi

theorem Shows.next (h : s.Shows fs) (ha : a.Allowed s.desk) :
    ∃ more, (s.next a).Shows (fs ++ more) := by
  by_cases hne : a = .update
  · subst hne
    exact (h.update ha).1
  · refine ⟨[], ?_⟩
    rw [next_of_ne hne, List.append_nil]
    exact ⟨a.hosts ha hne h.hosting, h.met, h.shown, by simp⟩

theorem Shows.after (h : s.Shows fs) {actions : List PanelAction} (ha : s.Permits actions) :
    ∃ more, (s.after actions).Shows (fs ++ more) := by
  induction actions generalizing s fs with
  | nil => exact ⟨[], by rwa [List.append_nil]⟩
  | cons a rest ih =>
    obtain ⟨more, hnext⟩ := h.next ha.1
    obtain ⟨later, hafter⟩ := ih hnext ha.2
    exact ⟨more ++ later, by rwa [← List.append_assoc]⟩

/-- Nothing is there in the beginning. -/
theorem display_empty (manager : PanelManager Float) :
    ∃ issued, display (Desk.empty manager).toolkit = ⟨[], [], issued, [], [], []⟩ :=
  LawfulGui.empty.2

theorem stocked_empty (grid stage : Float) : Stocked (Desk.empty (.make grid stage)) := by
  refine ⟨⟨LawfulGui.empty.1, ?_⟩, by simp [Desk.empty], by simp [Desk.empty],
    by simp [Desk.empty]⟩
  obtain ⟨issued, hempty⟩ := display_empty (.make grid stage)
  rw [hempty]
  exact ⟨.nil, by simp [Display.Known], by simp, by simp⟩

/-- A host that has seen no panels keeps no frames. -/
theorem hosted_nil (hs : Stocked d) (hin : (display d.toolkit).containers = [])
    (hscreen : (display d.toolkit).windows = [] ∧ (display d.toolkit).themes = [] ∧
      (display d.toolkit).stack = [])
    (hpanels : d.workspace.panels = []) (hmembers : d.workspace.members manager = [])
    (hcontents : d.contents = []) {host : PanelHost} (hhost : d.host = some host)
    (hknown : host.windows = [] ∧ host.stacking = []) :
    Hosted [] d := by
  refine ⟨hs, hin, hscreen.1, hscreen.2.1, by rw [hscreen.1, hscreen.2.2], by simp, by simp,
    by simp, by simp, by simp, by simp, fun i p hp => ?_, by simp, fun i _ => ?_, host, hhost,
    ⟨by simp [hknown.1], by simp [hknown.1], by simp, by simp [hmembers]⟩, [], [],
    by simp [hscreen.2.2, hknown.2],
    by simp⟩
  · simp [Workspace.panel?, hpanels] at hp
  · simp [input?, hcontents]

theorem makeHandlers_back : makeHandlers.Respects (Back none []) :=
  makeAround_back ⟨by decide, by decide, rfl⟩
    (.bind (makeActive_back ⟨by decide, by decide, rfl⟩) fun _ =>
      .bind (makeActive_back ⟨by decide, by decide, rfl⟩) fun _ =>
      makeActive_back ⟨by decide, by decide, rfl⟩)

theorem hosting_start (grid stage : Float) (origin : Point Float)
    (buttonWidth handleSize : Float) :
    Hosting [] (start grid stage origin buttonWidth handleSize).desk := by
  obtain ⟨hsound, hstays⟩ := makeHost_keeps (Q := StaysTidy) origin buttonWidth handleSize
    (Desk.empty (.make grid stage)) (sound_empty grid stage)
  refine ⟨hsound, hstays.also (HostTransport.tidy_make ..), ?_⟩
  have htotal : Total makeHandlers := makeHandlers_total
  obtain ⟨⟨handlers, _⟩, d₁, hmade⟩ := htotal (Desk.empty (.make grid stage))
  have hback : Back none [] (Desk.empty (.make grid stage)) d₁ :=
    makeHandlers_back.of_outcome hmade
  obtain ⟨hstocked, hbackstage⟩ := (stocked_empty grid stage).back hback
  have hstart : (start grid stage origin buttonWidth handleSize).desk =
      ((registration.add .host).outcome { d₁ with
        host := some ⟨origin, buttonWidth, handleSize, handlers, [], []⟩ }).2 := by
    have hmake : makeHost origin buttonWidth handleSize = (makeHandlers >>= fun made => do
      modify fun d => { d with
        host := some ⟨origin, buttonWidth, handleSize, made.1, [], []⟩ }
      registration.add .host) := rfl
    rw [start, hmake, outcome_bind_ok hmade]
    rfl
  rw [hstart]
  obtain ⟨issued, hempty⟩ := display_empty (.make grid stage)
  refine hosted_nil (hstocked.congr rfl rfl rfl) ?_ ⟨?_, ?_, ?_⟩ ?_ ?_ ?_ rfl ⟨rfl, rfl⟩
  · exact hbackstage.containers.trans (by rw [hempty])
  · exact hbackstage.toolkit.windows.trans (by rw [hempty, List.append_nil])
  · exact hbackstage.toolkit.themes.trans (by rw [hempty, List.append_nil])
  · exact hbackstage.toolkit.stack.trans (by rw [hempty, List.append_nil])
  · exact congrArg Workspace.panels hbackstage.workspace
  · exact congrArg (Workspace.members · manager) hbackstage.workspace
  · exact List.ext_getElem? fun i => hbackstage.contents i (by simp)

/-- What a run made of windows and themes, and what there is of them. -/
structure Accounts (s : HostRun) (fs : List PanelFrame) : Prop where
  /-- Nothing was made but the windows and themes of frames, each for itself. -/
  windows : (display s.desk.toolkit).windows = fs.map PanelFrame.window
  themes : (display s.desk.toolkit).themes = fs.flatMap PanelFrame.themes
  distinct : (fs.flatMap PanelFrame.roots).Nodup
  /-- Each panel has one frame if it was managed at an update, unless that failed. -/
  once : (fs.map PanelFrame.panel).Nodup
  met : ∀ f ∈ fs, f.panel ∈ s.met
  shown : ∀ i ∈ s.shown, ∃ f ∈ fs, f.panel = i
  /-- Of all windows and themes, those of managed panels exist. -/
  there : ∀ f ∈ fs, ∀ id ∈ f.roots,
    ((display s.desk.toolkit).look id).isSome ↔ f.panel ∈ s.desk.workspace.members manager
  known : ∃ host, s.desk.host = some host ∧ ∀ f ∈ fs,
    f.panel ∈ s.desk.workspace.members manager →
      (host.window? f.panel).map PanelWindow.window = some f.window
  updated : s.updated → ∃ host, s.desk.host = some host ∧ UpToDate s.desk host

theorem Shows.accounts (h : s.Shows fs) : s.Accounts fs := by
  have hhosted := h.hosting.hosted
  obtain ⟨host, hhost, htracks, -⟩ := hhosted.host
  refine ⟨hhosted.windows, hhosted.themes, hhosted.distinct, hhosted.once, h.met, h.shown,
    fun f hf id hid => ?_, ⟨host, hhost, fun f hf hm => htracks.lookup hhosted hf hm⟩, h.updated⟩
  constructor
  · intro hexists
    by_contra hm
    rw [hhosted.fallen f hf hm id hid] at hexists
    cases hexists
  · intro hm
    obtain ⟨kind, hlook, -⟩ := (hhosted.standing f hf hm).look hid
    rw [hlook]
    rfl

/-- Whatever is done with panels, their windows and themes are made once, when the host is updated
first, and deleted with them. After an update the host knows the windows of exactly the managed
panels, they lie on the screen as the panels are stacked, and of all contents only that of the panel
under the mouse takes input, or none while a panel is dragged. -/
theorem windows_follow_panels (grid stage : Float) (origin : Point Float)
    (buttonWidth handleSize : Float) (actions : List PanelAction)
    (h : (start grid stage origin buttonWidth handleSize).Permits actions) :
    let s := (start grid stage origin buttonWidth handleSize).after actions
    (∃ fs, s.Accounts fs) ∧
      (PanelAction.update.Allowed s.desk →
        (∀ i ∈ s.desk.workspace.members manager, ∀ p, s.desk.workspace.panel? i = some p →
          Sized p) → (s.next .update).updated) := by
  have hstart : (start grid stage origin buttonWidth handleSize).Shows [] :=
    ⟨hosting_start .., by simp, by simp [start], by simp [start]⟩
  obtain ⟨fs, hafter⟩ := hstart.after h
  exact ⟨⟨_, hafter.accounts⟩, fun ha => (hafter.update ha).2⟩

def logPanel : Panel Float Binding := .make "log" 0 0 200 100 true 20 60 40

omit [Platform] in
theorem sized_logPanel : Sized { logPanel with manager := some 0, z := 1, focused := true } := by
  decide +kernel

omit [Platform] in
/-- A panel is shown and removed. -/
theorem windows_follow_recording :
    letI : Platform := .simulated id
    let s := start 20 0.5 ⟨0, 24⟩ 20 12
    let p : Panel Float Binding := .make "log" 0 0 200 100 true 20 60 40
    let shows : List PanelAction := [.add p .recording, .update]
    let removes : List PanelAction := [.mouse ⟨30, 40⟩, .press, .remove 0]
    s.Permits (shows ++ removes) ∧ (∃ fs, (s.after (shows ++ removes)).Accounts fs) ∧
      (s.after shows).updated := by
  let _ : Platform := .simulated id
  intro s p shows removes
  have hvacant : s.desk.Vacant (Platform.address 0) := ⟨List.not_mem_nil, List.not_mem_nil⟩
  have hallowed : PanelAction.update.Allowed (s.after [.add p .recording]).desk := by
    have hcontents : (s.after [.add p .recording]).desk.contents = [.recording] := rfl
    intro i _ _ q c _ hc
    rw [hcontents] at hc
    obtain rfl := List.mem_singleton.mp (List.mem_of_getElem? hc)
    trivial
  have hsized (i : Nat) (_ : i ∈ (s.after [.add p .recording]).desk.workspace.members manager)
      (q : Panel Float Binding)
      (hq : (s.after [.add p .recording]).desk.workspace.panel? i = some q) : Sized q := by
    have hpanels : (s.after [.add p .recording]).desk.workspace.panels =
        [{ p with manager := some 0, z := 1, focused := true }] := rfl
    obtain rfl := List.mem_singleton.mp (hpanels ▸ List.mem_of_getElem? hq)
    exact sized_logPanel
  have hpermits : s.Permits (shows ++ removes) :=
    ⟨⟨⟨rfl, rfl, rfl, rfl⟩, hvacant⟩, hallowed, trivial, trivial, trivial, trivial⟩
  have hadds : s.Permits [.add p .recording] := ⟨⟨⟨rfl, rfl, rfl, rfl⟩, hvacant⟩, trivial⟩
  exact ⟨hpermits, (windows_follow_panels 20 0.5 ⟨0, 24⟩ 20 12 _ hpermits).1,
    (windows_follow_panels 20 0.5 ⟨0, 24⟩ 20 12 _ hadds).2 hallowed hsized⟩

/-- A panel is removed after its window was made, and another comes to its place. -/
def replacing : List PanelAction :=
  [.add logPanel .recording, .update, .remove 0, .add logPanel .recording]

omit [Platform] in
/-- The next update takes the window that is kept for the place as that of the new panel. It
succeeds, and that panel has no window. -/
theorem replaced_has_no_window :
    letI : Platform := .simulated fun _ => 0
    let s := (start 20 0.5 ⟨0, 24⟩ 20 12).after replacing
    s.desk.workspace.members manager = [1] ∧ (s.next .update).updated = true ∧
      (display (s.next .update).desk.toolkit).onScreen = [] := by
  decide +kernel

end HostRun

end

end Desk

end DebugDesk
