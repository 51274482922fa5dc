import DebugDesk.Proofs.App.Opening
import DebugDesk.Proofs.Desk.WindowRuns
import DebugDesk.Proofs.Panel.Easing
import Mathlib.Data.List.Chain

/-!
# Panels in hand

The button of the mouse is pressed and released in turns, and panels are added, collapsed, closed
and removed in between. At most one panel is dragged at a time: one that the last press took hold
of. It goes on to be dragged until the release, or until it closes or is removed, and only meanwhile
does it move or change its size.
-/
namespace DebugDesk

namespace Desk

open Effect

variable [Platform] {d d' : Desk} {moved hand : Option Nat} {i j : Nat}

/-- Nothing is begun with any panel of a desk. -/
def Eases (moved : Option Nat) (d d' : Desk) : Prop := d.workspace.Eases moved d'.workspace

instance : Lasting (Eases moved) where
  refl d := .refl moved d.workspace
  trans _ _ _ := .trans
  aside _ _ hp _ _ _ := .of_panels fun i => by rw [Workspace.panel?, hp, Workspace.panel?]
  content _ d _ _ _ _ _ _ := .refl moved d.workspace
  bind d panel binding := .bind d.workspace panel binding

theorem passSignals_eases {w : Workspace Float Binding} (hw : d.workspace.Wanes w)
    (he : d.workspace.Eases moved w) :
    KeepsAlso (Eases moved) d (passSignals.outcome { d with workspace := w }).2 := by
  refine passAll_keeps (fun c d _ => ?_) hw fun _ => ⟨he.known, he.added⟩
  have haside := c.aside d
  exact .of_panels fun i => by rw [haside.workspace]

theorem onWorkspace_eases {β : Type} {f : Workspace Float Binding → β × Workspace Float Binding}
    (hf : ∀ w, Workspace.Wanes w (f w).2) (he : ∀ w, Workspace.Eases moved w (f w).2) :
    (onWorkspace f).Respects (KeepsAlso (Eases moved)) :=
  onWorkspace_respects fun d => passSignals_eases (hf d.workspace) (he d.workspace)

theorem tryWorkspace_eases {β : Type}
    {f : Workspace Float Binding → Except Fault (β × Workspace Float Binding)}
    (hf : ∀ w b w', f w = .ok (b, w') → Workspace.Wanes w w')
    (he : ∀ w b w', f w = .ok (b, w') → Workspace.Eases moved w w') :
    (tryWorkspace f).Respects (KeepsAlso (Eases moved)) :=
  tryWorkspace_respects fun d b w h => passSignals_eases (hf d.workspace b w h)
    (he d.workspace b w h)

theorem attempt_workspace_eases
    {f : Workspace Float Binding → Except Fault (Workspace Float Binding)}
    (hf : ∀ w w', f w = .ok w' → Workspace.Wanes w w')
    (hs : ∀ i w w', f w = .ok w' → Workspace.SlipsAt i w w') :
    (tryWorkspace fun w => return ((), ← f w)).Respects (KeepsAlso (Eases moved)) :=
  attempt_workspace_respects fun d w h => passSignals_eases (hf d.workspace w h)
    (.of_slips (hf d.workspace w h).count fun i => hs i d.workspace w h)

theorem focusPanel_eases (panel : Nat) :
    (focusPanel panel).Respects (KeepsAlso (Eases moved)) :=
  attempt_workspace_eases (fun _ _ => .focus) fun _ _ _ => .focus

theorem removePanel_eases (panel : Nat) :
    (removePanel panel).Respects (KeepsAlso (Eases moved)) :=
  attempt_workspace_eases (fun _ _ => .remove) fun _ _ _ => .remove

theorem finishClosing_eases (panel : Nat) :
    (finishClosing panel).Respects (KeepsAlso (Eases moved)) :=
  attempt_workspace_eases (fun _ _ => .finishClosing) fun _ _ _ => .finishClosing

theorem closingFrame_eases (panel : Nat) (time : Int) :
    (closingFrame panel time).Respects (KeepsAlso (Eases moved)) :=
  tryWorkspace_eases (fun _ _ _ => .closingFrame) fun _ _ _ h =>
    .of_slips (Workspace.Wanes.closingFrame h).count fun _ => .closingFrame h

theorem beginClose_eases (panel : Nat) :
    (onWorkspace (·.beginClose panel)).Respects (KeepsAlso (Eases moved)) :=
  onWorkspace_eases (fun w => .beginClose w panel) fun w =>
    .of_slips (Workspace.Wanes.beginClose w panel).count fun _ => .beginClose w panel

theorem closePanel_eases (panel : Nat) :
    (closePanel panel).Respects (KeepsAlso (Eases moved)) := by
  refine .bind (beginClose_eases panel) fun begins => ?_
  split
  · exact .bind (update_workspace_keeps (fun _ => rfl) (fun _ => rfl) fun _ => rfl) fun _ =>
      add_keeps _
  · exact .pure ()

theorem closeAtOnce_eases (panel : Nat) :
    (Desk.closeAtOnce panel).Respects (KeepsAlso (Eases moved)) :=
  .bind (onWorkspace_eases (fun w => .closeAtOnce w manager panel) fun w =>
    .of_slips (Workspace.Wanes.closeAtOnce w manager panel).count fun _ =>
      .closeAtOnce w manager panel) fun _ => .ofExcept _

theorem toggleByButton_eases (panel : Nat) :
    (toggleByButton panel).Respects (KeepsAlso (Eases moved)) := by
  have htoggle : (togglePanel panel).Respects (KeepsAlso (Eases moved)) :=
    onWorkspace_eases (fun w => .toggleExpanded w panel) fun w =>
      .signalling w panel Panel.moved_toggleExpanded rfl rfl
  refine .bind htoggle fun _ => .bind panelHost_keeps fun host => .bind .get fun d => ?_
  split
  · exact configure_keeps _ _
  · exact .pure ()

theorem renderFrame_eases : renderFrame.Respects (KeepsAlso (Eases moved)) :=
  renderFrame_respects closingFrame_eases finishClosing_eases

theorem addPanel_eases {p : Panel Float Binding} {c : Content} (hfree : p.manager = none)
    (hrest : p.AtRest) (hwidget : c.widget? = none) :
    (addPanel p c).Respects (During Sound (Eases moved)) := by
  intro d h
  rw [App.outcome_addPanel c hfree h.quiet]
  have hpushed : d.workspace.Eases moved (d.workspace.push p) := .push hrest d.workspace
  exact ⟨App.sound_withPanel h hfree hwidget, hpushed.trans (.add (App.add_push c d hfree))⟩

/-- A panel that was removed may be added again. -/
theorem sound_add (h : Sound d) {panel : Nat} {w : Workspace Float Binding}
    (hadd : d.workspace.add manager panel = .ok w) : Sound { d with workspace := w } := by
  obtain ⟨S, hS⟩ := h.arranged
  have hquiet : w.signals = [] := (Workspace.signals_add hadd).trans h.quiet
  have hcount := Workspace.length_add hadd
  unfold Workspace.add at hadd
  split at hadd
  · cases hadd
  next p hp =>
    split at hadd
    · cases hadd
    next hfree =>
      cases hadd
      have hunmanaged : p.manager = none := by simpa using hfree
      refine ⟨⟨_, hS.add h.managed hp hunmanaged⟩, ?_, hquiet, h.contents.trans hcount.symm,
        h.widgets, h.cameras, h.callees⟩
      rw [(Workspace.Fades.raise _ manager panel).managers]
      exact h.managed.trans_eq (List.length_modify ..).symm

def addAgain (panel : Nat) : Effect Desk Unit :=
  tryWorkspace fun w => return ((), ← w.add manager panel)

theorem addAgain_eases (panel : Nat) :
    (addAgain panel).Respects (During Sound (Eases moved)) := by
  refine attempt_workspace_respects fun d w hadd h => ?_
  have hquiet : w.signals = [] := (Workspace.signals_add hadd).trans h.quiet
  rw [App.outcome_passSignals hquiet]
  exact ⟨sound_add h hadd, .add hadd⟩

def Dragged (d : Desk) (i : Nat) : Prop :=
  ∃ p, d.workspace.panel? i = some p ∧ p.isDragging = true

/-- At most one panel is in hand, and none but that is dragged. -/
structure InHand (hand : Option Nat) (d : Desk) : Prop where
  sound : Sound d
  lifted : ∀ i p, d.workspace.panel? i = some p → p.elevated = true → p.gesture = some .move
  only : ∀ i p, d.workspace.panel? i = some p → p.gesture ≠ none →
    hand = some i ∧ p.manager = some manager

/-- Where nothing is begun, no other panel comes into hand. -/
theorem InHand.eases (h : InHand hand d) (hs : Sound d') (he : Eases moved d d') :
    InHand hand d' := by
  refine ⟨hs, fun i q hq hlifted => ?_, fun i q hq hdragged => ?_⟩ <;>
    rcases hp : d.workspace.panel? i with _ | p
  · exact absurd hlifted (Bool.eq_false_iff.mp (he.added i q hp hq).2)
  · obtain ⟨q', hq', heases, -⟩ := he.known i p hp
    obtain rfl := Option.some.inj (hq'.symm.trans hq)
    exact heases.lifted (h.lifted i p hp) hlifted
  · exact absurd (he.added i q hp hq).1 hdragged
  · obtain ⟨q', hq', heases, -⟩ := he.known i p hp
    obtain rfl := Option.some.inj (hq'.symm.trans hq)
    obtain ⟨hbefore, hmanager⟩ := heases.dragged hdragged
    obtain ⟨hhand, hmanaged⟩ := h.only i p hp hbefore
    exact ⟨hhand, hmanager manager hmanaged⟩

theorem InHand.dragged (h : InHand hand d) (hi : d.Dragged i) : hand = some i := by
  obtain ⟨p, hp, hdragging⟩ := hi
  exact (h.only i p hp (by simpa [Panel.isDragging, Option.isSome_iff_ne_none] using hdragging)).1

theorem InHand.atRest (h : InHand none d) {p : Panel Float Binding}
    (hp : d.workspace.panel? i = some p) : p.AtRest := by
  have hgesture : p.gesture = none := by
    by_contra hg
    cases (h.only i p hp hg).1
  refine ⟨hgesture, Bool.eq_false_iff.mpr fun he => ?_⟩
  rw [h.lifted i p hp he] at hgesture
  cases hgesture

theorem panel?_passSignals (h : Sound d) {w : Workspace Float Binding}
    (hw : d.workspace.Wanes w) (i : Nat) :
    (passSignals.outcome { d with workspace := w }).2.workspace.panel? i = w.panel? i := by
  have hpanels : (passSignals.outcome { d with workspace := w }).2.workspace.panels = w.panels :=
    (passSignals_settles h hw).panels
  rw [Workspace.panel?, hpanels, Workspace.panel?]

theorem outcome_onWorkspace {β : Type} (f : Workspace Float Binding → β × Workspace Float Binding)
    (d : Desk) : ((onWorkspace f).outcome d).2 =
      (passSignals.outcome { d with workspace := (f d.workspace).2 }).2 :=
  onWorkspace_respects
    (P := fun d d' => d' = (passSignals.outcome { d with workspace := (f d.workspace).2 }).2)
    (fun _ => rfl) d

theorem panel?_onWorkspace (h : Sound d) {β : Type}
    {f : Workspace Float Binding → β × Workspace Float Binding}
    (hf : ∀ w, Workspace.Wanes w (f w).2) (i : Nat) :
    ((onWorkspace f).outcome d).2.workspace.panel? i = (f d.workspace).2.panel? i := by
  rw [outcome_onWorkspace, panel?_passSignals h (hf d.workspace)]

/-- Where nothing is told, a change of the workspace does not fail. -/
theorem outcome_onWorkspace_quiet {β : Type}
    {f : Workspace Float Binding → β × Workspace Float Binding}
    (hquiet : (f d.workspace).2.signals = []) :
    (onWorkspace f).outcome d =
      (.ok (f d.workspace).1, { d with workspace := (f d.workspace).2 }) := by
  have hchange : (workspacePart.within (Effect.change f)).outcome d =
      (.ok (f d.workspace).1, { d with workspace := (f d.workspace).2 }) := rfl
  have hpass := App.outcome_passSignals (d := { d with workspace := (f d.workspace).2 }) hquiet
  rw [onWorkspace, outcome_bind_ok hchange, outcome_bind_ok hpass, outcome_pure]

/-- What a press takes hold of, where nothing is in hand, stays where it is. -/
def Takes (d d' : Desk) : Prop :=
  InHand none d → ∃ hand, InHand hand d' ∧ (∀ i, hand = some i → d'.Dragged i) ∧
    ∀ i p q, d.workspace.panel? i = some p → d'.workspace.panel? i = some q → q.bounds = p.bounds

theorem takes_of_eases (h : KeepsAlso (Eases none) d d') : Takes d d' := by
  intro hfree
  obtain ⟨hsound, hstays⟩ := h hfree.sound
  refine ⟨none, hfree.eases hsound hstays.also, nofun, fun i p q hp hq => ?_⟩
  obtain ⟨q', hq', -, hbounds⟩ := hstays.also.known i p hp
  obtain rfl := Option.some.inj (hq'.symm.trans hq)
  exact hbounds nofun

/-- One panel is touched, where nothing is in hand. -/
theorem passSignals_takes {w : Workspace Float Binding} {p : Panel Float Binding}
    {touch : Panel.Touch Float} (hp : d.workspace.panel? i = some p)
    (hmanaged : Sound d → p.manager = some manager) (hw : d.workspace.Wanes w)
    (htouched : Workspace.TouchedAt i touch p d.workspace w)
    (hothers : ∀ j, i ≠ j → Workspace.SlipsAt j d.workspace w) (hdrags : touch.drags = false) :
    Takes d (passSignals.outcome { d with workspace := w }).2 := by
  intro hfree
  have hpanel := panel?_passSignals hfree.sound hw
  obtain ⟨hsound, -⟩ := passAll_keeps (Q := Anyhow) (fun _ _ _ => trivial) hw (fun _ => trivial)
    hfree.sound
  obtain ⟨q, told, hq, -, hgoes, hmanager⟩ := htouched.panel
  have hcases (j : Nat) (r : Panel Float Binding)
      (hr : (passSignals.outcome { d with workspace := w }).2.workspace.panel? j = some r) :
      i = j ∧ q = r ∨ r.AtRest ∧ ∀ p, d.workspace.panel? j = some p → r.bounds = p.bounds := by
    rw [hpanel] at hr
    by_cases hij : i = j
    · subst hij
      exact .inl ⟨rfl, Option.some.inj (hq.symm.trans hr)⟩
    · obtain ⟨p, hp, -⟩ := hw.fades j r hr
      obtain ⟨r', _, hr', -, hslips⟩ := (hothers j hij).panel p hp
      obtain rfl := Option.some.inj (hr'.symm.trans hr)
      exact .inr ⟨(hfree.atRest hp).eases hslips.eases, fun p' hp' =>
        Option.some.inj (hp.symm.trans hp') ▸ hslips.bounds⟩
  refine ⟨if q.isDragging then some i else none, ⟨hsound, fun j r hr hlifted => ?_,
    fun j r hr hdragged => ?_⟩, fun j hj => ?_, fun j p' r hp' hr => ?_⟩
  · rcases hcases j r hr with ⟨rfl, rfl⟩ | ⟨hrest, -⟩
    · exact hgoes.lifted_of_atRest (hfree.atRest hp) hlifted
    · exact absurd hlifted (Bool.eq_false_iff.mp hrest.2)
  · rcases hcases j r hr with ⟨rfl, rfl⟩ | ⟨hrest, -⟩
    · exact ⟨if_pos (Option.isSome_iff_ne_none.mpr hdragged), hmanager.trans (hmanaged hfree.sound)⟩
    · exact absurd hrest.1 hdragged
  · split at hj
    next hdragging => exact Option.some.inj hj ▸ ⟨q, (hpanel i).trans hq, hdragging⟩
    next => cases hj
  · rcases hcases j r hr with ⟨rfl, rfl⟩ | ⟨-, hbounds⟩
    · exact Option.some.inj (hp.symm.trans hp') ▸ hgoes.bounds hdrags rfl
    · exact hbounds p' hp'

theorem panelHost_reads : panelHost.Respects Eq := by
  refine .bind .get fun d => ?_
  split
  · exact .pure _
  · exact .throw _

theorem mouseOnWorkspace_reads : mouseOnWorkspace.Respects Eq :=
  .bind .get fun _ => .bind panelHost_reads fun _ => .pure _

theorem Takes.refl (d : Desk) : Takes d d := takes_of_eases (refl_of (KeepsAlso (Eases none)) d)

theorem pressPanels_takes : pressPanels.Respects Takes := by
  refine .reading mouseOnWorkspace_reads Takes.refl fun pointer =>
    .reading panelHost_reads Takes.refl fun host d => ?_
  rw [outcome_bind_ok (outcome_get d)]
  dsimp only
  split
  · exact .refl d
  next i hat =>
    split
    · exact .refl d
    next p hp =>
      have hmanaged (h : Sound d) : p.manager = some manager := by
        obtain ⟨p', hp', hmanager⟩ :=
          (Workspace.mem_members_iff h.arranged).mp (Workspace.mem_of_panelAt hat)
        exact Option.some.inj (hp.symm.trans hp') ▸ hmanager
      split
      · rw [outcome_bind_pure, outcome_onWorkspace]
        exact passSignals_takes hp hmanaged (.beginResize d.workspace i pointer)
          (.beginResize hp pointer) (fun _ hij => .beginResize hij _ pointer) rfl
      · split
        · rw [outcome_onWorkspace]
          exact passSignals_takes hp hmanaged (.beginMove d.workspace i pointer)
            (.beginMove hp pointer) (fun _ hij => .beginMove hij _ pointer) rfl
        · exact takes_of_eases (focusPanel_eases i d)

/-- What is dragged on is the panel in hand. -/
theorem dragPanels_drags (d : Desk) : ∃ moved, (∀ i, moved = some i → d.Dragged i) ∧
    KeepsAlso (Eases moved) d (dragPanels.outcome d).2 := by
  rw [dragPanels, outcome_bind_ok (outcome_get d)]
  split
  · exact ⟨none, nofun, refl_of (KeepsAlso (Eases none)) d⟩
  next i hdragging =>
    refine ⟨some i, fun j hj => ?_, ?_⟩
    · exact Option.some.inj hj ▸ Workspace.dragging_eq_some hdragging
    · refine Respects.bind mouseOnWorkspace_keeps (fun pointer => ?_) d
      exact .bind (tryWorkspace_eases (fun _ _ _ => .moveTo) fun _ _ _ => .moveTo) fun _ =>
        .bind (tryWorkspace_eases (fun _ _ _ => .resizeTo) fun _ _ _ => .resizeTo) fun _ =>
        .pure ()

theorem endMove_eases (panel : Nat) :
    (onWorkspace fun w => ((), w.endMove panel)).Respects (KeepsAlso (Eases moved)) :=
  onWorkspace_eases (fun w => .endMove w panel) fun w =>
    .signalling w panel Panel.moved_endMove rfl rfl

theorem endResize_eases (panel : Nat) :
    (onWorkspace fun w => ((), w.endResize panel)).Respects (KeepsAlso (Eases moved)) :=
  onWorkspace_eases (fun w => .endResize w panel) fun w =>
    .signalling w panel Panel.moved_endResize rfl rfl

theorem releasePanels_eases : releasePanels.Respects (KeepsAlso (Eases moved)) := by
  refine .bind .get fun d => ?_
  split
  · exact .pure ()
  · exact .bind (endMove_eases _) fun _ => endResize_eases _

theorem gesture_release_move (h : Sound d) {p q : Panel Float Binding}
    (hp : d.workspace.panel? i = some p) (hmove : p.gesture = some .move)
    (hq : ((do
      onWorkspace fun w => ((), w.endMove i)
      onWorkspace fun w => ((), w.endResize i) : Effect Desk Unit).outcome
        d).2.workspace.panel? i = some q) : q.gesture = none := by
  have hfirst : ((onWorkspace fun w => ((), w.endMove i)).outcome d).2.workspace.panel? i =
      some p.endMove.1 := by
    rw [panel?_onWorkspace h (fun w => .endMove w i), Workspace.endMove,
      Workspace.panel?_signalling, hp, Option.map_some, if_pos rfl]
  have hended : KeepsAlso (Eases none) d _ := endMove_eases i d
  -- Contents may fail to hear of the end of the move, but nothing is begun after it.
  obtain ⟨-, hrest⟩ := related_rest (P := KeepsAlso (Eases none)) (fun _ => endResize_eases i)
    (onWorkspace fun w => ((), w.endMove i)) d (hended h).1
  obtain ⟨q', hq', heases, -⟩ := hrest.also.known i _ hfirst
  obtain rfl := Option.some.inj (hq'.symm.trans hq)
  by_contra hdragged
  exact (heases.dragged hdragged).1 (by simp [Panel.endMove, hmove])

theorem gesture_release_resize (h : Sound d) {p q : Panel Float Binding}
    (hp : d.workspace.panel? i = some p) (hresize : p.gesture = some .resize)
    (hq : ((do
      onWorkspace fun w => ((), w.endMove i)
      onWorkspace fun w => ((), w.endResize i) : Effect Desk Unit).outcome
        d).2.workspace.panel? i = some q) : q.gesture = none := by
  have hsame : p.endMove = (p, []) := by simp [Panel.endMove, hresize]
  have hquiet : (d.workspace.endMove i).signals = [] := by
    simp [Workspace.endMove, Workspace.signalling, hp, hsame, Workspace.tell,
      Workspace.modifyPanel, h.quiet]
  have hfirst := outcome_onWorkspace_quiet (f := fun w => ((), w.endMove i)) hquiet
  have hended : KeepsAlso (Eases none) d _ := endMove_eases i d
  have hsound := (hended h).1
  rw [hfirst] at hsound
  rw [outcome_bind_ok hfirst, panel?_onWorkspace hsound (fun w => .endResize w i),
    Workspace.endResize, Workspace.panel?_signalling, Workspace.endMove,
    Workspace.panel?_signalling, hp, Option.map_some, Option.map_some, if_pos rfl, if_pos rfl,
    hsame] at hq
  obtain rfl := Option.some.inj hq
  simp [Panel.endResize, hresize]

/-- A release ends what the panel is dragged for, a move or a resize. -/
theorem gesture_releasePanels (h : Sound d) (hi : d.workspace.dragging manager = some i)
    {q : Panel Float Binding}
    (hq : (releasePanels.outcome d).2.workspace.panel? i = some q) : q.gesture = none := by
  obtain ⟨p, hp, hdragging⟩ := Workspace.dragging_eq_some hi
  obtain ⟨g, hg⟩ := Option.isSome_iff_exists.mp hdragging
  rw [releasePanels, outcome_bind_ok (outcome_get d)] at hq
  simp only [hi] at hq
  cases g with
  | move => exact gesture_release_move h hp hg hq
  | resize => exact gesture_release_resize h hp hg hq

/-- After a release nothing is in hand. -/
theorem InHand.release (h : InHand hand d) : InHand none (releasePanels.outcome d).2 := by
  have hreleased : KeepsAlso (Eases none) d _ := releasePanels_eases d
  obtain ⟨hsound, hstays⟩ := hreleased h.sound
  have hafter := h.eases hsound hstays.also
  refine ⟨hsound, hafter.lifted, fun i q hq hdragged => absurd ?_ hdragged⟩
  cases hp : d.workspace.panel? i with
  | none => exact (hstays.also.added i q hp hq).1
  | some p =>
    obtain ⟨q', hq', heases, -⟩ := hstays.also.known i p hp
    obtain rfl := Option.some.inj (hq'.symm.trans hq)
    obtain ⟨hbefore, -⟩ := heases.dragged hdragged
    obtain ⟨hhand, hmanager⟩ := h.only i p hp hbefore
    have hmember := (Workspace.mem_members_iff h.sound.arranged).mpr ⟨p, hp, hmanager⟩
    cases hfirst : d.workspace.dragging manager with
    | none => exact absurd (Workspace.dragging_eq_none hfirst hmember hp) hbefore
    | some j =>
      have hj := h.dragged (Workspace.dragging_eq_some hfirst)
      obtain rfl := Option.some.inj (hhand.symm.trans hj)
      exact gesture_releasePanels h.sound hfirst hq

inductive HandAction where
  | add (p : Panel Float Binding) (c : Content)
  | addAgain (panel : Nat)
  | focus (panel : Nat)
  | remove (panel : Nat)
  | close (panel : Nat)
  | closeAtOnce (panel : Nat)
  | toggle (panel : Nat)
  | mouse (position : Point Float)
  | press
  | drag
  | release
  | clock (time : Int)
  | frame

inductive ButtonAction where
  | press
  | release
  deriving DecidableEq

namespace HandAction

def effect : HandAction → Effect Desk Unit
  | .add p c => do let _ ← addPanel p c
  | .addAgain panel => Desk.addAgain panel
  | .focus panel => focusPanel panel
  | .remove panel => removePanel panel
  | .close panel => closePanel panel
  | .closeAtOnce panel => Desk.closeAtOnce panel
  | .toggle panel => toggleByButton panel
  | .mouse position => toolkitPart.update (Gui.setMouse · position)
  | .press => pressPanels
  | .drag => dragPanels
  | .release => releasePanels
  | .clock time => modify fun d => { d with clock := time }
  | .frame => renderFrame

def button? : HandAction → Option ButtonAction
  | .press => some .press
  | .release => some .release
  | _ => none

/-- Panels that are added are nowhere else, and their contents are not built yet. -/
def Allowed : HandAction → Prop
  | .add p c => p.manager = none ∧ p.AtRest ∧ c.widget? = none
  | _ => True

/-- But for presses nothing is begun, and but for the panel that is dragged nothing is moved or
resized. -/
theorem eases {a : HandAction} (ha : a.Allowed) (hpress : a ≠ .press) (d : Desk) :
    ∃ moved, (∀ i, moved = some i → a = .drag ∧ d.Dragged i) ∧
      During Sound (Eases moved) d (a.effect.outcome d).2 := by
  have hkeeps {e : Effect Desk Unit} (he : e.Respects (KeepsAlso (Eases none))) :
      ∃ moved, (∀ i, moved = some i → a = .drag ∧ d.Dragged i) ∧
        During Sound (Eases moved) d (e.outcome d).2 :=
    ⟨none, nofun, fun h => ⟨(he d h).1, (he d h).2.also⟩⟩
  cases a with
  | add p c =>
    obtain ⟨hfree, hrest, hwidget⟩ := ha
    exact ⟨none, nofun, Respects.bind (addPanel_eases hfree hrest hwidget) (fun _ => .pure ()) d⟩
  | addAgain panel => exact ⟨none, nofun, addAgain_eases panel d⟩
  | focus panel => exact hkeeps (focusPanel_eases panel)
  | remove panel => exact hkeeps (removePanel_eases panel)
  | close panel => exact hkeeps (closePanel_eases panel)
  | closeAtOnce panel => exact hkeeps (closeAtOnce_eases panel)
  | toggle panel => exact hkeeps (toggleByButton_eases panel)
  | mouse position => exact hkeeps (update_toolkit_keeps _)
  | press => exact absurd rfl hpress
  | drag =>
    obtain ⟨moved, hmoved, hkept⟩ := dragPanels_drags d
    exact ⟨moved, fun i hi => ⟨rfl, hmoved i hi⟩, fun h => ⟨(hkept h).1, (hkept h).2.also⟩⟩
  | release => exact hkeeps releasePanels_eases
  | clock time => exact hkeeps fun _ => keeps_aside rfl rfl rfl rfl rfl
  | frame => exact hkeeps renderFrame_eases

end HandAction

/-- The desk after what is done, also if something fails. -/
def handledBy (d : Desk) (actions : List HandAction) : Desk :=
  actions.foldl (fun d a => (a.effect.outcome d).2) d

/-- The last press took hold of a panel, and the button has not been released since. -/
def Grasped (d : Desk) (actions : List HandAction) (i : Nat) : Prop :=
  ∃ before since, actions = before ++ .press :: since ∧ (∀ a ∈ since, a.button? = none) ∧
    ¬ (d.handledBy before).Dragged i ∧ (d.handledBy (before ++ [.press])).Dragged i

variable {actions : List HandAction} {a : HandAction}

theorem handledBy_concat (d : Desk) (actions : List HandAction) (a : HandAction) :
    d.handledBy (actions ++ [a]) = (a.effect.outcome (d.handledBy actions)).2 := by
  simp [handledBy]

theorem Grasped.concat (h : d.Grasped actions i) (ha : a.button? = none) :
    d.Grasped (actions ++ [a]) i := by
  obtain ⟨before, since, rfl, hsince, hnot, hdragged⟩ := h
  refine ⟨before, since ++ [a], by simp, fun b hb => ?_, hnot, hdragged⟩
  rcases List.mem_append.mp hb with hb | hb
  · exact hsince b hb
  · exact List.mem_singleton.mp hb ▸ ha

def InTurns (actions : List HandAction) : Prop :=
  (actions.filterMap HandAction.button?).IsChain (· ≠ ·)

omit [Platform] in
theorem InTurns.left {more : List HandAction} (h : InTurns (actions ++ more)) :
    InTurns actions := by
  rw [InTurns, List.filterMap_append] at h
  exact h.left_of_append

theorem Grasped.not_pressed (h : d.Grasped actions i) : ¬ InTurns (actions ++ [.press]) := by
  obtain ⟨before, since, rfl, hsince, -, -⟩ := h
  have hnothing : since.filterMap HandAction.button? = [] := List.filterMap_eq_nil_iff.mpr hsince
  intro hturns
  simp only [InTurns, List.append_assoc, List.cons_append, List.filterMap_append,
    List.filterMap_cons, HandAction.button?, hnothing, List.nil_append, List.filterMap_nil,
    List.isChain_append_cons_cons] at hturns
  exact hturns.2.1 rfl

/-- What is in hand in the course of a run was taken by the last press. -/
def Follows (d : Desk) (actions : List HandAction) (hand : Option Nat) : Prop :=
  InHand hand (d.handledBy actions) ∧ ∀ i, hand = some i → d.Grasped actions i

theorem Follows.free (h : d.Follows actions hand) (hturns : InTurns (actions ++ [a]))
    (ha : a = .press) : hand = none := by
  subst ha
  cases hand with
  | none => rfl
  | some i => exact absurd hturns (h.2 i rfl).not_pressed

/-- What is in hand after one more action. -/
theorem Follows.concat (h : d.Follows actions hand) (ha : a.Allowed)
    (hturns : InTurns (actions ++ [a])) : ∃ hand, d.Follows (actions ++ [a]) hand := by
  have hfree := h.free hturns
  obtain ⟨hbefore, hgrasped⟩ := h
  simp only [Follows, handledBy_concat]
  by_cases hpress : a = .press
  · obtain rfl := hfree hpress
    subst hpress
    obtain ⟨hand, hafter, hdragged, -⟩ := pressPanels_takes _ hbefore
    refine ⟨hand, hafter, fun i hi => ⟨actions, [], rfl, by simp, fun hi' => ?_, ?_⟩⟩
    · cases hbefore.dragged hi'
    · rw [handledBy_concat]
      exact hdragged i hi
  · by_cases hrelease : a = .release
    · subst hrelease
      exact ⟨none, hbefore.release, nofun⟩
    · have hbutton : a.button? = none := by
        cases a with
        | press => exact absurd rfl hpress
        | release => exact absurd rfl hrelease
        | _ => rfl
      obtain ⟨moved, -, heases⟩ := HandAction.eases ha hpress (d.handledBy actions)
      obtain ⟨hsound, hkept⟩ := heases hbefore.sound
      exact ⟨hand, hbefore.eases hsound hkept, fun i hi => (hgrasped i hi).concat hbutton⟩

theorem follows (h : InHand none d) (hallowed : ∀ a ∈ actions, a.Allowed)
    (hturns : InTurns actions) : ∃ hand, d.Follows actions hand := by
  induction actions using List.reverseRecOn with
  | nil => exact ⟨none, h, nofun⟩
  | append_singleton actions a ih =>
    obtain ⟨hand, hfollows⟩ := ih (fun b hb => hallowed b (List.mem_append_left _ hb)) hturns.left
    exact hfollows.concat (hallowed a (by simp)) hturns

/-- No panel is moved or resized but the one that is dragged. -/
theorem InHand.bounds (h : InHand hand d) (ha : a.Allowed) (hfree : a = .press → hand = none)
    {p q : Panel Float Binding} (hp : d.workspace.panel? i = some p)
    (hq : (a.effect.outcome d).2.workspace.panel? i = some q) (hne : q.bounds ≠ p.bounds) :
    a = .drag ∧ d.Dragged i := by
  by_cases hpress : a = .press
  · obtain rfl := hfree hpress
    subst hpress
    obtain ⟨-, -, -, hbounds⟩ := pressPanels_takes d h
    exact absurd (hbounds i p q hp hq) hne
  · obtain ⟨moved, hmoved, heases⟩ := HandAction.eases ha hpress d
    obtain ⟨q', hq', -, hbounds⟩ := (heases h.sound).2.known i p hp
    obtain rfl := Option.some.inj (hq'.symm.trans hq)
    exact hmoved i (not_not.mp fun hi => hne (hbounds hi))

theorem inHand_start (grid stage : Float) (origin : Point Float) (buttonWidth handleSize : Float) :
    InHand none (HostRun.start grid stage origin buttonWidth handleSize).desk := by
  have hempty : InHand none (Desk.empty (.make grid stage)) := by
    refine ⟨sound_empty grid stage, fun i p hp => ?_, fun i p hp => ?_⟩
    all_goals simp [Workspace.panel?, Desk.empty, Workspace.make] at hp
  obtain ⟨hsound, hstays⟩ := makeHost_keeps (Q := Eases none) origin buttonWidth handleSize
    (Desk.empty (.make grid stage)) hempty.sound
  exact hempty.eases hsound hstays.also

/-- Whatever is done with panels while the button is pressed and released in turns, at most one
panel is dragged at any time. What is moved or resized is the panel that is dragged, by a move of
the mouse after the press that took hold of it and before the next release; and after every release
all panels are at rest. -/
theorem dragged_in_turns (grid stage : Float) (origin : Point Float)
    (buttonWidth handleSize : Float) {actions : List HandAction}
    (hallowed : ∀ a ∈ actions, a.Allowed) (hturns : InTurns actions) :
    let d := (HostRun.start grid stage origin buttonWidth handleSize).desk
    (∀ before after, actions = before ++ after → ∀ i j,
      (d.handledBy before).Dragged i → (d.handledBy before).Dragged j → i = j) ∧
    (∀ before a after, actions = before ++ a :: after → ∀ i p q,
      (d.handledBy before).workspace.panel? i = some p →
      (d.handledBy (before ++ [a])).workspace.panel? i = some q → q.bounds ≠ p.bounds →
      a = .drag ∧ (d.handledBy before).Dragged i ∧ d.Grasped before i) ∧
    ∀ before after, actions = before ++ .release :: after → ∀ i p,
      (d.handledBy (before ++ [.release])).workspace.panel? i = some p → p.AtRest := by
  intro d
  have hfollows (before after : List HandAction) (h : actions = before ++ after) :
      ∃ hand, d.Follows before hand := by
    subst h
    exact follows (inHand_start ..) (fun a ha => hallowed a (List.mem_append_left _ ha))
      hturns.left
  refine ⟨fun before after h i j hi hj => ?_, fun before a after h i p q hp hq hne => ?_,
    fun before after h i p hp => ?_⟩
  · obtain ⟨hand, hinhand, -⟩ := hfollows before after h
    exact Option.some.inj ((hinhand.dragged hi).symm.trans (hinhand.dragged hj))
  · obtain ⟨hand, hfollow⟩ := hfollows before (a :: after) h
    have ha : a.Allowed := hallowed a (by simp [h])
    have hnow : InTurns (before ++ [a]) := by
      rw [h, List.append_cons] at hturns
      exact hturns.left
    rw [handledBy_concat] at hq
    obtain ⟨rfl, hdragged⟩ := hfollow.1.bounds ha (hfollow.free hnow) hp hq hne
    exact ⟨rfl, hdragged, hfollow.2 i (hfollow.1.dragged hdragged)⟩
  · obtain ⟨hand, hinhand, -⟩ := hfollows before (.release :: after) h
    rw [handledBy_concat] at hp
    exact hinhand.release.atRest hp

omit [Platform] in
/-- A panel is dragged by its title to the next point of the grid, and let go. -/
theorem drags_recording :
    letI : Platform := .simulated id
    let p : Panel Float Binding := .make "log" 0 0 200 100 true 20 60 40
    let actions : List HandAction := [.add p .recording, .mouse ⟨100, 30⟩, .press,
      .mouse ⟨125, 35⟩, .drag, .release]
    let d := (HostRun.start 20 0.5 ⟨0, 24⟩ 20 12).desk
    (∀ a ∈ actions, a.Allowed) ∧ InTurns actions ∧
      ((d.handledBy (actions.take 5)).workspace.panel? 0).any (fun q =>
        q.x == 20 && q.y == 0 && q.elevated) = true ∧
      ∀ q, (d.handledBy actions).workspace.panel? 0 = some q → q.AtRest := by
  let _ : Platform := .simulated id
  intro p actions d
  have hallowed : ∀ a ∈ actions, a.Allowed := by
    simp only [actions, List.forall_mem_cons]
    exact ⟨⟨rfl, ⟨rfl, rfl⟩, rfl⟩, trivial, trivial, trivial, trivial, trivial, by simp⟩
  have hturns : InTurns actions := by
    change List.IsChain (· ≠ ·) [ButtonAction.press, .release]
    decide
  obtain ⟨-, -, hrests⟩ := dragged_in_turns 20 0.5 ⟨0, 24⟩ 20 12 hallowed hturns
  exact ⟨hallowed, hturns, by decide +kernel, hrests (actions.take 5) [] rfl 0⟩

end Desk

end DebugDesk
