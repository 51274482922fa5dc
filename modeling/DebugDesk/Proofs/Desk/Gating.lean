import DebugDesk.Desk.Host
import DebugDesk.Proofs.Desk.Backstage
import DebugDesk.Proofs.Desk.Tending

/-!
# Gates for input

Once per frame every managed content that takes input is told whether it does: only the panel under
the mouse, and none while a panel is dragged. A content that is destroyed takes no input any more.
-/
namespace DebugDesk

namespace Desk

open Effect

variable [Platform]

def Content.hears : Content → Bool
  | .recording => true
  | .graph c => c.widget.isSome
  | _ => false

def hears (d : Desk) (panel : Nat) : Bool := (d.contents[panel]?).any Content.hears

/-- The panel that is to take input: the one under the mouse, unless a panel is dragged. -/
def inputPanel (d : Desk) (host : PanelHost) : Option Nat :=
  match d.workspace.dragging manager with
  | some _ => none
  | none => d.workspace.panelAt manager
    ⟨(Gui.mouse d.toolkit).x - host.origin.x, (Gui.mouse d.toolkit).y - host.origin.y⟩

variable {d d' : Desk} {panel i w : Nat} {host : PanelHost}

theorem input?_of_not_hears (h : d.hears panel = false) : d.input? panel = none := by
  unfold hears at h
  unfold input?
  rcases hc : d.contents[panel]? with _ | c
  · rfl
  rw [hc, Option.any_some] at h
  cases c with
  | recording => cases h
  | graph c =>
    have hw : c.widget = none := by simpa [Content.hears] using h
    simp [hw]
  | _ => rfl

theorem outcome_panelHost (h : d.host = some host) : panelHost.outcome d = (.ok host, d) := by
  rw [panelHost, outcome_bind_ok (outcome_get d)]
  simp only [h]
  rfl

theorem outcome_panelForInput (h : d.host = some host) :
    panelForInput.outcome d = (.ok (d.inputPanel host), d) := by
  have hmouse : mouseOnWorkspace.outcome d = (.ok
      ⟨(Gui.mouse d.toolkit).x - host.origin.x, (Gui.mouse d.toolkit).y - host.origin.y⟩, d) := by
    rw [mouseOnWorkspace, outcome_bind_ok (outcome_get d), outcome_bind_ok (outcome_panelHost h)]
    rfl
  rw [panelForInput, outcome_bind_ok (outcome_get d), inputPanel]
  cases hdrag : d.workspace.dragging manager with
  | some panel => simp only [hdrag, outcome_pure]
  | none =>
    simp only [hdrag]
    rw [outcome_bind_ok hmouse]
    rfl

theorem input?_of_not_hears_content {c : Content} (hc : d.contents[panel]? = some c)
    (h : c.hears = false) : d.input? panel = none :=
  input?_of_not_hears (by simp [hears, hc, h])

/-- A content that was put in the place of another takes no input if it cannot. -/
theorem input?_setContent {c : Content} (h : c.hears = false) {r : Except Fault Unit}
    (hset : (setContent panel c).outcome d = (r, d')) : d'.input? panel = none := by
  obtain ⟨-, rfl⟩ := Prod.mk.inj hset
  refine input?_of_not_hears ?_
  change ((d.contents.set panel c)[panel]?).any Content.hears = false
  rw [List.getElem?_set]
  split
  · split
    · exact h
    · rfl
  next hne => exact absurd rfl hne

/-- A content that was destroyed takes no input. -/
theorem destroyContent_hushes (h : Sound d) (panel : Nat) :
    ((destroyContent panel).outcome d).2.input? panel = none := by
  have hok : Succeeds (destroyContent panel) d := destroyContent_succeeds h panel
  rcases hd : (destroyContent panel).outcome d with ⟨r, d'⟩
  rw [Succeeds, hd] at hok
  obtain rfl : r = .ok () := hok
  rw [destroyContent, outcome_bind_ok (outcome_contentOf panel d)] at hd
  rcases hc : d.contents[panel]? with _ | c <;> rw [hc] at hd
  · obtain ⟨-, rfl⟩ := Prod.mk.inj hd
    exact input?_of_not_hears (by simp [hears, hc])
  rw [Option.getD_some] at hd
  cases c with
  | nothing =>
    obtain ⟨-, rfl⟩ := Prod.mk.inj hd
    exact input?_of_not_hears_content hc rfl
  | recording =>
    obtain ⟨-, rfl⟩ := Prod.mk.inj hd
    simp [input?, hc, Event.input?]
  | graph c =>
    obtain ⟨_, d₁, -, hset⟩ := of_bind_ok hd
    exact input?_setContent rfl hset
  | clock c =>
    obtain ⟨_, d₁, hcancel, hd⟩ := of_bind_ok hd
    split at hd
    · obtain ⟨_, d₂, -, hset⟩ := of_bind_ok hd
      exact input?_setContent rfl hset
    · obtain ⟨-, rfl⟩ := Prod.mk.inj hcancel
      obtain ⟨-, rfl⟩ := Prod.mk.inj hd
      exact input?_of_not_hears_content hc rfl
  | log c =>
    obtain ⟨_, d₁, hcancel, hd⟩ := of_bind_ok hd
    split at hd
    · obtain ⟨_, d₂, -, hset⟩ := of_bind_ok hd
      exact input?_setContent rfl hset
    · obtain ⟨-, rfl⟩ := Prod.mk.inj hcancel
      obtain ⟨-, rfl⟩ := Prod.mk.inj hd
      exact input?_of_not_hears_content hc rfl

variable [LawfulGui Platform.Toolkit Handler]

/-- A content is told whether it takes input. -/
structure Gates (panel : Nat) (flag : Bool) (d d' : Desk) : Prop where
  stocked : Stocked d'
  toolkit : d'.toolkit = d.toolkit
  host : d'.host = d.host
  workspace : d'.workspace = d.workspace
  contents : d'.contents = d.contents
  inputs : ∀ i, d'.input? i = if i = panel ∧ d.hears i then some flag else d.input? i

theorem Gates.deaf (h : Stocked d) (hd : d.hears panel = false) (flag : Bool) :
    Gates panel flag d d := by
  refine ⟨h, rfl, rfl, rfl, rfl, fun i => ?_⟩
  split
  next hi =>
    obtain ⟨rfl, hhears⟩ := hi
    cases hd.symm.trans hhears
  · rfl

theorem gates_record (h : Stocked d) (hc : d.contents[panel]? = some .recording) (flag : Bool) :
    Gates panel flag d { d with events := d.events ++ [.input panel flag] } := by
  refine ⟨⟨h.inOrder, h.widgets, h.items, h.owned⟩, rfl, rfl, rfl, rfl, fun i => ?_⟩
  by_cases hi : i = panel
  · subst hi
    have hhears : d.hears i = true := by simp [hears, hc, Content.hears]
    rw [if_pos ⟨rfl, hhears⟩]
    simp [input?, hc, Event.input?]
  · rw [if_neg fun hboth => hi hboth.1, input?, input?]
    simp [Event.input?, Ne.symm hi]

theorem gates_widget (h : Stocked d) {c : GraphContent}
    (hc : d.contents[panel]? = some (.graph c)) (hw : c.widget = some w) (flag : Bool) :
    Gates panel flag d { d with
      widgets := d.widgets.modify w fun x => { x with inputEnabled := flag } } := by
  refine ⟨h.widget w fun _ => rfl, rfl, rfl, rfl, rfl, fun i => ?_⟩
  obtain ⟨x, hx, hpanel⟩ := h.owned panel _ hc w hw
  by_cases hi : i = panel
  · subst hi
    have hhears : d.hears i = true := by simp [hears, hc, Content.hears, hw]
    rw [if_pos ⟨rfl, hhears⟩]
    simp [input?, hc, hw, hx]
  -- The widget belongs to this panel, so no other content has it.
  · rw [if_neg fun hboth => hi hboth.1, input?, input?]
    dsimp only
    rcases hc' : d.contents[i]? with _ | c'
    · rfl
    cases c' with
    | graph c' =>
      cases hw' : c'.widget with
      | none => simp [hw']
      | some w' =>
        obtain ⟨x', hx', hpanel'⟩ := h.owned i _ hc' w' hw'
        have hne : w ≠ w' := by
          rintro rfl
          obtain rfl := Option.some.inj (hx.symm.trans hx')
          exact hi (Option.some.inj (hpanel'.symm.trans hpanel))
        simp [hw', hne]
    | _ => rfl

theorem enableContent_gates (h : Stocked d) (panel : Nat) (flag : Bool) :
    ∃ d', (enableContent panel flag).outcome d = (.ok (), d') ∧ Gates panel flag d d' := by
  rw [enableContent, outcome_bind_ok (outcome_contentOf panel d)]
  rcases hc : d.contents[panel]? with _ | c
  · exact ⟨d, rfl, .deaf h (by simp [hears, hc]) flag⟩
  rw [Option.getD_some]
  cases c with
  | recording => exact ⟨_, rfl, gates_record h hc flag⟩
  | graph c =>
    cases hw : c.widget with
    | none =>
      refine ⟨d, ?_, .deaf h (by simp [hears, hc, Content.hears, hw]) flag⟩
      simp only [onWidget, hw]
      rfl
    | some w =>
      refine ⟨_, ?_, gates_widget h hc hw flag⟩
      simp only [onWidget, hw]
      rfl
  | _ => exact ⟨d, rfl, .deaf h (by simp [hears, hc, Content.hears]) flag⟩

/-- All contents of a list are told whether they take input. -/
structure GatesAll (panels : List Nat) (flag : Nat → Bool) (d d' : Desk) : Prop where
  stocked : Stocked d'
  toolkit : d'.toolkit = d.toolkit
  host : d'.host = d.host
  workspace : d'.workspace = d.workspace
  contents : d'.contents = d.contents
  inputs : ∀ i, d'.input? i = if i ∈ panels ∧ d.hears i then some (flag i) else d.input? i

theorem forM_enableContent (flag : Nat → Bool) (panels : List Nat) (h : Stocked d) :
    ∃ d', (panels.forM fun i => enableContent i (flag i)).outcome d = (.ok (), d') ∧
      GatesAll panels flag d d' := by
  induction panels generalizing d with
  | nil => exact ⟨d, rfl, h, rfl, rfl, rfl, rfl, fun i => by simp⟩
  | cons j rest ih =>
    obtain ⟨d₁, hfirst, hgates⟩ := enableContent_gates h j (flag j)
    obtain ⟨d', hrest, hall⟩ := ih hgates.stocked
    refine ⟨d', ?_, hall.stocked, hall.toolkit.trans hgates.toolkit,
      hall.host.trans hgates.host, hall.workspace.trans hgates.workspace,
      hall.contents.trans hgates.contents, fun i => ?_⟩
    · rw [forM_cons, outcome_bind_ok hfirst, hrest]
    · have hhears : d₁.hears i = d.hears i := by rw [hears, hears, hgates.contents]
      rw [hall.inputs, hgates.inputs, hhears]
      by_cases hi : i = j
      · subst hi
        by_cases hd : d.hears i <;> simp [hd]
      · simp [hi]

theorem gateInput_gates (h : Stocked d) (hh : d.host = some host) :
    ∃ d', gateInput.outcome d = (.ok (), d') ∧
      GatesAll (d.workspace.members manager) (fun i => d.inputPanel host = some i) d d' := by
  obtain ⟨d', hall, hgates⟩ := forM_enableContent (fun i => decide (d.inputPanel host = some i))
    (d.workspace.members manager) h
  refine ⟨d', ?_, hgates⟩
  rw [gateInput, outcome_bind_ok (outcome_panelForInput hh), outcome_bind_ok (outcome_get d), hall]

end Desk

end DebugDesk
