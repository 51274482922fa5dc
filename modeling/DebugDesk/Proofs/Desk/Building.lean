import DebugDesk.Proofs.Desk.Backstage
import DebugDesk.Proofs.Desk.Contents
import DebugDesk.Proofs.Desk.Tending

/-!
# Building contents

What a content needs in order to be built: a graph needs a body of some size and a camera for it,
and a clock the time of day. Nothing else that is done to build contents and windows can fail.
-/
namespace DebugDesk

namespace Desk

open Effect

variable [Platform]

/-- Whether a content can be built for a panel at a time. -/
def Content.CanBuild (p : Panel Float Binding) (time : Int) : Content → Prop
  | .graph c => ∃ size camera, graphSize c p.width p.bodyHeight = .ok size ∧
      Camera.make size.1 size.2 c.settings.camera = .ok camera
  | .clock _ => ∃ seconds text, (TimeOfDay.secondsOfNanos time : Except Fault Float) = .ok seconds ∧
      TimeOfDay.text Platform.zone seconds = .ok text
  | _ => True

variable {d d' : Desk} {β γ : Type} {panel : Nat} {p : Panel Float Binding}

def Total (e : Effect Desk β) : Prop := ∀ d, ∃ b d', e.outcome d = (.ok b, d')

theorem Total.pure (b : β) : Total (Pure.pure b) := fun d => ⟨b, d, rfl⟩

theorem Total.bind {e : Effect Desk β} {f : β → Effect Desk γ} (he : Total e)
    (hf : ∀ b, Total (f b)) : Total (e >>= f) := by
  intro d
  obtain ⟨b, d₁, h₁⟩ := he d
  obtain ⟨c, d₂, h₂⟩ := hf b d₁
  exact ⟨c, d₂, by rw [outcome_bind_ok h₁, h₂]⟩

theorem Total.forM {α : Type} {f : α → Effect Desk Unit} (l : List α) (hf : ∀ a, Total (f a)) :
    Total (l.forM f) := by
  induction l with
  | nil => exact .pure ()
  | cons a l ih =>
    rw [forM_cons]
    exact .bind (hf a) fun _ => ih

variable {kind function : String} {arguments : List Toolkit.Value} {options : Toolkit.Options}

theorem make_total {callback : Option Handler} : Total (make kind arguments options callback) :=
  fun _ => ⟨_, _, rfl⟩

theorem makeActive_total {callback : Handler} : Total (makeActive kind options callback) :=
  make_total

theorem makeAround_total {inside : Effect Desk β} (hin : Total inside) :
    Total (makeAround kind arguments options inside) := by
  refine .bind make_total fun _ => .bind (fun _ => ⟨_, _, rfl⟩) fun _ d => ?_
  obtain ⟨b, d', h⟩ := hin d
  rw [outcome_bind_ok (outcome_attempt inside d), h]
  exact ⟨_, _, rfl⟩

theorem call_total : Total (call function arguments) := fun _ => ⟨_, _, rfl⟩

theorem setContent_total (c : Content) : Total (setContent panel c) := fun _ => ⟨_, _, rfl⟩

theorem makeWidget_succeeds {parent : String} {tag : Option String} {width height : Float}
    {settings : WidgetSettings} {camera : Camera Float}
    (hcamera : Camera.make width height settings.camera = .ok camera) (panel : Option Nat) :
    Total (makeWidget parent tag width height settings panel) := by
  unfold makeWidget
  rw [hcamera]
  refine .bind make_total fun _ => .bind make_total fun _ => .bind (.pure camera) fun _ =>
    .bind (fun d => ⟨d, d, rfl⟩) fun _ => .bind (makeAround_total ?_) fun _ =>
    .bind (fun _ => ⟨_, _, rfl⟩) fun _ => .bind (fun _ => ⟨_, _, rfl⟩) fun _ => .pure _
  exact .bind makeActive_total fun _ => .bind makeActive_total fun _ =>
    .bind makeActive_total fun _ => makeActive_total

/-- A content was built: a graph has its widget. -/
def Built (d : Desk) (panel : Nat) : Prop :=
  ∀ c, d.contents[panel]? = some (.graph c) → c.widget.isSome

theorem built_set {cs : List Content} {w : Nat} {settings : GraphContent}
    (hw : settings.widget = some w) (hd : d.contents = cs.set panel (.graph settings)) :
    Built d panel := by
  intro c hc
  rw [hd, List.getElem?_set] at hc
  split at hc
  · split at hc
    · cases hc
      rw [hw]
      rfl
    · cases hc
  next hne => exact absurd rfl hne

theorem buildGraph_succeeds (h : Sound d) {c : GraphContent}
    (hc : (Content.graph c).CanBuild p d.clock) (parent : String) :
    ∃ d', (buildGraph panel c p parent).outcome d = (.ok (), d') ∧ Built d' panel := by
  obtain ⟨size, camera, hsize, hcamera⟩ := hc
  have hbuttons : Total (makeAround "group" []
      [("horizontal", .flag true), ("parent", .text parent)] do
      let _ ← makeActive "add_button" [("label", .text "Recenter")] (.recenter panel)
      makeActive "add_button" [("label", .text "Zoom to fit")] (.zoomToFit panel)) :=
    makeAround_total (.bind makeActive_total fun _ => makeActive_total)
  have hkeep : (makeAround "group" []
      [("horizontal", .flag true), ("parent", .text parent)] do
      let _ ← makeActive "add_button" [("label", .text "Recenter")] (.recenter panel)
      makeActive "add_button" [("label", .text "Zoom to fit")] (.zoomToFit panel)).Respects Keeps :=
    makeAround_keeps _ _ _ (.bind (makeActive_keeps _ _ _) fun _ => makeActive_keeps _ _ _)
  obtain ⟨_, d₁, h₁⟩ := hbuttons d
  have hsound₁ := (hkeep.of_outcome h₁ h).1
  have hsized : (Effect.ofExcept (graphSize c p.width p.bodyHeight)).outcome d₁ =
      (.ok size, d₁) := by rw [hsize, outcome_ofExcept]
  have hwidget : Total (makeWidget parent none size.1 size.2 c.settings (some panel)) :=
    makeWidget_succeeds hcamera (some panel)
  obtain ⟨w, d₂, h₂⟩ := hwidget d₁
  have hsound₂ := ((makeWidget_keeps (Q := Anyhow) _ _ _ _ _ _).of_outcome h₂ hsound₁).1
  obtain ⟨x, hx, -⟩ := makeWidget_made h₂
  have hset : (setContent panel (.graph { c with widget := some w })).outcome d₂ = (.ok (),
      { d₂ with contents := d₂.contents.set panel (.graph { c with widget := some w }) }) := rfl
  rw [buildGraph, outcome_bind_ok h₁, outcome_bind_ok hsized, outcome_bind_ok h₂,
    outcome_bind_ok hset]
  split
  next graph _ =>
    obtain ⟨view, -, hshow⟩ := showInWidget (d := { d₂ with
      contents := d₂.contents.set panel (.graph { c with widget := some w }) }) hx
      (hsound₂.cameras x (List.mem_of_getElem? hx)) graph
    exact ⟨_, hshow, built_set rfl rfl⟩
  · exact ⟨_, rfl, built_set rfl rfl⟩

theorem Sound.built (h : Sound d) (hk : Keeps d d') {c : Content}
    (hc : d.contents[panel]? = some c) (hg : c.isGraph = false) : Built d' panel := by
  intro c' hc'
  have hkind := (hk h).2.kinds panel
  rw [hc, hc', Option.map_some, Option.map_some, hg] at hkind
  cases hkind

theorem buildClock_succeeds {c : ClockContent} (hc : (Content.clock c).CanBuild p d.clock)
    (parent : String) : ∃ d', (buildClock panel c parent).outcome d = (.ok (), d') := by
  obtain ⟨s, text, hseconds, htext⟩ := hc
  have htime : timeOfDay.outcome d = (.ok text, d) := by
    have hs : seconds.outcome d = (.ok s, d) := by
      rw [seconds, outcome_bind_ok (outcome_get d), hseconds, outcome_ofExcept]
    rw [timeOfDay, outcome_bind_ok hs, htext, outcome_ofExcept]
  rw [buildClock, outcome_bind_ok htime]
  exact ⟨_, rfl⟩

theorem buildLog_total (parent : String) : Total (buildLog panel parent) :=
  .bind make_total fun _ => .bind make_total fun _ =>
    .bind (.forM _ fun _ => .bind make_total fun _ => .pure ()) fun _ =>
    .bind make_total fun _ => .bind (setContent_total _) fun _ => fun _ => ⟨_, _, rfl⟩

theorem buildContent_succeeds (h : Sound d)
    (hc : ∀ c, d.contents[panel]? = some c → c.CanBuild p d.clock) (parent : String) :
    ∃ d', (buildContent panel p parent).outcome d = (.ok (), d') ∧ Built d' panel := by
  have hkeep := buildContent_keeps (Q := Anyhow) panel p parent d
  rw [buildContent, outcome_bind_ok (outcome_contentOf panel d)] at hkeep ⊢
  rcases hp : d.contents[panel]? with _ | c <;> rw [hp] at hkeep
  · exact ⟨d, rfl, fun c hc => by cases hp.symm.trans hc⟩
  have hbuild := hc c hp
  rw [Option.getD_some] at hkeep ⊢
  cases c with
  | nothing => exact ⟨d, rfl, h.built hkeep hp rfl⟩
  | recording => exact ⟨_, rfl, h.built hkeep hp rfl⟩
  | graph c => exact buildGraph_succeeds h hbuild parent
  | clock c =>
    obtain ⟨d', hd'⟩ : ∃ d', (buildClock panel c parent).outcome d = (.ok (), d') :=
      buildClock_succeeds hbuild parent
    dsimp only at hkeep
    rw [hd'] at hkeep
    exact ⟨d', hd', h.built hkeep hp rfl⟩
  | log c =>
    have htotal : Total (buildLog panel parent) := buildLog_total parent
    obtain ⟨_, d', hd'⟩ := htotal d
    dsimp only at hkeep
    rw [hd'] at hkeep
    exact ⟨d', hd', h.built hkeep hp rfl⟩

end Desk

end DebugDesk
