import DebugDesk.Desk.Frame
import DebugDesk.Proofs.Effect.Respecting
import DebugDesk.Proofs.Panel.Waning
import DebugDesk.Proofs.Task.Once
import DebugDesk.Proofs.View.Surfaces

/-!
# Sound desks

The parts of a desk fit together: every panel has a content, contents know widgets that were made,
and answers go to panels that show graphs. Everything that happens on a desk keeps that, and keeps
the panels that are there, except that a panel may be opened.
-/
namespace DebugDesk.Desk

open Effect

variable [Platform]

def Content.isGraph : Content → Bool
  | .graph _ => true
  | _ => false

def Content.widget? : Content → Option Nat
  | .graph c => c.widget
  | _ => none

def ShowsGraph (d : Desk) (panel : Nat) : Prop :=
  (d.contents[panel]?).map Content.isGraph = some true

def callees (t : HostTransport Nat Nat) : List Nat :=
  t.queue.map Response.callback ++ t.tasks.works.filterMap Request.callback

/-- The parts of the desk fit together. -/
structure Sound (d : Desk) : Prop where
  arranged : ∃ S, d.workspace.Arranged S
  managed : manager < d.workspace.managers.length
  quiet : d.workspace.signals = []
  contents : d.contents.length = d.workspace.panels.length
  widgets : ∀ c ∈ d.contents, ∀ w ∈ c.widget?, w < d.widgets.length
  cameras : ∀ x ∈ d.widgets, x.view.camera.Sound
  callees : ∀ panel ∈ callees d.transport, ShowsGraph d panel

/-- What stays as it is unless a panel is opened, and whatever else is asked for. -/
structure Stays (Q : Desk → Desk → Prop) (d d' : Desk) : Prop where
  workspace : d.workspace.Wanes d'.workspace
  kinds : ∀ i : Nat, (d'.contents[i]?).map Content.isGraph = (d.contents[i]?).map Content.isGraph
  widgets : d.widgets.length ≤ d'.widgets.length
  also : Q d d'

instance {Q : Desk → Desk → Prop} [IsPreorder Desk Q] : IsPreorder Desk (Stays Q) where
  refl d := ⟨.refl _, fun _ => rfl, Nat.le_refl _, refl_of Q d⟩
  trans _ _ _ h h' := ⟨h.workspace.trans h'.workspace, fun i => (h'.kinds i).trans (h.kinds i),
    Nat.le_trans h.widgets h'.widgets, trans_of Q h.also h'.also⟩

/-- What happens on a desk that opens no panel. -/
abbrev KeepsAlso (Q : Desk → Desk → Prop) : Desk → Desk → Prop := During Sound (Stays Q)

def Content.graph? : Content → Option (Option Nat)
  | .graph c => some c.graph
  | _ => none

/-- A relation that takes no notice of items, widgets and animations, nor of a content that goes on
to have the graph that it had when it was looked at. -/
class Lenient (Q : Desk → Desk → Prop) : Prop extends IsPreorder Desk Q where
  aside : ∀ d d' : Desk, d'.workspace.panels = d.workspace.panels → d'.contents = d.contents →
    d'.transport = d.transport → d'.graph = d.graph → Q d d'
  content : ∀ (d₀ d : Desk) (panel : Nat) (c c' : Content), Q d₀ d →
    d₀.contents[panel]? = some c → c'.graph? = c.graph? →
    Q d { d with contents := d.contents.set panel c' }

def Anyhow (_ _ : Desk) : Prop := True

instance : Lenient Anyhow where
  refl _ := trivial
  trans _ _ _ _ _ := trivial
  aside _ _ _ _ _ _ := trivial
  content _ _ _ _ _ _ _ _ := trivial

abbrev Keeps : Desk → Desk → Prop := KeepsAlso Anyhow

variable {d d' : Desk} {β : Type} {panel : Nat} {Q : Desk → Desk → Prop}

theorem ShowsGraph.stays (hs : Stays Q d d') (h : ShowsGraph d panel) : ShowsGraph d' panel :=
  (hs.kinds panel).trans h

theorem keeps_and (hk : Keeps d d') (hQ : Sound d → Q d d') : KeepsAlso Q d d' := by
  intro h
  obtain ⟨hsound, hstays⟩ := hk h
  exact ⟨hsound, hstays.workspace, hstays.kinds, hstays.widgets, hQ h⟩

theorem keeps_only (hk : KeepsAlso Q d d') : Keeps d d' := by
  intro h
  obtain ⟨hsound, hstays⟩ := hk h
  exact ⟨hsound, hstays.workspace, hstays.kinds, hstays.widgets, trivial⟩

theorem keeps_parts (hw : d'.workspace = d.workspace) (hc : d'.contents = d.contents)
    (hx : d'.widgets = d.widgets) (ht : d'.transport = d.transport) : Keeps d d' := by
  intro h
  have hstays : Stays Anyhow d d' := by
    refine ⟨hw ▸ .refl _, fun i => by rw [hc], Nat.le_of_eq (by rw [hx]), trivial⟩
  refine ⟨⟨hw ▸ h.arranged, hw ▸ h.managed, hw ▸ h.quiet, hc ▸ hw ▸ h.contents,
    fun c hm w hm' => hx ▸ h.widgets c (hc ▸ hm) w hm', hx ▸ h.cameras, fun i hi => ?_⟩, hstays⟩
  exact (h.callees i (ht ▸ hi)).stays hstays

/-- A desk with nothing on it is sound. -/
theorem sound_empty (grid stage : Float) : Sound (Desk.empty (.make grid stage)) := by
  refine ⟨⟨fun _ => [], fun m => ?_⟩, Nat.zero_lt_one, rfl, rfl, by simp [Desk.empty],
    by simp [Desk.empty], ?_⟩
  · have hmembers : (Desk.empty (.make grid stage)).workspace.members m = [] := by
      cases m <;> rfl
    refine ⟨⟨.nil, hmembers ▸ .nil, fun i => ?_, fun i hi => by cases hi⟩, fun i hi => by cases hi⟩
    simp [Workspace.owner?, Workspace.place?, Workspace.panel?, Desk.empty, Workspace.make]
  · intro panel hp
    cases hp

variable [Lenient Q]

theorem keeps_aside (hw : d'.workspace = d.workspace) (hc : d'.contents = d.contents)
    (hx : d'.widgets = d.widgets) (ht : d'.transport = d.transport) (hg : d'.graph = d.graph) :
    KeepsAlso Q d d' :=
  keeps_and (keeps_parts hw hc hx ht) fun _ => Lenient.aside d d' (by rw [hw]) hc ht hg

theorem toolkit_keeps (e : Effect Platform.Toolkit β) :
    (toolkitPart.within e).Respects (KeepsAlso Q) := fun _ => keeps_aside rfl rfl rfl rfl rfl

theorem update_toolkit_keeps (f : Platform.Toolkit → Platform.Toolkit) :
    (toolkitPart.update f).Respects (KeepsAlso Q) := fun _ => keeps_aside rfl rfl rfl rfl rfl

theorem record_keeps (e : Event) : (record e).Respects (KeepsAlso Q) :=
  fun _ => keeps_aside rfl rfl rfl rfl rfl

theorem make_keeps (kind : String) (arguments : List Toolkit.Value) (options : Toolkit.Options)
    (callback : Option Handler) : (make kind arguments options callback).Respects (KeepsAlso Q) :=
  toolkit_keeps _

theorem makeActive_keeps (kind : String) (options : Toolkit.Options) (callback : Handler) :
    (makeActive kind options callback).Respects (KeepsAlso Q) := make_keeps _ _ _ _

theorem makeAround_keeps (kind : String) (arguments : List Toolkit.Value)
    (options : Toolkit.Options) {e : Effect Desk β} (he : e.Respects (KeepsAlso Q)) :
    (makeAround kind arguments options e).Respects (KeepsAlso Q) :=
  .bind (make_keeps _ _ _ _) fun _ => .bind (update_toolkit_keeps _) fun _ =>
    .bind he.attempt fun _ =>
    .bind (update_toolkit_keeps _) fun _ => .bind (.ofExcept _) fun _ => .pure _

theorem call_keeps (function : String) (arguments : List Toolkit.Value) :
    (call function arguments).Respects (KeepsAlso Q) := update_toolkit_keeps _

theorem deleteItem_keeps (id : String) : (deleteItem id).Respects (KeepsAlso Q) :=
  .bind (toolkit_keeps _) fun _ => .pure _

theorem configure_keeps (id : String) (options : Toolkit.Options) :
    (configure id options).Respects (KeepsAlso Q) := toolkit_keeps _

theorem seconds_keeps : seconds.Respects (KeepsAlso Q) := .bind .get fun _ => .ofExcept _

theorem timeOfDay_keeps : timeOfDay.Respects (KeepsAlso Q) :=
  .bind seconds_keeps fun _ => .ofExcept _

omit [Lenient Q] in
theorem keeps_workspace {w : Workspace Float Binding} (hw : d.workspace.Wanes w)
    (hq : w.signals = []) (hQ : Sound d → Q d { d with workspace := w }) :
    KeepsAlso Q d { d with workspace := w } := by
  refine keeps_and (fun h => ?_) hQ
  have hstays : Stays Anyhow d { d with workspace := w } :=
    ⟨hw, fun _ => rfl, Nat.le_refl _, trivial⟩
  exact ⟨⟨hw.arranged h.arranged, hw.managers ▸ h.managed, hq, h.contents.trans hw.count.symm,
    h.widgets, h.cameras, fun i hi => (h.callees i hi).stays hstays⟩, hstays⟩

theorem update_workspace_keeps {f : Workspace Float Binding → Workspace Float Binding}
    (hp : ∀ w, (f w).panels = w.panels) (hm : ∀ w, (f w).managers = w.managers)
    (hq : ∀ w, (f w).signals = w.signals) : (workspacePart.update f).Respects (KeepsAlso Q) :=
  fun d h => keeps_workspace (.of_panels (hp d.workspace) (hm d.workspace))
    ((hq d.workspace).trans h.quiet)
    (fun _ => Lenient.aside d (workspacePart.map f d) (hp d.workspace) rfl rfl rfl) h

theorem update_registry_keeps (f : List AnimationKey → List AnimationKey) :
    (registryPart.update f).Respects (KeepsAlso Q) := fun _ => keeps_aside rfl rfl rfl rfl rfl

theorem restart_keeps (key : AnimationKey) :
    (registration.restart key).Respects (KeepsAlso Q) := by
  cases key with
  | closing panel =>
    exact .bind .get fun d =>
      update_workspace_keeps (fun _ => rfl) (fun _ => rfl) fun _ => rfl
  | _ => exact .pure ()

theorem add_keeps (key : AnimationKey) : (registration.add key).Respects (KeepsAlso Q) :=
  .bind (restart_keeps key) fun _ => update_registry_keeps _

theorem cancel_keeps (key : AnimationKey) :
    (registration.cancel key false).Respects (KeepsAlso Q) :=
  update_registry_keeps _

end DebugDesk.Desk
