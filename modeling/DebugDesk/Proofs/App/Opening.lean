import DebugDesk.App.Program
import DebugDesk.Proofs.Desk.Windows
import DebugDesk.Proofs.Panel.Titles

/-!
# Opening panels

The menu opens panels by their title. A panel with the title of graphs shows a graph, so a graph may
be fetched for it.
-/
namespace DebugDesk.App

open Desk Effect

variable [Platform] {d d' : Desk} {title : String} {panel : Nat}

/-- The desk of the program: whatever has the title of graphs shows a graph. -/
structure Ready (d : Desk) : Prop extends Sound d where
  titled : ∀ i p, d.workspace.panel? i = some p → p.title = graphTitle → ShowsGraph d i

theorem Ready.keeps (h : Ready d) (hk : Keeps d d') : Ready d' := by
  obtain ⟨hsound, hstays⟩ := hk h.toSound
  refine ⟨hsound, fun i q hq ht => ?_⟩
  obtain ⟨p, hp, hpq⟩ := hstays.workspace.fades i q hq
  exact (h.titled i p hp (hpq.title ▸ ht)).stays hstays

theorem outcome_passSignals (hquiet : d.workspace.signals = []) :
    passSignals.outcome d = (.ok (), d) := by
  have hsame : d.workspace.takeSignals.2 = d.workspace := by
    rw [Workspace.takeSignals, ← hquiet]
  have htake : (workspacePart.within (Effect.change Workspace.takeSignals)).outcome d =
      (.ok [], d) := by
    change (Except.ok d.workspace.signals, { d with workspace := d.workspace.takeSignals.2 }) = _
    rw [hquiet, hsame]
  exact Effect.outcome_bind_ok htake _

theorem outcome_tryWorkspace {β : Type} {b : β} {w : Workspace Float Binding}
    {f : Workspace Float Binding → Except Fault (β × Workspace Float Binding)}
    (h : f d.workspace = .ok (b, w)) (hquiet : w.signals = []) :
    (tryWorkspace f).outcome d = (.ok b, { d with workspace := w }) := by
  have hstep := outcome_step_workspace f d
  rw [h] at hstep
  rw [tryWorkspace, Effect.outcome_bind_ok hstep,
    Effect.outcome_bind_ok (outcome_passSignals (d := { d with workspace := w }) hquiet)]
  rfl

def withPanel (p : Panel Float Binding) (c : Content) (d : Desk) : Desk :=
  { d with
    workspace := ((d.workspace.push p).attach manager d.workspace.panels.length).raise manager
      d.workspace.panels.length
    contents := d.contents ++ [c] }

theorem signals_withPanel (p : Panel Float Binding) (c : Content) (d : Desk) :
    (withPanel p c d).workspace.signals = d.workspace.signals := Workspace.signals_raise ..

theorem add_push {p : Panel Float Binding} (c : Content) (d : Desk) (hfree : p.manager = none) :
    (d.workspace.push p).add manager d.workspace.panels.length =
      .ok (withPanel p c d).workspace := by
  rw [Workspace.add, Workspace.panel?_push]
  simp only [hfree, Option.isSome_none, Bool.false_eq_true, ↓reduceIte]
  rfl

theorem outcome_addPanel {p : Panel Float Binding} (c : Content) (hfree : p.manager = none)
    (hquiet : d.workspace.signals = []) :
    (addPanel p c).outcome d = (.ok d.workspace.panels.length, withPanel p c d) := by
  have htry : (tryWorkspace fun w => return ((), ← w.add manager d.workspace.panels.length) :
      Effect Desk Unit).outcome
      { d with workspace := d.workspace.push p, contents := d.contents ++ [c] } =
      (.ok (), withPanel p c d) := by
    refine outcome_tryWorkspace (w := (withPanel p c d).workspace) ?_
      ((signals_withPanel p c d).trans hquiet)
    rw [add_push c d hfree]
    rfl
  rw [addPanel, Effect.outcome_bind_ok (Effect.outcome_get d),
    Effect.outcome_bind_ok (Effect.outcome_modify _ d), Effect.outcome_bind_ok htry]
  rfl

theorem outcome_focusPanel (hmanaged : d.workspace.isManagedBy manager panel = true)
    (hquiet : d.workspace.signals = []) :
    (focusPanel panel).outcome d =
      (.ok (), { d with workspace := d.workspace.raise manager panel }) := by
  refine outcome_tryWorkspace ?_ ((Workspace.signals_raise ..).trans hquiet)
  rw [Workspace.focus, if_pos hmanaged]
  rfl

theorem contents_withPanel_of_lt {p : Panel Float Binding} {c : Content} {i : Nat}
    (h : i < d.contents.length) : (withPanel p c d).contents[i]? = d.contents[i]? :=
  List.getElem?_append_left h

theorem contents_withPanel (p : Panel Float Binding) (c : Content) (d : Desk) :
    (withPanel p c d).contents[d.contents.length]? = some c := by
  simp [withPanel]

theorem showsGraph_withPanel {p : Panel Float Binding} {c : Content} {i : Nat}
    (h : ShowsGraph d i) : ShowsGraph (withPanel p c d) i := by
  obtain ⟨c', hc', -⟩ := Option.map_eq_some_iff.mp h
  obtain ⟨hi, -⟩ := List.getElem?_eq_some_iff.mp hc'
  rw [ShowsGraph, contents_withPanel_of_lt hi]
  exact h

theorem ties?_withPanel (p : Panel Float Binding) (c : Content) (d : Desk) (j : Nat) :
    (withPanel p c d).workspace.ties? j =
      if d.workspace.panels.length = j then some { p.ties with manager := some manager }
      else d.workspace.ties? j := by
  rw [withPanel, Workspace.ties?_raise, Workspace.ties?_attach, Workspace.ties?_push]
  split
  · rfl
  · simp

/-- The panels of a desk with another one on top are those of before, and the new one. -/
theorem panel?_withPanel {p q : Panel Float Binding} {c : Content} {i : Nat}
    (h : (withPanel p c d).workspace.panel? i = some q) :
    (∃ r, d.workspace.panel? i = some r ∧ q.title = r.title) ∨
      i = d.workspace.panels.length ∧ q.title = p.title := by
  have hties : (withPanel p c d).workspace.ties? i = some q.ties := by
    rw [Workspace.ties?, h, Option.map_some]
  rw [ties?_withPanel] at hties
  split at hties
  next hi => exact .inr ⟨hi.symm, congrArg Panel.Ties.title (Option.some.inj hties).symm⟩
  · obtain ⟨r, hr, hsame⟩ := Option.map_eq_some_iff.mp hties
    exact .inl ⟨r, hr, congrArg Panel.Ties.title hsame.symm⟩

theorem length_withPanel (p : Panel Float Binding) (c : Content) (d : Desk) :
    (withPanel p c d).workspace.panels.length = d.workspace.panels.length + 1 := by
  have hattach : ((d.workspace.push p).attach manager d.workspace.panels.length).panels.length =
      (d.workspace.push p).panels.length := List.length_modify ..
  rw [withPanel, (Workspace.Fades.raise _ manager _).count, hattach]
  exact List.length_append

theorem sound_withPanel {p : Panel Float Binding} {c : Content} (h : Sound d)
    (hfree : p.manager = none) (hwidget : c.widget? = none) : Sound (withPanel p c d) := by
  obtain ⟨S, hS⟩ := h.arranged
  have hmanagers : (withPanel p c d).workspace.managers.length = d.workspace.managers.length := by
    rw [withPanel, (Workspace.Fades.raise _ manager _).managers]
    exact List.length_modify ..
  refine ⟨⟨_, (hS.push hfree).add h.managed (Workspace.panel?_push _ p) hfree⟩, ?_, ?_, ?_,
    fun c' hc' w hw => ?_, h.cameras, fun i hi => showsGraph_withPanel (h.callees i hi)⟩
  · exact hmanagers ▸ h.managed
  · exact (signals_withPanel p c d).trans h.quiet
  · rw [length_withPanel, ← h.contents]
    exact List.length_append
  · rcases List.mem_append.mp hc' with hc' | hc'
    · exact h.widgets c' hc' w hw
    · rw [List.mem_singleton.mp hc', hwidget] at hw
      cases hw

theorem ready_withPanel {p : Panel Float Binding} {c : Content} (h : Ready d)
    (hfree : p.manager = none) (hwidget : c.widget? = none)
    (htitle : p.title = graphTitle → c.isGraph = true) : Ready (withPanel p c d) := by
  refine ⟨sound_withPanel h.toSound hfree hwidget, fun i q hq ht => ?_⟩
  rcases panel?_withPanel hq with ⟨r, hr, hqr⟩ | ⟨rfl, hqp⟩
  · exact showsGraph_withPanel (h.titled i r hr (hqr ▸ ht))
  · rw [ShowsGraph, ← h.contents, contents_withPanel, Option.map_some, htitle (hqp ▸ ht)]

theorem outcome_openedPanel (title : String) (d : Desk) :
    (openedPanel title).outcome d = (.ok (d.workspace.opened? manager title), d) := by
  rw [openedPanel, Effect.outcome_bind_ok (Effect.outcome_get d), Effect.outcome_pure,
    Workspace.opened?]
  congr 3
  funext i
  cases d.workspace.panel? i <;> rfl

/-- What opening a title does, and what it tells. -/
structure Shows (title : String) (d : Desk) (r : Except Fault (Nat × Bool) × Desk) : Prop where
  ready : Ready r.2
  opened : d.workspace.Opened manager title r.2.workspace
  graph : ∀ panel isNew, r.1 = .ok (panel, isNew) → title = graphTitle → ShowsGraph r.2 panel
  count : ∀ panel, r.1 = .ok (panel, true) →
    r.2.workspace.panels.length = d.workspace.panels.length + 1

def newPanel (title : String) (offset : Float) (size : Float × Float) : Panel Float Binding :=
  Panel.make title offset offset size.1 size.2 true Settings.headerHeight Settings.minPanelWidth
    Settings.minPanelHeight

inductive Opens (title : String) (size : Float × Float) (c : Content) (d : Desk) :
    Except Fault (Nat × Bool) × Desk → Prop where
  | focused (panel : Nat) (p : Panel Float Binding)
      (found : d.workspace.opened? manager title = some panel)
      (made : d.workspace.panel? panel = some p) (managed : p.manager = some manager)
      (titled : p.title = title) :
      Opens title size c d
        (.ok (panel, false), { d with workspace := d.workspace.raise manager panel })
  | failed (fault : Fault) (missed : d.workspace.opened? manager title = none) :
      Opens title size c d (.error fault, d)
  | added (offset : Float) (missed : d.workspace.opened? manager title = none) :
      Opens title size c d
        (.ok (d.workspace.panels.length, true), withPanel (newPanel title offset size) c d)

theorem openPanel_opens (h : Sound d) (title : String) (size : Float × Float) (c : Content) :
    Opens title size c d ((openPanel title size c).outcome d) := by
  obtain ⟨S, hS⟩ := h.arranged
  rw [openPanel, Effect.outcome_bind_ok (outcome_openedPanel title d)]
  cases hfound : d.workspace.opened? manager title with
  | some panel =>
    have hlive := List.mem_of_head? (Workspace.opened?_eq_some hfound)
    obtain ⟨hmember, hlive⟩ := Workspace.mem_live.mp hlive
    obtain ⟨p, hp, hm⟩ := hS.mem_members hmember
    have hmanaged : d.workspace.isManagedBy manager panel = true := by
      simp [Workspace.isManagedBy, hp, hm]
    have htitled : p.title = title := by
      simp only [Workspace.isLive, hp, Option.any_some, Bool.and_eq_true, beq_iff_eq] at hlive
      exact hlive.1
    rw [Effect.outcome_bind_ok (outcome_focusPanel hmanaged h.quiet)]
    exact .focused panel p hfound hp hm htitled
  | none =>
    have hoffset : nextOffset.outcome d = (Scalar.snap (Binary64.ofInt (Settings.cascadeStep *
        ((d.workspace.members manager).length + 1))) Settings.gridSize, d) := rfl
    cases hsnap : (Scalar.snap (Binary64.ofInt (Settings.cascadeStep *
        ((d.workspace.members manager).length + 1))) Settings.gridSize : Except Fault Float) with
    | error fault =>
      rw [hsnap] at hoffset
      rw [Effect.outcome_bind_error hoffset]
      exact .failed fault hfound
    | ok offset =>
      rw [hsnap] at hoffset
      rw [Effect.outcome_bind_ok hoffset, Effect.outcome_bind_ok (outcome_addPanel c rfl h.quiet)]
      exact .added offset hfound

theorem openPanel_shows (h : Ready d) (title : String) (size : Float × Float) {c : Content}
    (hwidget : c.widget? = none) (htitle : title = graphTitle → c.isGraph = true) :
    Shows title d ((openPanel title size c).outcome d) := by
  obtain ⟨S, hS⟩ := h.arranged
  have hopens := openPanel_opens h.toSound title size c
  generalize (openPanel title size c).outcome d = r at hopens ⊢
  cases hopens with
  | focused panel p found made managed titled =>
    have hready : Ready { d with workspace := d.workspace.raise manager panel } :=
      h.keeps (keeps_workspace (.raise d.workspace made managed)
        ((Workspace.signals_raise ..).trans h.quiet) fun _ => trivial)
    refine ⟨hready, hS.opened_raise found, fun panel' isNew hr ht => ?_, fun panel' hr => ?_⟩
    · cases hr
      exact h.titled panel p made (titled.trans ht)
    · cases hr
  | failed fault missed =>
    exact ⟨h, .failed missed rfl, fun _ _ hr => (by cases hr), fun _ hr => (by cases hr)⟩
  | added offset missed =>
    have hopened := hS.opened_add (p := newPanel title offset size) h.managed missed rfl rfl
    refine ⟨ready_withPanel h rfl hwidget htitle, hopened, fun panel isNew hr ht => ?_,
      fun panel _ => length_withPanel _ c d⟩
    cases hr
    change ShowsGraph (withPanel _ c d) _
    rw [ShowsGraph, ← h.contents, contents_withPanel, Option.map_some, htitle ht]

def withBoundPanel (p : Panel Float Binding) (c : Content) (d : Desk) : Desk :=
  { withPanel p c d with
    workspace := (withPanel p c d).workspace.bind d.workspace.panels.length
      (.requests d.workspace.panels.length) }

inductive OpensGraph (d : Desk) : Except Fault Nat × Desk → Prop where
  | focused (panel : Nat) (p : Panel Float Binding) (made : d.workspace.panel? panel = some p)
      (managed : p.manager = some manager) (titled : p.title = graphTitle) :
      OpensGraph d (.ok panel, { d with workspace := d.workspace.raise manager panel })
  | failed (fault : Fault) : OpensGraph d (.error fault, d)
  | added (p : Panel Float Binding) (c : Content) (titled : p.title = graphTitle) :
      OpensGraph d (.ok d.workspace.panels.length, withBoundPanel p c d)

theorem openGraph_opens (h : Sound d) : OpensGraph d (openGraph.outcome d) := by
  rw [openGraph, Effect.outcome_bind_ok (Effect.outcome_get d)]
  dsimp only
  generalize Content.graph _ = c
  have hopens := openPanel_opens h graphTitle Settings.graphPanelSize c
  rcases ho : (openPanel graphTitle Settings.graphPanelSize c).outcome d with ⟨r, d'⟩
  rw [ho] at hopens
  cases hopens with
  | focused panel p found made managed titled =>
    rw [Effect.outcome_bind_ok ho]
    exact .focused panel p made managed titled
  | failed fault missed =>
    rw [Effect.outcome_bind_error ho]
    exact .failed fault
  | added offset missed =>
    rw [Effect.outcome_bind_ok ho]
    exact .added (newPanel graphTitle offset Settings.graphPanelSize) c rfl

/-- Opening the graph makes its panel ready to have a graph fetched for it. -/
structure ShowsGraphs (d : Desk) (r : Except Fault Nat × Desk) : Prop where
  ready : Ready r.2
  opened : d.workspace.Opened manager graphTitle r.2.workspace
  graph : ∀ panel, r.1 = .ok panel → ShowsGraph r.2 panel

theorem openGraph_shows (h : Ready d) : ShowsGraphs d (openGraph.outcome d) := by
  rw [openGraph, Effect.outcome_bind_ok (Effect.outcome_get d)]
  dsimp only
  have hshows := openPanel_shows h graphTitle Settings.graphPanelSize
    (c := .graph ⟨some d.graph, GraphContent.standardToolbar, Settings.widget, none⟩) rfl
    fun _ => rfl
  generalize openPanel graphTitle Settings.graphPanelSize _ = e at hshows ⊢
  rcases he : e.outcome d with ⟨fault | ⟨panel, isNew⟩, d'⟩ <;> rw [he] at hshows
  · rw [Effect.outcome_bind_error he]
    exact ⟨hshows.ready, hshows.opened, fun _ hr => by cases hr⟩
  · have hgraph := hshows.graph panel isNew rfl rfl
    rw [Effect.outcome_bind_ok he]
    cases isNew with
    | false => exact ⟨hshows.ready, hshows.opened, fun _ hr => by cases hr; exact hgraph⟩
    | true =>
      have hbind := bind_keeps (Q := Anyhow) panel (.requests panel) d'
      refine ⟨hshows.ready.keeps hbind, ?_, fun _ hr => ?_⟩
      · exact hshows.opened.bind hshows.ready.arranged (hshows.count panel rfl) panel _
      · cases hr
        exact hgraph

/-- The title that an item of the menu opens. -/
def MenuAction.title? : MenuAction → Option String
  | .openGraph | .fetchGraph => some graphTitle
  | .openClock => some clockTitle
  | .openLog => some logTitle
  | .exit | .closePanels | .ping => none

theorem fetchGraph_shows (h : Ready d) : Ready ((perform .fetchGraph).outcome d).2 ∧
    d.workspace.Opened manager graphTitle ((perform .fetchGraph).outcome d).2.workspace := by
  have hshows := openGraph_shows h
  rw [perform]
  rcases ho : openGraph.outcome d with ⟨fault | panel, d'⟩ <;> rw [ho] at hshows
  · rw [Effect.outcome_bind_error ho]
    exact ⟨hshows.ready, hshows.opened⟩
  · rw [Effect.outcome_bind_ok ho]
    have haside : ((fetchFor panel).outcome d').2.workspace = d'.workspace :=
      (request_aside _ d').workspace
    exact ⟨hshows.ready.keeps (fetchFor_keeps (hshows.graph panel rfl)), haside ▸ hshows.opened⟩

/-- An item of the menu that opens a title. -/
theorem perform_opens (h : Ready d) {action : MenuAction} (ht : action.title? = some title) :
    Ready ((perform action).outcome d).2 ∧
      d.workspace.Opened manager title ((perform action).outcome d).2.workspace := by
  cases action with
  | openGraph =>
    obtain rfl := Option.some.inj ht
    have hshows := openGraph_shows h
    rw [perform, Effect.outcome_bind_pure]
    exact ⟨hshows.ready, hshows.opened⟩
  | openClock =>
    obtain rfl := Option.some.inj ht
    have hshows := openPanel_shows h clockTitle Settings.clockPanelSize
      (c := .clock ⟨ClockContent.standardInterval, none, none⟩) rfl (by decide)
    rw [perform, openClock, Effect.outcome_bind_pure]
    exact ⟨hshows.ready, hshows.opened⟩
  | openLog =>
    obtain rfl := Option.some.inj ht
    have hshows := openPanel_shows h logTitle Settings.logPanelSize
      (c := .log ⟨none, none, none⟩) rfl (by decide)
    rw [perform, openLog, Effect.outcome_bind_pure]
    exact ⟨hshows.ready, hshows.opened⟩
  | fetchGraph =>
    obtain rfl := Option.some.inj ht
    exact fetchGraph_shows h
  | exit => cases ht
  | closePanels => cases ht
  | ping => cases ht

/-- Any other item opens nothing. -/
theorem perform_keeps {Q : Desk → Desk → Prop} [Enduring Q] {action : MenuAction}
    (ht : action.title? = none) : (perform action).Respects (KeepsAlso Q) := by
  cases action with
  | exit => exact .bind (call_keeps _ _) fun _ _ => keeps_aside rfl rfl rfl rfl rfl
  | closePanels => exact .bind .get fun _ => .forM _ fun panel _ => closePanel_keeps panel
  | ping => exact call_keeps_also .ping
  | openGraph => cases ht
  | openClock => cases ht
  | openLog => cases ht
  | fetchGraph => cases ht

end DebugDesk.App
