import DebugDesk.Proofs.Desk.Widgets

/-!
# Contents of sound desks

A content may be replaced by another of its kind that knows no widgets but those that were made. So
a panel that shows a graph can be made to show any other, and its widget follows.
-/
namespace DebugDesk.Desk

open Effect

variable [Platform]

section

variable {d d' : Desk} {β : Type} {panel : Nat} {c : Content} {Q : Desk → Desk → Prop}

/-- A content that a panel may have in place of its own, which it had when it was looked at. -/
structure Fits (Q : Desk → Desk → Prop) (panel : Nat) (c : Content) (d : Desk) : Prop where
  kind : ∀ c', d.contents[panel]? = some c' → c'.isGraph = c.isGraph
  widget : ∀ w ∈ c.widget?, w < d.widgets.length
  seen : d.contents[panel]? = none ∨ ∃ d₀, Q d₀ d ∧ d₀.contents[panel]? = some c

abbrev KeepsWith (Q : Desk → Desk → Prop) (panel : Nat) (c : Content) : Desk → Desk → Prop :=
  During (fun d => Sound d ∧ Fits Q panel c d) (Stays Q)

/-- A content that may be put in place of one that was looked at. -/
theorem keeps_content {c' : Content} (hc : Fits Q panel c d) (hk : c'.isGraph = c.isGraph)
    (hw : ∀ w ∈ c'.widget?, w < d.widgets.length)
    (hQ : Q d { d with contents := d.contents.set panel c' }) :
    KeepsAlso Q d { d with contents := d.contents.set panel c' } := by
  have hkinds : ∀ i : Nat, ((d.contents.set panel c')[i]?).map Content.isGraph =
      (d.contents[i]?).map Content.isGraph := by
    intro i
    rw [List.getElem?_set]
    split
    next hi =>
      subst hi
      cases hp : d.contents[panel]? with
      | none => simp [List.getElem?_eq_none_iff.mp hp]
      | some c' =>
        obtain ⟨hlt, -⟩ := List.getElem?_eq_some_iff.mp hp
        simp [hlt, hk, hc.kind c' hp]
    · rfl
  have hstays : Stays Anyhow d { d with contents := d.contents.set panel c' } :=
    ⟨.refl _, hkinds, Nat.le_refl _, trivial⟩
  refine keeps_and (fun h => ?_) fun _ => hQ
  refine ⟨⟨h.arranged, h.managed, h.quiet, (List.length_set ..).trans h.contents,
    fun x hx w hw' => ?_, h.cameras, fun i hi => (h.callees i hi).stays hstays⟩, hstays⟩
  rcases List.mem_or_eq_of_mem_set hx with hx | rfl
  · exact h.widgets x hx w hw'
  · exact hw w hw'

variable [Lenient Q]

theorem Fits.also {c' : Content} (h : Fits Q panel c d) (hg : c'.graph? = c.graph?) :
    Q d { d with contents := d.contents.set panel c' } := by
  rcases h.seen with hnone | ⟨d₀, hQ, hd₀⟩
  · have hsame : d.contents.set panel c' = d.contents :=
      List.set_eq_of_length_le (List.getElem?_eq_none_iff.mp hnone)
    exact Lenient.aside d _ rfl hsame rfl rfl
  · exact Lenient.content d₀ d panel c c' hQ hd₀ hg

theorem Fits.stays (hs : Stays Q d d') (h : Fits Q panel c d) : Fits Q panel c d' := by
  have hk := hs.kinds panel
  refine ⟨fun c' hc' => ?_, fun w hw => Nat.lt_of_lt_of_le (h.widget w hw) hs.widgets, ?_⟩
  · rw [hc'] at hk
    obtain ⟨c'', hc'', he⟩ := Option.map_eq_some_iff.mp hk.symm
    exact he ▸ h.kind c'' hc''
  · rcases h.seen with hnone | ⟨d₀, hQ, hd₀⟩
    · rw [hnone, Option.map_none, Option.map_eq_none_iff] at hk
      exact .inl hk
    · exact .inr ⟨d₀, trans_of Q hQ hs.also, hd₀⟩

theorem with_content (panel : Nat) (c : Content) {e : Effect Desk β}
    (he : e.Respects (KeepsAlso Q)) : e.Respects (KeepsWith Q panel c) :=
  he.also fun _ _ => Fits.stays

theorem putContent_keeps {c' : Content} (hk : c'.isGraph = c.isGraph)
    (hw : ∀ w ∈ c'.widget?, w ∈ c.widget?)
    (hQ : ∀ d, Fits Q panel c d → Q d { d with contents := d.contents.set panel c' }) :
    (setContent panel c').Respects (KeepsWith Q panel c) := by
  intro d h
  have hset := keeps_content h.2 hk (fun w hw' => h.2.widget w (hw w hw')) (hQ d h.2) h.1
  exact ⟨⟨hset.1, h.2.stays hset.2⟩, hset.2⟩

theorem setContent_keeps {c' : Content} (hk : c'.isGraph = c.isGraph)
    (hw : ∀ w ∈ c'.widget?, w ∈ c.widget?) (hg : c'.graph? = c.graph?) :
    (setContent panel c').Respects (KeepsWith Q panel c) :=
  putContent_keeps hk hw fun _ h => h.also hg

/-- What is done with the content of a panel. -/
theorem contentOf_bind_keeps {f : Content → Effect Desk β}
    (hf : ∀ c, (f c).Respects (KeepsWith Q panel c)) :
    (contentOf panel >>= f).Respects (KeepsAlso Q) := by
  intro d h
  have hfits : Fits Q panel ((d.contents[panel]?).getD .nothing) d := by
    cases hp : d.contents[panel]? with
    | none => exact ⟨by simp [hp], by simp [Content.widget?], .inl hp⟩
    | some c =>
      refine ⟨fun c' hc' => ?_, h.widgets c (List.mem_of_getElem? hp), .inr ⟨d, refl_of Q d, hp⟩⟩
      rw [hp] at hc'
      exact congrArg Content.isGraph (Option.some.inj hc').symm
  have hrest := hf _ d ⟨h, hfits⟩
  exact ⟨hrest.1.1, hrest.2⟩

theorem graphContent_bind_keeps {f : GraphContent → Effect Desk β}
    (hf : ∀ c, (f c).Respects (KeepsWith Q panel (.graph c))) :
    (graphContent panel >>= f).Respects (KeepsAlso Q) := by
  rw [graphContent, bind_assoc]
  refine contentOf_bind_keeps fun c => ?_
  cases c with
  | graph c => exact hf c
  | _ => exact .throw _

theorem onWidget_keeps (c : GraphContent) {f : Nat → Effect Desk Unit}
    (hf : ∀ w, (f w).Respects (KeepsAlso Q)) : (onWidget c f).Respects (KeepsAlso Q) := by
  unfold onWidget
  split
  · exact hf _
  · exact .pure ()

theorem showGraph_keeps (panel : Nat) (graph : Option Nat) :
    (showGraph panel graph).Respects Keeps :=
  graphContent_bind_keeps fun c =>
    .bind (putContent_keeps rfl (fun _ => id) fun _ _ => trivial) fun _ =>
    with_content _ _ <| onWidget_keeps c fun w =>
      .bind (setWidgetGraph_keeps w graph) fun _ => recenterWidget_keeps w

theorem recenterGraph_keeps (panel : Nat) : (recenterGraph panel).Respects (KeepsAlso Q) :=
  graphContent_bind_keeps fun c => with_content _ _ <| onWidget_keeps c recenterWidget_keeps

theorem fitGraph_keeps (panel : Nat) : (fitGraph panel).Respects (KeepsAlso Q) :=
  graphContent_bind_keeps fun c => with_content _ _ <| onWidget_keeps c fitWidget_keeps

theorem buildGraph_keeps (panel : Nat) (c : GraphContent) (p : Panel Float Binding)
    (parent : String) : (buildGraph panel c p parent).Respects (KeepsWith Q panel (.graph c)) := by
  have hbuttons : (makeAround "group" [] [("horizontal", .flag true), ("parent", .text parent)] do
      let _ ← makeActive "add_button" [("label", .text "Recenter")] (.recenter panel)
      makeActive "add_button" [("label", .text "Zoom to fit")] (.zoomToFit panel)).Respects
      (KeepsAlso Q) := makeAround_keeps _ _ _ <| .bind (makeActive_keeps _ _ _) fun _ =>
        makeActive_keeps _ _ _
  refine .bind (with_content _ _ hbuttons) fun _ => .bind (.ofExcept _) fun size => ?_
  intro d h
  have hmake := with_content (Q := Q) panel (.graph c)
    (makeWidget_keeps parent none size.1 size.2 c.settings (some panel)) d
  refine Effect.related_bind (P := KeepsWith Q panel (.graph c)) hmake (fun w e he => ?_) h
  rw [he] at hmake
  have hwidget : ∀ w' ∈ (Content.graph { c with widget := some w }).widget?,
      w' < e.widgets.length := by
    intro w' hw'
    obtain rfl := Option.some.inj hw'
    exact lt_of_makeWidget h.1 he
  have hkind : (Content.graph { c with widget := some w }).isGraph =
      (Content.graph c).isGraph := rfl
  have hset : KeepsWith Q panel (.graph c) e
      { e with contents := e.contents.set panel (.graph { c with widget := some w }) } := by
    intro he
    have hkeeps := keeps_content he.2 hkind hwidget (he.2.also rfl) he.1
    exact ⟨⟨hkeeps.1, he.2.stays hkeeps.2⟩, hkeeps.2⟩
  refine trans_of (KeepsWith Q panel (.graph c)) hset ?_
  split
  · exact with_content _ _ (.bind (setWidgetGraph_keeps w _) fun _ => recenterWidget_keeps w) _
  · exact refl_of (KeepsWith Q panel (.graph c)) _

theorem buildClock_keeps (panel : Nat) (c : ClockContent) (parent : String) :
    (buildClock panel c parent).Respects (KeepsWith Q panel (.clock c)) :=
  .bind (with_content _ _ timeOfDay_keeps) fun _ =>
    .bind (with_content _ _ (make_keeps _ _ _ _)) fun _ =>
    .bind (setContent_keeps rfl (fun _ => id) rfl) fun _ => with_content _ _ (add_keeps _)

theorem clockFrame_keeps (panel : Nat) (c : ClockContent) (time : Int) :
    (clockFrame panel c time).Respects (KeepsWith Q panel (.clock c)) := by
  refine .bind (.ofExcept _) fun due => ?_
  split
  · exact .bind (setContent_keeps rfl (fun _ => id) rfl) fun _ =>
      .bind (with_content _ _ timeOfDay_keeps) fun _ =>
      .bind (with_content _ _ (call_keeps _ _)) fun _ => .pure _
  · exact .pure _

theorem destroyClock_keeps (panel : Nat) (c : ClockContent) :
    (destroyClock panel c).Respects (KeepsWith Q panel (.clock c)) := by
  refine .bind (with_content _ _ (cancel_keeps _)) fun _ => ?_
  split
  · exact .bind (with_content _ _ (deleteItem_keeps _)) fun _ =>
      setContent_keeps rfl (fun _ => id) rfl
  · exact .pure ()

theorem buildLog_keeps (panel : Nat) (c : LogContent) (parent : String) :
    (buildLog panel parent).Respects (KeepsWith Q panel (.log c)) :=
  .bind (with_content _ _ (make_keeps _ _ _ _)) fun _ =>
    .bind (with_content _ _ (make_keeps _ _ _ _)) fun _ =>
    .bind (.forM _ fun _ _ => .bind (with_content _ _ (make_keeps _ _ _ _)) fun _ => .pure ())
      fun _ =>
    .bind (with_content _ _ (make_keeps _ _ _ _)) fun _ =>
    .bind (setContent_keeps rfl (fun _ => id) rfl) fun _ => with_content _ _ (add_keeps _)

theorem addRow_keeps (table : Toolkit.Value) (e : LogEntry) :
    (addRow table e).Respects (KeepsAlso Q) := by
  refine .bind (.ofExcept _) fun color => .bind (makeAround_keeps _ _ _ ?_) fun _ => .pure ()
  exact .bind (.ofExcept _) fun _ => .bind (make_keeps _ _ _ _) fun _ =>
    .bind (make_keeps _ _ _ _) fun _ => .bind (make_keeps _ _ _ _) fun _ => make_keeps _ _ _ _

theorem logFrame_keeps (panel : Nat) (c : LogContent) :
    (logFrame panel c).Respects (KeepsWith Q panel (.log c)) := by
  refine .bind .get fun d => ?_
  dsimp only
  split
  · exact .pure _
  · exact .bind (setContent_keeps rfl (fun _ => id) rfl) fun _ =>
      .bind (with_content _ _ (toolkit_keeps _)) fun _ =>
      .bind (.forM _ fun e _ => with_content _ _ (addRow_keeps _ e)) fun _ => .bind .get fun _ =>
      .bind (with_content _ _ (call_keeps _ _)) fun _ => .pure _

theorem destroyLog_keeps (panel : Nat) (c : LogContent) :
    (destroyLog panel c).Respects (KeepsWith Q panel (.log c)) := by
  refine .bind (with_content _ _ (cancel_keeps _)) fun _ => ?_
  split
  · exact .bind (with_content _ _ (deleteItem_keeps _)) fun _ =>
      setContent_keeps rfl (fun _ => id) rfl
  · exact .pure ()

theorem buildContent_keeps (panel : Nat) (p : Panel Float Binding) (parent : String) :
    (buildContent panel p parent).Respects (KeepsAlso Q) := by
  refine contentOf_bind_keeps fun c => ?_
  cases c with
  | nothing => exact .pure ()
  | recording => exact with_content _ _ (record_keeps _)
  | graph c => exact buildGraph_keeps panel c p parent
  | clock c => exact buildClock_keeps panel c parent
  | log c => exact buildLog_keeps panel c parent

theorem resizeContent_keeps (panel : Nat) (width height : Float) :
    (resizeContent panel width height).Respects (KeepsAlso Q) := by
  refine contentOf_bind_keeps fun c => ?_
  cases c with
  | recording => exact with_content _ _ (record_keeps _)
  | graph c =>
    exact with_content _ _ <| onWidget_keeps c fun w =>
      .bind (.ofExcept _) fun size => resizeWidget_keeps w size.1 size.2
  | _ => exact .pure ()

theorem suppressContent_keeps (panel : Nat) (flag : Bool) :
    (suppressContent panel flag).Respects (KeepsAlso Q) := by
  refine contentOf_bind_keeps fun c => ?_
  cases c with
  | recording => exact with_content _ _ (record_keeps _)
  | graph c => exact with_content _ _ <| onWidget_keeps c fun w => suppressWidget_keeps w flag
  | _ => exact .pure ()

theorem enableContent_keeps (panel : Nat) (flag : Bool) :
    (enableContent panel flag).Respects (KeepsAlso Q) := by
  refine contentOf_bind_keeps fun c => ?_
  cases c with
  | recording => exact with_content _ _ (record_keeps _)
  | graph c => exact with_content _ _ <| onWidget_keeps c fun w => enableWidget_keeps w flag
  | _ => exact .pure ()

theorem destroyContent_keeps (panel : Nat) : (destroyContent panel).Respects (KeepsAlso Q) := by
  refine contentOf_bind_keeps fun c => ?_
  cases c with
  | nothing => exact .pure ()
  | recording => exact with_content _ _ (record_keeps _)
  | graph c =>
    exact .bind (with_content _ _ (onWidget_keeps c destroyWidget_keeps)) fun _ =>
      setContent_keeps rfl (by simp [Content.widget?]) rfl
  | clock c => exact destroyClock_keeps panel c
  | log c => exact destroyLog_keeps panel c

end

section

variable {d : Desk} {panel w ref : Nat} {c : GraphContent} {x : GraphWidget}

omit [Platform] in
theorem graph_setGraph (v : View Float) (gs : GraphStore) (graph : Option Nat) :
    (v.setGraph gs graph).1.graph = graph := by
  unfold View.setGraph
  split
  next h => exact h.symm
  · rfl

omit [Platform] in
theorem graphs_setGraph (v : View Float) (gs : GraphStore) (ref r : Nat) :
    (v.setGraph gs (some ref)).2.graph r = gs.graph r ∨
      r = ref ∧ (v.setGraph gs (some ref)).2.graph r = (gs.graph r).updateIdentifiers := by
  unfold View.setGraph
  split
  · exact .inl rfl
  · exact gs.graph_change ref Graph.updateIdentifiers r

omit [Platform] in
theorem camera_setGraph (v : View Float) (gs : GraphStore) (graph : Option Nat) :
    (v.setGraph gs graph).1.camera = v.camera := by
  unfold View.setGraph
  split <;> rfl

theorem outcome_setWidgetGraph (hx : d.widgets[w]? = some x) (graph : Option Nat) :
    (setWidgetGraph w graph).outcome d = (.ok (), { d with
      widgets := d.widgets.modify w fun y => { y with view := (x.view.setGraph d.graphs graph).1 }
      graphs := (x.view.setGraph d.graphs graph).2 }) := by
  rw [setWidgetGraph, Effect.outcome_bind_ok (outcome_widget hx)]
  rfl

/-- A widget whose zoom is above zero can be recentered, and goes on to show its graph. -/
theorem recenterWidget_shows (hx : d.widgets[w]? = some x) (hc : x.view.camera.Sound) :
    ∃ view, view.graph = x.view.graph ∧ (recenterWidget w).outcome d =
      (.ok (), { d with widgets := d.widgets.modify w fun y => { y with view } }) := by
  obtain ⟨camera, pending, -, hrecenter⟩ := View.recenter_ok (v := x.view) d.graphs hc
  refine ⟨{ x.view with camera, recenterPending := pending }, rfl, ?_⟩
  rw [recenterWidget, Effect.outcome_bind_ok (Effect.outcome_get d), tryView,
    Effect.outcome_bind_ok (outcome_widget hx)]
  simp only [hrecenter]
  rfl

/-- A widget of a sound desk can be made to show any graph. -/
theorem showInWidget (hx : d.widgets[w]? = some x) (hc : x.view.camera.Sound) (ref : Nat) :
    ∃ view, view.graph = some ref ∧
      (do
        setWidgetGraph w (some ref)
        recenterWidget w : Effect Desk Unit).outcome d = (.ok (), { d with
          widgets := d.widgets.modify w fun y => { y with view }
          graphs := (x.view.setGraph d.graphs (some ref)).2 }) := by
  have hset := outcome_setWidgetGraph hx (some ref)
  have hx' : (d.widgets.modify w fun y =>
      { y with view := (x.view.setGraph d.graphs (some ref)).1 })[w]? =
      some { x with view := (x.view.setGraph d.graphs (some ref)).1 } := by
    simp [hx]
  obtain ⟨view, hview, hrecenter⟩ := recenterWidget_shows (d := { d with
    widgets := d.widgets.modify w fun y =>
      { y with view := (x.view.setGraph d.graphs (some ref)).1 }
    graphs := (x.view.setGraph d.graphs (some ref)).2 }) hx' (by rwa [camera_setGraph])
  refine ⟨view, hview.trans (graph_setGraph _ _ _), ?_⟩
  rw [Effect.outcome_bind_ok hset, hrecenter, List.modify_modify_eq]
  rfl

/-- What a desk is like when a panel shows another graph than before. -/
structure ShowsNow (d : Desk) (panel ref : Nat) (c : GraphContent) (d' : Desk) : Prop where
  graph : d'.graph = d.graph
  contents : d'.contents = d.contents.set panel (.graph { c with graph := some ref })
  widget : ∀ w ∈ c.widget, ∃ x, d'.widgets[w]? = some x ∧ x.view.graph = some ref
  graphs : ∀ r, d'.graphs.graph r = d.graphs.graph r ∨
    r = ref ∧ d'.graphs.graph r = (d.graphs.graph r).updateIdentifiers

theorem outcome_graphContent (hc : d.contents[panel]? = some (.graph c)) :
    (graphContent panel).outcome d = (.ok c, d) := by
  have hcontent : (contentOf panel).outcome d = (.ok (.graph c), d) := by
    rw [contentOf, Effect.outcome_bind_ok (Effect.outcome_get d), hc]
    rfl
  rw [graphContent, Effect.outcome_bind_ok hcontent]
  rfl

theorem onWidget_none (hw : c.widget = none) (f : Nat → Effect Desk Unit) :
    onWidget c f = pure () := by rw [onWidget, hw]

theorem onWidget_some (hw : c.widget = some w) (f : Nat → Effect Desk Unit) :
    onWidget c f = f w := by rw [onWidget, hw]

/-- A panel of a sound desk can be made to show any graph. -/
theorem Sound.showGraph (h : Sound d) (hc : d.contents[panel]? = some (.graph c)) (ref : Nat) :
    ∃ d', (showGraph panel (some ref)).outcome d = (.ok (), d') ∧ ShowsNow d panel ref c d' := by
  have hset : (setContent panel (.graph { c with graph := some ref })).outcome d = (.ok (),
      { d with contents := d.contents.set panel (.graph { c with graph := some ref }) }) := rfl
  rw [Desk.showGraph, Effect.outcome_bind_ok (outcome_graphContent hc),
    Effect.outcome_bind_ok hset]
  rcases Option.eq_none_or_eq_some c.widget with hw | ⟨w, hw⟩
  · rw [onWidget_none hw]
    exact ⟨_, rfl, rfl, rfl, by simp [hw], fun r => .inl rfl⟩
  · have hlt : w < d.widgets.length := h.widgets _ (List.mem_of_getElem? hc) w hw
    have hx : d.widgets[w]? = some d.widgets[w] := List.getElem?_eq_getElem hlt
    obtain ⟨view, hview, hshow⟩ := showInWidget (d := { d with
      contents := d.contents.set panel (.graph { c with graph := some ref }) }) hx
      (h.cameras _ (List.getElem_mem hlt)) ref
    rw [onWidget_some hw]
    refine ⟨_, hshow, rfl, rfl, fun w' hw' => ?_, graphs_setGraph _ _ ref⟩
    obtain rfl := Option.some.inj (hw.symm.trans hw')
    exact ⟨{ d.widgets[w] with view }, by simp [hx], hview⟩

end

end DebugDesk.Desk
