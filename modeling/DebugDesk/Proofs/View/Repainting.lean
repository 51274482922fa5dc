import DebugDesk.Proofs.View.Recovering

/-!
# Repainting

Whatever changes the picture of a view asks for a repaint, through the view or through its camera.
So a view that asks for none shows what it would paint.
-/
namespace DebugDesk

theorem Camera.Still.matrix {α : Type} [Scalar α] {c d : Camera α} (h : c.Still d) :
    d.matrix = c.matrix := by
  simp only [Camera.matrix, h.width, h.height, h.x, h.y, h.zoom]

namespace EdgeRoutes

variable {α : Type} [Scalar α]

theorem route_route (style : EdgeStyle α) (e : EdgeRoutes α) :
    ((e.route style).2.route style).1 = (e.route style).1 := by
  rcases e with ⟨fans, _ | routes⟩ <;> rfl

end EdgeRoutes

namespace View

variable {α : Type} [Scalar α] {v w : View α} {gs hs : GraphStore} {measure : Measure Id α}

/-- A change that whoever has the graph makes selects nothing. -/
theorem selectedIn_change (g : Graph) (change : GraphChange) (i : Nat) :
    selectedIn (some (change.apply g)) i = selectedIn (some g) i := by
  cases change with
  | addVertex =>
    simp only [selectedIn, GraphChange.apply, Graph.addVertex]
    rcases Nat.lt_trichotomy i g.vertices.length with h | rfl | h
    · rw [List.getElem?_append_left h]
    · simp
    · have hout (vertex : Vertex) : (g.vertices ++ [vertex]).length ≤ i := by
        rw [List.length_append]
        exact h
      rw [List.getElem?_eq_none (hout _), List.getElem?_eq_none (Nat.le_of_lt h)]
  | addEdge source target =>
    simp only [GraphChange.apply]
    split <;> rfl
  | updateIdentifiers =>
    simp only [selectedIn, GraphChange.apply, Graph.updateIdentifiers, List.getElem?_map,
      List.getElem?_zipIdx, Option.map_map]
    rfl

/-- A selection that changes nothing leaves all vertices selected as they are. -/
theorem selectedIn_select {g : Graph} {choice : Option Endpoint} (h : (g.select choice).2 = false)
    (i : Nat) : selectedIn (some (g.select choice).1) i = selectedIn (some g) i := by
  simp only [Graph.select, List.any_eq_false, bne_iff_ne, ne_eq, not_not] at h
  simp only [selectedIn, Graph.select, List.getElem?_map, List.getElem?_zipIdx, Option.map_map]
  rcases hv : g.vertices[i]? with _ | vertex
  · rfl
  · have hmem : (vertex, i) ∈ g.vertices.zipIdx := by
      simp [List.mem_zipIdx_iff_getElem?, hv]
    simpa using (h _ hmem).symm

/-- Whether two views look the same. -/
structure Resembles (v : View α) (gs : GraphStore) (w : View α) (hs : GraphStore) : Prop where
  style : w.style = v.style
  error : w.error = v.error
  preprocessed : w.preprocessed = v.preprocessed
  boxes : w.boxes = v.boxes
  routes : (w.edges.route v.style.edge).1 = (v.edges.route v.style.edge).1
  matrix : w.camera.matrix = v.camera.matrix
  width : w.camera.width = v.camera.width
  height : w.camera.height = v.camera.height
  selected : selectedIn (w.shown? hs) = selectedIn (v.shown? gs)

theorem Resembles.pictureNow (h : v.Resembles gs w hs) :
    w.pictureNow measure hs = v.pictureNow measure gs := by
  simp only [View.pictureNow, picture, errorPicture, h.style, h.error, h.preprocessed, h.boxes,
    h.routes, h.matrix, h.width, h.height, h.selected]

theorem Resembles.refl (v : View α) (gs : GraphStore) : v.Resembles gs v gs :=
  ⟨rfl, rfl, rfl, rfl, rfl, rfl, rfl, rfl, rfl⟩

theorem resembles_repainted (w : View α) (gs : GraphStore) : w.Resembles gs w.repainted gs := by
  refine ⟨rfl, rfl, rfl, rfl, ?_, rfl, rfl, rfl, rfl⟩
  change (w.routed.route w.style.edge).1 = _
  unfold routed
  split
  · exact w.edges.route_route w.style.edge
  · rfl

/-- A gesture that asks for no repaint changes nothing that is seen. -/
theorem Touched.resembles (h : v.Touched gs w hs) (hn : w.needsRender = false)
    (hd : w.camera.dirty = false) : v.Resembles gs w hs := by
  have hstill : v.camera.Still w.camera := h.camera.marked.resolve_left (Bool.eq_false_iff.mp hd)
  refine ⟨h.style, h.error, h.preprocessed, h.boxes, by rw [h.edges], hstill.matrix, hstill.width,
    hstill.height, ?_⟩
  simp only [shown?, h.graph]
  rcases h.graphs with rfl | ⟨ref, choice, hg, rfl, hchanged⟩
  · rfl
  · have hsame : ((gs.graph ref).select choice).2 = false := by
      rcases hc : ((gs.graph ref).select choice).2 with _ | _
      · rfl
      · exact nomatch hn.symm.trans (hchanged hc)
    simp only [hg, Option.map_some]
    rcases gs.graph_put ref ((gs.graph ref).select choice).1 ref with he | ⟨-, he⟩
    · rw [he]
    · rw [he]
      exact funext (selectedIn_select hsame)

theorem pictureNow_of_error {message : String} (hv : v.error = some message)
    (hw : w.error = some message) (hs : w.style = v.style) (hc : w.camera = v.camera) :
    w.pictureNow measure gs = v.pictureNow measure gs := by
  simp only [pictureNow, picture, errorPicture, hv, hw, hs, hc]

theorem pictureNow_of_blank (hv : v.error = none) (hv' : v.preprocessed = false)
    (hw : w.error = none) (hw' : w.preprocessed = false) (hs : w.style = v.style) :
    w.pictureNow measure gs = v.pictureNow measure gs := by
  simp only [pictureNow, picture, hv, hv', hw, hw', hs]
  rfl

omit [Scalar α] in
theorem error_of_setError {message : String} (h : (v.setError message).needsRender = false) :
    v.needsRender = false ∧ v.error = some message := by
  simpa [setError] using h

/-- What a frame prepares looks as before, unless it asks for a repaint. -/
theorem Prepared.pictureNow {r : Except Fault Bool} {a : Option Attempt}
    (h : Prepared v gs r w a) (measure : Measure Id α) (hn : w.needsRender = false) :
    v.needsRender = false ∧ w.camera = v.camera ∧
      w.pictureNow measure gs = v.pictureNow measure gs := by
  cases h with
  | blank => exact ⟨hn, rfl, rfl⟩
  | kept => exact ⟨hn, rfl, rfl⟩
  | unnumbered ref graph unnumbered =>
    obtain ⟨hv, herror⟩ := error_of_setError hn
    exact ⟨hv, rfl, pictureNow_of_error herror rfl rfl rfl⟩
  | failed ref boxes fault graph numbered size =>
    obtain ⟨hv, herror⟩ := error_of_setError (v := { v with
      preprocessed := false, boxes, cache := .empty }) hn
    exact ⟨hv, rfl, pictureNow_of_error herror rfl rfl rfl⟩
  | drawn => exact nomatch hn
  | missing ref l boxes a graph bare covers error failed preprocessed =>
    exact ⟨hn, rfl, pictureNow_of_blank error preprocessed error rfl rfl⟩

theorem Prepared.marked {r : Except Fault Bool} {a : Option Attempt} (h : Prepared v gs r w a)
    (hn : v.needsRender = true) : w.needsRender = true := by
  cases h with
  | unnumbered => simp [setError, hn]
  | failed => simp [setError, hn]
  | drawn => rfl
  | _ => exact hn

theorem Prepared.suppressed {r : Except Fault Bool} {a : Option Attempt}
    (h : Prepared v gs r w a) : w.suppressed = v.suppressed := by
  cases h <;> rfl

end View

namespace View.Stage

variable {α : Type} [RootScalar α] {s : Stage α} {measure : Measure Id α}

/-- Whether what was painted last is what would be painted now, unless a repaint is asked for. -/
def Current (measure : Measure Id α) (s : Stage α) : Prop :=
  s.view.needsRender = false → s.view.camera.dirty = false →
    s.painted = some (s.view.pictureNow measure s.graphs)

theorem Current.of_touched {v : View α} {gs : GraphStore} (hc : s.Current measure)
    (h : s.view.Touched s.graphs v gs) :
    ({ s with view := v, graphs := gs } : Stage α).Current measure := by
  intro hn hd
  have hstill : s.view.camera.Still v.camera :=
    h.camera.marked.resolve_left (Bool.eq_false_iff.mp hd)
  have hbefore : s.view.needsRender = false :=
    Bool.eq_false_iff.mpr fun hm => nomatch hn.symm.trans (h.marked hm)
  rw [(h.resembles hn hd).pictureNow]
  exact hc hbefore (hstill.dirty.symm.trans hd)

/-- A change of the graphs that selects nothing in the graph that is shown. -/
theorem Current.of_selected {gs : GraphStore} (hc : s.Current measure)
    (h : ∀ ref i, selectedIn (some (gs.graph ref)) i = selectedIn (some (s.graphs.graph ref)) i) :
    ({ s with graphs := gs } : Stage α).Current measure := by
  intro hn hd
  have hresembles : s.view.Resembles s.graphs s.view gs := by
    refine { Resembles.refl s.view s.graphs with selected := ?_ }
    unfold shown?
    rcases s.view.graph with _ | ref
    · rfl
    · exact funext (h ref)
  rw [hresembles.pictureNow]
  exact hc hn hd

theorem Current.create (hc : s.Current measure) (provider : ContentProvider) :
    (s.step (.create provider)).Current measure := by
  refine hc.of_selected fun ref i => ?_
  rcases s.graphs.graph_push (.empty provider) ref with he | ⟨hnone, he⟩
  · rw [he]
  · rw [he, hnone]
    rfl

theorem Current.alter (hc : s.Current measure) (ref : Nat) (change : GraphChange) :
    (s.step (.alter ref change)).Current measure := by
  refine hc.of_selected fun r i => ?_
  rcases s.graphs.graph_change ref change.apply r with he | ⟨-, he⟩
  · rw [he]
  · rw [he]
    exact selectedIn_change _ change i

theorem Current.setGraph (hc : s.Current measure) (graph : Option Nat) :
    (s.step (.setGraph graph)).Current measure := by
  unfold step
  dsimp only
  split
  · unfold View.setGraph
    split
    · exact hc
    · exact fun hn _ => nomatch hn
  · exact hc

theorem Current.gesture (hc : s.Current measure) (gesture : Gesture α) :
    (s.step (.gesture gesture)).Current measure := by
  unfold step
  dsimp only
  split
  next h => exact hc.of_touched (Gesture.touched h)
  next => exact hc

theorem Current.framed (hc : s.Current measure) (hs : s.Coherent) (engine : LayoutEngine α) :
    (s.framed engine measure).Current measure := by
  intro hn hd
  change (s.frame engine measure).2.needsRender = false at hn
  change (s.frame engine measure).2.camera.dirty = false at hd
  change (s.frame engine measure).1.toOption.join.or s.painted =
    some ((s.frame engine measure).2.pictureNow measure s.graphs)
  have hp := hs.prepared engine measure
  rcases ho : Effect.outcome (preprocess engine measure s.graphs) s.view with ⟨r, w⟩
  rw [ho] at hp
  -- Without a repaint the picture is the one before the frame.
  have hkept (hn : w.needsRender = false) (hd : w.camera.dirty = false) :
      s.painted = some (w.pictureNow measure s.graphs) := by
    obtain ⟨hv, hcamera, hpicture⟩ := hp.pictureNow measure hn
    rw [hpicture]
    exact hc hv (hcamera ▸ hd)
  cases r with
  | error fault =>
    rw [frame_of_error ho] at hn hd ⊢
    exact hkept hn hd
  | ok answer =>
    have hframe := frame_of_ok ho
    split at hframe
    · rw [hframe] at hn hd ⊢
      exact hkept hn hd
    split at hframe
    · rw [hframe]
      exact congrArg some (resembles_repainted w s.graphs).pictureNow.symm
    next hmarked =>
      rw [hframe]
      simp only [Bool.or_eq_true, not_or, Bool.not_eq_true] at hmarked
      exact hkept hmarked.1 hmarked.2

/-- Whether all frames measure texts by the same function. -/
def OnSurface (measure : Measure Id α) (happenings : List (Happening α)) : Prop :=
  ∀ engine m, .update engine m ∈ happenings → m = measure

theorem Current.run (hc : s.Current measure) (hs : s.Coherent) {happenings : List (Happening α)}
    (hm : OnSurface measure happenings) : (s.run happenings).Current measure := by
  induction happenings generalizing s with
  | nil => exact hc
  | cons happening rest ih =>
    refine ih ?_ (hs.step happening) fun engine m h => hm engine m (List.mem_cons_of_mem _ h)
    cases happening with
    | create provider => exact hc.create provider
    | alter ref change => exact hc.alter ref change
    | setGraph graph => exact hc.setGraph graph
    | gesture gesture => exact hc.gesture gesture
    | update engine m =>
      obtain rfl := hm engine m (List.mem_cons_self ..)
      exact hc.framed hs engine

/-- Only frames paint, so what asks for a repaint does so until the next frame. -/
theorem needsRender_step {happening : Happening α} (hn : s.view.needsRender = true)
    (hu : ∀ engine m, happening ≠ .update engine m) :
    (s.step happening).view.needsRender = true := by
  cases happening with
  | create provider => exact hn
  | alter ref change => exact hn
  | setGraph graph =>
    unfold step View.setGraph
    dsimp only
    split
    · split
      · exact hn
      · rfl
    · exact hn
  | gesture gesture =>
    unfold step
    dsimp only
    split
    next h => exact (Gesture.touched h).marked hn
    next => exact hn
  | update engine m => exact absurd rfl (hu engine m)

theorem needsRender_run {happenings : List (Happening α)} (hn : s.view.needsRender = true)
    (hu : ∀ engine m, .update engine m ∉ happenings) :
    (s.run happenings).view.needsRender = true := by
  induction happenings generalizing s with
  | nil => exact hn
  | cons happening rest ih =>
    refine ih (needsRender_step hn fun engine m he => ?_) fun engine m h =>
      hu engine m (List.mem_cons_of_mem _ h)
    exact hu engine m (he ▸ List.mem_cons_self ..)

/-- A frame that is suppressed paints nothing. -/
theorem Coherent.frame_suppressed (hs : s.Coherent) (engine : LayoutEngine α)
    (measure : Measure Id α) (hsup : s.view.suppressed = true) (ops : List (DrawOp α)) :
    (s.frame engine measure).1 ≠ .ok (some ops) := by
  have hp := hs.prepared engine measure
  rcases ho : Effect.outcome (preprocess engine measure s.graphs) s.view with ⟨fault | answer, w⟩
  · simp [frame_of_error ho]
  · rw [ho] at hp
    have hw : w.suppressed = true := hp.suppressed.trans hsup
    simp [frame_of_ok ho, hw]

/-- A frame that is asked for a repaint and not suppressed paints, unless it fails. -/
theorem Coherent.frame_paints (hs : s.Coherent) (engine : LayoutEngine α)
    (measure : Measure Id α) (hn : s.view.needsRender = true) (hsup : s.view.suppressed = false) :
    (∃ ops, (s.frame engine measure).1 = .ok (some ops)) ∨
      s.Stuck ∧ (s.frame engine measure).1 = .error .missing := by
  rcases hs.frame_cases engine measure with hfails | ⟨-, ⟨painted, hok⟩, -⟩
  · exact .inr hfails
  have hp := hs.prepared engine measure
  rcases ho : Effect.outcome (preprocess engine measure s.graphs) s.view with ⟨fault | answer, w⟩
  · rw [frame_of_error ho] at hok
    exact nomatch hok
  · rw [ho] at hp
    have hw : w.suppressed = false := hp.suppressed.trans hsup
    have hmarked : w.needsRender = true := hp.marked hn
    exact .inl ⟨w.pictureNow measure s.graphs, by simp [frame_of_ok ho, hw, hmarked]⟩

/-- A frame that is not suppressed does all that was asked for. -/
theorem Coherent.frame_unmarked (hs : s.Coherent) {engine : LayoutEngine α}
    {measure : Measure Id α} {painted : Option (List (DrawOp α))}
    (hok : (s.frame engine measure).1 = .ok painted) (hsup : s.view.suppressed = false) :
    (s.frame engine measure).2.needsRender = false ∧
      (s.frame engine measure).2.camera.dirty = false := by
  have hp := hs.prepared engine measure
  rcases ho : Effect.outcome (preprocess engine measure s.graphs) s.view with ⟨fault | answer, w⟩
  · rw [frame_of_error ho] at hok
    exact nomatch hok
  · rw [ho] at hp
    have hw : w.suppressed = false := hp.suppressed.trans hsup
    rw [frame_of_ok ho, if_neg (by simp [hw])]
    split
    · exact ⟨rfl, rfl⟩
    next hmarked =>
      simp only [Bool.or_eq_true, not_or, Bool.not_eq_true] at hmarked
      exact ⟨hmarked.1, rfl⟩

/-- In every run on one surface, a frame that is not suppressed leaves what would be painted now as
what was painted last, whether it painted or not; a suppressed one paints nothing; and the first
frame after redraw was resumed paints. Where an edge between strangers was added, it may fail
instead, on a graph that has edges but no vertices. -/
theorem run_repaints {width height : α} {settings : CameraSettings α} {camera : Camera α}
    (hmake : Camera.make width height settings = .ok camera) (style : ViewStyle α)
    (dragThreshold clickSuppression : α) {measure : Measure Id α}
    {happenings : List (Happening α)} (hm : OnSurface measure happenings)
    (engine : LayoutEngine α) :
    let s := (start camera style dragThreshold clickSuppression).run happenings
    let t := s.step (.update engine measure)
    (∀ painted, (s.frame engine measure).1 = .ok painted → s.view.suppressed = false →
      t.painted = some (t.view.render (m := Id) measure t.graphs).1) ∧
    (s.view.suppressed = true → t.painted = s.painted ∧
      ∀ ops, (s.frame engine measure).1 ≠ .ok (some ops)) ∧
    ∀ others, (∀ engine m, .update engine m ∉ others) →
      let u := (s.step (.gesture (.setSuppressed false))).run others
      u.view.suppressed = false →
        ((∃ ops, (u.frame engine measure).1 = .ok (some ops)) ∨
          u.Stuck ∧ (u.frame engine measure).1 = .error .missing) ∧
        ((∀ happening ∈ happenings ++ others, OwnEdge happening) →
          ∃ ops, (u.frame engine measure).1 = .ok (some ops)) := by
  intro s t
  have hstart := coherent_start (Camera.sound_of_make hmake) style dragThreshold clickSuppression
  have hunpainted : (start camera style dragThreshold clickSuppression).Current measure :=
    fun hn => absurd (hn : true = false) Bool.noConfusion
  have hs : s.Coherent := hstart.run happenings
  have hc : s.Current measure := hunpainted.run hstart hm
  refine ⟨fun painted hok hsup => ?_, fun hsup => ?_, fun others hu hsup => ?_⟩
  · obtain ⟨hn, hd⟩ := hs.frame_unmarked hok hsup
    rw [render_eq]
    exact hc.framed hs engine hn hd
  · have hunpainting := hs.frame_suppressed engine measure hsup
    refine ⟨?_, hunpainting⟩
    change (s.frame engine measure).1.toOption.join.or s.painted = s.painted
    rcases hr : (s.frame engine measure).1 with fault | _ | ops
    · rfl
    · rfl
    · exact absurd hr (hunpainting ops)
  · have hresumed : (s.step (.gesture (.setSuppressed false))).view.needsRender = true := by
      simp [step, Gesture.apply, setSuppressed]
    have hu' := (hs.gesture (.setSuppressed false)).run others
    have hpaints := hu'.frame_paints engine measure (needsRender_run hresumed hu) hsup
    refine ⟨hpaints, fun hown => hpaints.resolve_right fun hstuck => ?_⟩
    have htied : (start camera style dragThreshold clickSuppression).Tied :=
      fun _ _ he => absurd he List.not_mem_nil
    have hs' : s.Tied := htied.run fun x hx => hown x (List.mem_append_left _ hx)
    have hresumes : (s.step (.gesture (.setSuppressed false))).Tied := hs'.step trivial
    have htied' := hresumes.run fun x hx => hown x (List.mem_append_right _ hx)
    exact htied'.not_stuck hu' hstuck.1

/-- A view paints that a vertex has no identifier, and a click hits nothing. -/
def clicked : List (Happening Float) :=
  [.create .nothing, .setGraph (some 0), .alter 0 .addVertex,
    .update piling RecordingSurface.measure, .gesture (.selectAt ⟨0.0, 0.0⟩)]

theorem onSurface_clicked : OnSurface RecordingSurface.measure clicked := by
  intro engine m h
  simp only [clicked, List.mem_cons, List.not_mem_nil, reduceCtorEq, false_or, or_false,
    Happening.update.injEq] at h
  exact h.2

theorem clicked_repaints :
    let s := (start opened .standard View.standardDragThreshold
      View.standardClickSuppression).run clicked
    (s.frame piling RecordingSurface.measure).1 = .ok none ∧
      (s.step (.update piling RecordingSurface.measure)).painted =
        some ((s.step (.update piling RecordingSurface.measure)).view.render
          (m := Id) RecordingSurface.measure
          (s.step (.update piling RecordingSurface.measure)).graphs).1 := by
  have hnone : (((start opened .standard View.standardDragThreshold
      View.standardClickSuppression).run clicked).frame piling RecordingSurface.measure).1 =
        .ok none := rfl
  obtain ⟨hcurrent, -, -⟩ := run_repaints make_opened .standard View.standardDragThreshold
    View.standardClickSuppression onSurface_clicked piling
  exact ⟨hnone, hcurrent none hnone rfl⟩

/-- The first frame after redraw was resumed need not paint: an edge between strangers on a graph
without vertices makes it fail, and nothing was ever painted. -/
theorem resumed_bare_graph_unpainted :
    let s := (start opened .standard View.standardDragThreshold View.standardClickSuppression).run
      [.create .nothing, .alter 0 (.addEdge (.outside 0 unassigned) (.outside 0 unassigned)),
        .setGraph (some 0), .gesture (.setSuppressed true), .gesture (.setSuppressed false)]
    s.view.suppressed = false ∧
      (s.frame piling RecordingSurface.measure).1 = .error .missing ∧
      (s.step (.update piling RecordingSurface.measure)).painted = none :=
  ⟨rfl, rfl, rfl⟩

end View.Stage

end DebugDesk
