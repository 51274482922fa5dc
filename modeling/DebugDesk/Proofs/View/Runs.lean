import DebugDesk.Proofs.View.Phases
import DebugDesk.View.Pointer

/-!
# Runs of a view

A view is shown graphs of a store, follows gestures, and makes frames, while whoever has the graphs
adds to them and numbers them. A call that fails leaves everything as it is, a frame that fails
leaves the view that it has made by then.
-/
namespace DebugDesk

inductive CameraCall (α : Type) where
  | setSize (width height : α)
  | setPosition (x y : α)
  | recenter (p : Point α)
  | setZoom (zoom : α)
  | zoomToFit (width height margin : α)
  | pointerDown (p : Point α)
  | pointerMove (p : Point α)
  | pointerUp
  | wheel (delta : α)
  | touchMove (touches : List (Point α))
  | touchEnd

inductive GraphChange where
  | addVertex
  | addEdge (source target : Endpoint)
  | updateIdentifiers

inductive View.Gesture (α : Type) where
  | pointerDown (p : Point α)
  | pointerMove (p : Point α)
  | pointerUp (p : Point α) (time : α)
  | wheel (delta : α)
  | recenter
  | zoomToFit
  | setSuppressed (suppressed : Bool)
  | selectAt (p : Point α)
  | camera (call : CameraCall α)

namespace CameraCall

variable {α : Type} [RootScalar α] {c d : Camera α}

def apply (c : Camera α) : CameraCall α → Except Fault (Camera α)
  | setSize width height => .ok (c.setSize width height)
  | setPosition x y => .ok (c.setPosition x y)
  | recenter p => .ok (c.recenter p)
  | setZoom zoom => .ok (c.setZoom zoom)
  | zoomToFit width height margin => c.zoomToFit width height margin
  | pointerDown p => c.pointerDown p
  | pointerMove p => Prod.snd <$> c.pointerMove p
  | pointerUp => .ok c.pointerUp
  | wheel delta => .ok (c.wheel delta)
  | touchMove touches => c.touchMove touches
  | touchEnd => .ok c.touchEnd

theorem moves {call : CameraCall α} (h : call.apply c = .ok d) : c.Moves d := by
  cases call with
  | setSize width height => exact Except.ok.inj h ▸ c.moves_setSize width height
  | setPosition x y => exact Except.ok.inj h ▸ c.moves_setPosition x y
  | recenter p => exact Except.ok.inj h ▸ c.moves_recenter p
  | setZoom zoom => exact Except.ok.inj h ▸ c.moves_setZoom zoom
  | zoomToFit width height margin => exact Camera.moves_zoomToFit h
  | pointerDown p => exact Camera.moves_pointerDown h
  | pointerMove p =>
    rcases hm : c.pointerMove p with fault | ⟨moved, e⟩
    · simp [apply, hm] at h
    · have he : e = d := by simpa [apply, hm] using h
      exact he ▸ Camera.moves_pointerMove hm
  | pointerUp => exact Except.ok.inj h ▸ c.moves_pointerUp
  | wheel delta => exact Except.ok.inj h ▸ c.moves_wheel delta
  | touchMove touches => exact Camera.moves_touchMove h
  | touchEnd => exact Except.ok.inj h ▸ c.moves_touchEnd

end CameraCall

namespace GraphChange

def apply (g : Graph) : GraphChange → Graph
  | addVertex => g.addVertex
  | addEdge source target =>
    if g.HasEnd source ∧ g.HasEnd target then g.addEdge source target else g
  | updateIdentifiers => g.updateIdentifiers

theorem built {g : Graph} (h : g.Built) (change : GraphChange) : (change.apply g).Built := by
  cases change with
  | addVertex => exact h.addVertex
  | addEdge source target =>
    unfold apply
    dsimp only
    split
    next hends => exact h.addEdge hends.1 hends.2
    next => exact h
  | updateIdentifiers => exact h.updateIdentifiers

theorem grows (g : Graph) (change : GraphChange) : View.Grows g (change.apply g) := by
  cases change with
  | addVertex =>
    have hsize : g.addVertex.size = g.size + 1 := by simp [Graph.size, Graph.addVertex]
    refine ⟨?_, fun h => ?_, id⟩
    · change g.size ≤ g.addVertex.size
      omega
    · change g.addVertex.size = g.size at h
      omega
  | addEdge source target =>
    unfold apply
    dsimp only
    split
    · exact ⟨Nat.le_refl _, fun _ h => h, fun _ => by simp [Graph.addEdge]⟩
    · exact .refl g
  | updateIdentifiers =>
    exact ⟨Nat.le_of_eq (Graph.size_updateIdentifiers g).symm,
      fun _ _ => Graph.verifyIntegrity_updateIdentifiers g, id⟩

end GraphChange

namespace View

variable {α : Type} [Scalar α] {v w : View α} {gs hs : GraphStore}

/-- What a gesture may do to a view and the graphs: it makes nothing new, and asks for a repaint of
what it changes. -/
structure Touched (v : View α) (gs : GraphStore) (w : View α) (hs : GraphStore) : Prop
    extends v.Alike w where
  style : w.style = v.style
  edges : w.edges = v.edges
  camera : v.camera.Moves w.camera
  marked : v.needsRender = true → w.needsRender = true
  graphs : hs = gs ∨ ∃ ref choice, v.graph = some ref ∧
    hs = gs.put ref ((gs.graph ref).select choice).1 ∧
    (((gs.graph ref).select choice).2 = true → w.needsRender = true)

theorem grows_select (g : Graph) (choice : Option Endpoint) : Grows g (g.select choice).1 := by
  refine ⟨Nat.le_of_eq (Graph.size_select g choice).symm, fun _ h => ?_, id⟩
  rw [Graph.verifyIntegrity_iff, Graph.ids_select, ← Graph.verifyIntegrity_iff]
  exact h

theorem Touched.graph_cases (h : v.Touched gs w hs) (ref : Nat) :
    hs.graph ref = gs.graph ref ∨ ∃ choice, hs.graph ref = ((gs.graph ref).select choice).1 := by
  rcases h.graphs with rfl | ⟨r, choice, -, rfl, -⟩
  · exact .inl rfl
  · rcases gs.graph_put r ((gs.graph r).select choice).1 ref with h | ⟨rfl, h⟩
    · exact .inl h
    · exact .inr ⟨choice, h⟩

theorem Touched.grows (h : v.Touched gs w hs) (ref : Nat) :
    Grows (gs.graph ref) (hs.graph ref) := by
  rcases h.graph_cases ref with he | ⟨choice, he⟩
  · exact he ▸ .refl _
  · exact he ▸ grows_select _ choice

theorem grows_push (gs : GraphStore) (provider : ContentProvider) (ref : Nat) :
    Grows (gs.graph ref) ((gs.push (.empty provider)).graph ref) := by
  rcases gs.graph_push (.empty provider) ref with he | ⟨hnone, he⟩
  · exact he ▸ .refl _
  · rw [he, hnone]
    exact ⟨Nat.le_refl _, fun _ _ => rfl, id⟩

theorem grows_change (gs : GraphStore) (ref : Nat) (change : GraphChange) (r : Nat) :
    Grows (gs.graph r) ((gs.change ref change.apply).graph r) := by
  rcases gs.graph_change ref change.apply r with he | ⟨-, he⟩
  · exact he ▸ .refl _
  · exact he ▸ change.grows _

theorem Touched.of_moves {c : Camera α} (h : v.camera.Moves c) (press : Option (Point α))
    (dragged pending : Bool) (clicks : α) :
    v.Touched gs { v with
      camera := c, press, dragged, recenterPending := pending, suppressClicksUntil := clicks } gs :=
  ⟨⟨rfl, rfl, rfl, rfl, rfl, rfl, rfl⟩, rfl, rfl, h, id, .inl rfl⟩

theorem Touched.selectAt (h : v.Touched gs w gs) (p : Point α) :
    v.Touched gs (w.selectAt gs p).view (w.selectAt gs p).graphs := by
  unfold View.selectAt
  split
  next => exact h
  next ref hg =>
    refine ⟨h.toAlike.trans ⟨rfl, rfl, rfl, rfl, rfl, rfl, rfl⟩, h.style, h.edges, h.camera, ?_,
      .inr ⟨ref, _, h.graph ▸ hg, rfl, ?_⟩⟩
    · intro hm
      simp [h.marked hm]
    · intro hc
      simp [hc]

theorem touched_pointerDown {p : Point α} (h : v.pointerDown p = .ok w) : v.Touched gs w gs := by
  obtain ⟨c, hc, h⟩ := Effect.bind_eq_ok h
  cases h
  exact .of_moves (Camera.moves_pointerDown hc) _ _ _ _

theorem touched_pointerUp (v : View α) (gs : GraphStore) (p : Point α) (time : α) :
    v.Touched gs (v.pointerUp gs p time).view (v.pointerUp gs p time).graphs := by
  have hreleased : v.Touched gs { v with camera := v.camera.pointerUp, press := none } gs :=
    .of_moves v.camera.moves_pointerUp _ _ _ _
  unfold pointerUp
  dsimp only
  split
  · exact hreleased
  split
  · exact .of_moves v.camera.moves_pointerUp _ _ _ _
  split
  · exact hreleased
  · exact hreleased.selectAt p

theorem touched_recenter (h : v.recenter gs = .ok w) : v.Touched gs w gs := by
  unfold recenter at h
  split at h
  · cases h
    exact .of_moves .refl _ _ _ _
  · obtain ⟨p, -, h⟩ := Effect.bind_eq_ok h
    cases h
    exact .of_moves (v.camera.moves_recenter p) _ _ _ _

theorem touched_zoomToFit (h : v.zoomToFit = .ok w) : v.Touched gs w gs := by
  unfold zoomToFit at h
  split at h
  · cases h
    exact .of_moves .refl _ _ _ _
  · obtain ⟨c, hc, h⟩ := Effect.bind_eq_ok h
    cases h
    exact .of_moves ((Camera.moves_zoomToFit hc).trans (c.moves_recenter _)) _ _ _ _

end View

theorem View.touched_pointerMove {α : Type} [RootScalar α] {v w : View α} {gs : GraphStore}
    {p : Point α} (h : v.pointerMove p = .ok w) : v.Touched gs w gs := by
  unfold pointerMove at h
  split at h
  · cases h
    exact .of_moves .refl _ _ _ _
  · dsimp only at h
    split at h
    · obtain ⟨⟨moved, c⟩, hc, h⟩ := Effect.bind_eq_ok h
      cases h
      exact .of_moves (Camera.moves_pointerMove hc) _ _ _ _
    · cases h
      exact .of_moves .refl _ _ _ _

namespace View.Gesture

variable {α : Type} [RootScalar α] {v w : View α} {gs hs : GraphStore}

def apply (v : View α) (gs : GraphStore) : Gesture α → Except Fault (View α × GraphStore)
  | pointerDown p => return (← v.pointerDown p, gs)
  | pointerMove p => return (← v.pointerMove p, gs)
  | pointerUp p time => .ok ((v.pointerUp gs p time).view, (v.pointerUp gs p time).graphs)
  | wheel delta => .ok (v.wheel delta, gs)
  | recenter => return (← v.recenter gs, gs)
  | zoomToFit => return (← v.zoomToFit, gs)
  | setSuppressed suppressed => .ok (v.setSuppressed suppressed, gs)
  | selectAt p => .ok ((v.selectAt gs p).view, (v.selectAt gs p).graphs)
  | camera call => return ({ v with camera := ← call.apply v.camera }, gs)

theorem touched {gesture : Gesture α} (h : gesture.apply v gs = .ok (w, hs)) :
    v.Touched gs w hs := by
  cases gesture with
  | pointerDown p =>
    obtain ⟨u, hu, h⟩ := Effect.bind_eq_ok h
    cases h
    exact View.touched_pointerDown hu
  | pointerMove p =>
    obtain ⟨u, hu, h⟩ := Effect.bind_eq_ok h
    cases h
    exact View.touched_pointerMove hu
  | pointerUp p time =>
    cases h
    exact View.touched_pointerUp v gs p time
  | wheel delta =>
    cases h
    exact .of_moves (v.camera.moves_wheel delta) _ _ _ _
  | recenter =>
    obtain ⟨u, hu, h⟩ := Effect.bind_eq_ok h
    cases h
    exact View.touched_recenter hu
  | zoomToFit =>
    obtain ⟨u, hu, h⟩ := Effect.bind_eq_ok h
    cases h
    exact View.touched_zoomToFit hu
  | setSuppressed suppressed =>
    cases h
    exact ⟨⟨rfl, rfl, rfl, rfl, rfl, rfl, rfl⟩, rfl, rfl, .refl,
      fun hm => by simp [View.setSuppressed, hm], .inl rfl⟩
  | selectAt p =>
    cases h
    exact (View.Touched.of_moves .refl _ _ _ _).selectAt p
  | camera call =>
    obtain ⟨c, hc, h⟩ := Effect.bind_eq_ok h
    cases h
    exact .of_moves (CameraCall.moves hc) _ _ _ _

end View.Gesture

inductive View.Happening (α : Type) where
  | create (provider : ContentProvider)
  | alter (ref : Nat) (change : GraphChange)
  | setGraph (graph : Option Nat)
  | gesture (gesture : Gesture α)
  | update (engine : LayoutEngine α) (measure : Measure Id α)

structure View.Stage (α : Type) where
  view : View α
  graphs : GraphStore
  attempt : Option View.Attempt
  painted : Option (List (DrawOp α))

namespace View.Stage

section

variable {α : Type} [Scalar α] (s : Stage α) (engine : LayoutEngine α) (measure : Measure Id α)

def start (camera : Camera α) (style : ViewStyle α) (dragThreshold clickSuppression : α) :
    Stage α :=
  ⟨.make camera style dragThreshold clickSuppression, [], none, none⟩

def frame : Except Fault (Option (List (DrawOp α))) × View α :=
  Effect.outcome (View.update engine measure s.graphs) s.view

def framed : Stage α :=
  { s with
    view := (s.frame engine measure).2
    attempt := (View.attempt? engine measure s.view s.graphs).or s.attempt
    painted := (s.frame engine measure).1.toOption.join.or s.painted }

end

variable {α : Type} [RootScalar α] {s : Stage α}

def step (s : Stage α) : Happening α → Stage α
  | .create provider => { s with graphs := s.graphs.push (.empty provider) }
  | .alter ref change => { s with graphs := s.graphs.change ref change.apply }
  | .setGraph graph =>
    if graph.all (· < s.graphs.length) then
      { s with view := (s.view.setGraph s.graphs graph).1
               graphs := (s.view.setGraph s.graphs graph).2 }
    else s
  | .gesture gesture =>
    match gesture.apply s.view s.graphs with
    | .ok (view, graphs) => { s with view, graphs }
    | .error _ => s
  | .update engine measure => s.framed engine measure

def run (s : Stage α) (happenings : List (Happening α)) : Stage α := happenings.foldl step s

structure Coherent (s : Stage α) : Prop where
  built : ∀ ref, (s.graphs.graph ref).Built
  camera : s.view.camera.Sound
  phase : s.view.Phase s.graphs s.attempt

theorem coherent_start {camera : Camera α} (hc : camera.Sound) (style : ViewStyle α)
    (dragThreshold clickSuppression : α) :
    (start camera style dragThreshold clickSuppression).Coherent :=
  ⟨fun _ => Graph.built_empty _, hc, .fresh rfl rfl rfl rfl rfl⟩

theorem Coherent.of_touched {v : View α} {gs : GraphStore} (hs : s.Coherent)
    (h : s.view.Touched s.graphs v gs) :
    ({ s with view := v, graphs := gs } : Stage α).Coherent := by
  refine ⟨fun ref => ?_, h.camera.sound hs.camera,
    hs.phase.of_alike h.toAlike fun ref _ => h.grows ref⟩
  rcases h.graph_cases ref with he | ⟨choice, he⟩
  · exact he ▸ hs.built ref
  · exact he ▸ (hs.built ref).select choice

theorem Coherent.create (hs : s.Coherent) (provider : ContentProvider) :
    (s.step (.create provider)).Coherent := by
  refine ⟨fun ref => ?_, hs.camera, hs.phase.of_alike (.refl _) fun ref _ =>
    View.grows_push s.graphs provider ref⟩
  rcases s.graphs.graph_push (.empty provider) ref with he | ⟨-, he⟩
  · exact he ▸ hs.built ref
  · exact he ▸ Graph.built_empty provider

theorem Coherent.alter (hs : s.Coherent) (ref : Nat) (change : GraphChange) :
    (s.step (.alter ref change)).Coherent := by
  refine ⟨fun r => ?_, hs.camera, hs.phase.of_alike (.refl _) fun r _ =>
    View.grows_change s.graphs ref change r⟩
  rcases s.graphs.graph_change ref change.apply r with he | ⟨-, he⟩
  · exact he ▸ hs.built r
  · exact he ▸ change.built (hs.built r)

theorem Coherent.setGraph (hs : s.Coherent) (graph : Option Nat) :
    (s.step (.setGraph graph)).Coherent := by
  unfold step
  dsimp only
  split
  · unfold View.setGraph
    split
    · exact hs
    · refine ⟨fun r => ?_, hs.camera, .fresh rfl rfl rfl rfl rfl⟩
      cases graph with
      | none => exact hs.built r
      | some ref =>
        rcases s.graphs.graph_change ref Graph.updateIdentifiers r with he | ⟨-, he⟩
        · exact he ▸ hs.built r
        · exact he ▸ (hs.built r).updateIdentifiers
  · exact hs

theorem Coherent.gesture (hs : s.Coherent) (gesture : Gesture α) :
    (s.step (.gesture gesture)).Coherent := by
  unfold step
  dsimp only
  split
  next h => exact hs.of_touched (Gesture.touched h)
  next => exact hs

theorem Coherent.prepared (hs : s.Coherent) (engine : LayoutEngine α) (measure : Measure Id α) :
    View.Prepared s.view s.graphs
      (Effect.outcome (View.preprocess engine measure s.graphs) s.view).1
      (Effect.outcome (View.preprocess engine measure s.graphs) s.view).2
      (View.attempt? engine measure s.view s.graphs) :=
  View.prepared engine measure (fun ref _ => hs.built ref) hs.camera hs.phase

theorem Coherent.framed (hs : s.Coherent) (engine : LayoutEngine α) (measure : Measure Id α) :
    (s.framed engine measure).Coherent := by
  have hp := hs.prepared engine measure
  obtain ⟨halike, hcamera⟩ := s.view.alike_update engine measure s.graphs
  exact ⟨hs.built, hcamera (hp.camera hs.camera),
    (hp.phase hs.phase).of_alike halike fun _ _ => .refl _⟩

theorem Coherent.step (hs : s.Coherent) (happening : Happening α) :
    (s.step happening).Coherent := by
  cases happening with
  | create provider => exact hs.create provider
  | alter ref change => exact hs.alter ref change
  | setGraph graph => exact hs.setGraph graph
  | gesture gesture => exact hs.gesture gesture
  | update engine measure => exact hs.framed engine measure

theorem Coherent.run (hs : s.Coherent) (happenings : List (Happening α)) :
    (s.run happenings).Coherent := by
  induction happenings generalizing s with
  | nil => exact hs
  | cons happening rest ih => exact ih (hs.step happening)

end View.Stage

end DebugDesk
