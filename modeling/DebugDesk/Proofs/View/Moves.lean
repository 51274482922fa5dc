import DebugDesk.Proofs.View.Selecting

/-!
# Moves

Whoever has a graph may also choose its root. A view makes nothing of that before it is recentered,
so what is kept by all that is done to a view is kept then, too.
-/
namespace DebugDesk

namespace Graph

def rooted (g : Graph) (root : Endpoint) : Graph :=
  if g.HasEnd root then (g.setRoot root).toOption.getD g else g

theorem rooted_cases (g : Graph) (root : Endpoint) :
    g.rooted root = g ∨ ∃ i, i < g.size ∧ g.rooted root = { g with rootSet := some i } := by
  unfold rooted
  split
  next hend =>
    cases root with
    | inside i => exact .inr ⟨i, hend, rfl⟩
    | outside number id => exact .inl rfl
  next => exact .inl rfl

theorem Built.rooted {g : Graph} (h : g.Built) (root : Endpoint) : (g.rooted root).Built := by
  rcases g.rooted_cases root with he | ⟨i, -, he⟩
  · rwa [he]
  · rw [he]
    exact ⟨h.ids, h.ends⟩

theorem grows_rooted (g : Graph) (root : Endpoint) : View.Grows g (g.rooted root) := by
  rcases g.rooted_cases root with he | ⟨i, -, he⟩
  · rw [he]
    exact .refl g
  · rw [he]
    exact ⟨Nat.le_refl _, fun _ h => h, id⟩

/-- What a move makes of a graph. One that spares the graph gives it no vertex and no other root. -/
inductive Turns (spared : Prop) (g : Graph) : Graph → Prop
  | same : Turns spared g g
  | made (provider : ContentProvider) (bare : g = .empty .nothing) :
    Turns spared g (.empty provider)
  | grown (free : ¬spared) : Turns spared g g.addVertex
  | rooted (root : Endpoint) (free : ¬spared) : Turns spared g (g.rooted root)
  | linked (source target : Endpoint) :
    Turns spared g ((GraphChange.addEdge source target).apply g)
  | numbered : Turns spared g g.updateIdentifiers
  | selected (choice : Option Endpoint) : Turns spared g (g.select choice).1

theorem turns_change (spared : Prop) (g : Graph) {change : GraphChange}
    (h : change = .addVertex → ¬spared) : Turns spared g (change.apply g) := by
  cases change with
  | addVertex => exact .grown (h rfl)
  | addEdge source target => exact .linked source target
  | updateIdentifiers => exact .numbered

end Graph

namespace View

inductive Move (α : Type) where
  | deed (deed : Deed α)
  | root (ref : Nat) (vertex : Endpoint)

/-- Whether a move makes what a frame makes. -/
def Move.Frames {α : Type} : Move α → Prop
  | .deed d => d.Frames
  | .root .. => False

/-- Whether a move gives no vertex and no other root to a graph. -/
def Move.Spares {α : Type} (ref : Nat) : Move α → Prop
  | .deed (.happens (.alter r .addVertex)) | .root r _ => r ≠ ref
  | _ => True

namespace Ledger

variable {α : Type} [RootScalar α] {s t : Ledger α}

def go (s : Ledger α) : Move α → Ledger α
  | .deed deed => s.step deed
  | .root ref vertex => s.moved s.view (s.graphs.change ref (·.rooted vertex))

def goAll (s : Ledger α) (moves : List (Move α)) : Ledger α := moves.foldl go s

theorem quiet_root (s : Ledger α) (ref : Nat) (vertex : Endpoint) :
    s.Quiet (s.go (.root ref vertex)) := by
  have hchange (r : Nat) := s.graphs.graph_change ref (·.rooted vertex) r
  have hgrows (r : Nat) : Grows (s.graphs.graph r)
      ((s.graphs.change ref (·.rooted vertex)).graph r) := by
    rcases hchange r with he | ⟨-, he⟩
    · exact he ▸ .refl _
    · exact he ▸ Graph.grows_rooted _ vertex
  refine ⟨rfl, hgrows, .inl (.refl _), fun attempt hc => ⟨fun r => ?_, hc.camera,
    hc.phase.of_alike (.refl _) fun r _ => hgrows r⟩⟩
  rcases hchange r with he | ⟨-, he⟩
  · exact he ▸ hc.built r
  · exact he ▸ (hc.built r).rooted vertex

theorem quiet_go (s : Ledger α) {move : Move α} (h : ¬move.Frames) : s.Quiet (s.go move) := by
  cases move with
  | deed deed => exact s.quiet_step h
  | root ref vertex => exact s.quiet_root ref vertex

theorem Kept.go (h : s.Kept) (move : Move α) : (s.go move).Kept := by
  cases move with
  | deed deed => exact h.step deed
  | root ref vertex => exact h.of_quiet (s.quiet_root ref vertex)

/-- A view that was made for a camera, and whatever was done then. -/
inductive Reached : Ledger α → Prop
  | start {camera : Camera α} (sound : camera.Sound) (style : ViewStyle α)
    (dragThreshold clickSuppression : α) :
    Reached (start camera style dragThreshold clickSuppression)
  | go {s : Ledger α} (before : Reached s) (move : Move α) : Reached (s.go move)

theorem Reached.goAll (h : s.Reached) (moves : List (Move α)) : (s.goAll moves).Reached := by
  induction moves generalizing s with
  | nil => exact h
  | cons move moves ih => exact ih (h.go move)

theorem Reached.kept (h : s.Reached) : s.Kept := by
  induction h with
  | start sound style dragThreshold clickSuppression =>
    exact kept_start sound style dragThreshold clickSuppression
  | go _ move ih => exact ih.go move

theorem style_between (s : Ledger α) {move : Move α} (hm : ¬move.Frames) :
    (s.go move).view.style = s.view.style := by
  rcases move with ((_ | _ | graph | gesture | _) | _ | measure | _) | _
  case deed.happens.setGraph =>
    change ((s.stage none).step (.setGraph graph)).view.style = s.view.style
    unfold Stage.step View.setGraph
    dsimp only
    split
    · split <;> rfl
    · rfl
  case deed.happens.gesture =>
    rcases h : gesture.apply s.view s.graphs with fault | ⟨w, hs⟩
    · rw [go, step_gesture_error h]
    · rw [go, step_gesture h]
      exact (Gesture.touched h).style
  case deed.render => exact congrArg (·.2.style) (render_eq measure s.graphs s.view)
  case deed.happens.update | deed.preprocess => exact absurd trivial hm
  all_goals rfl

/-- Between frames a view makes nothing new; another graph that is shown is not laid out. -/
theorem Kept.between (h : s.Kept) {move : Move α} (hm : ¬move.Frames) :
    s.view.Alike (s.go move).view ∨ (s.go move).view.layout = none := by
  refine (s.quiet_go hm).view.imp_right ?_
  rintro ⟨-, hcache, -⟩
  obtain ⟨attempt, hcoherent⟩ := (h.go move).coherent
  cases hcoherent.phase with
  | fresh layout => exact layout
  | stuck r l _ _ _ _ _ cache => cases hcache.symm.trans cache
  | failing r _ _ layout => exact layout
  | drawn r n l _ _ _ _ _ _ cache => cases hcache.symm.trans cache

/-- What is laid out is drawn, whole, unless there are only edges. -/
theorem Kept.preprocessed (h : s.Kept) {ref : Nat} {l : Layout α} (hg : s.view.graph = some ref)
    (hl : s.view.layout = some l) (he : (s.graphs.graph ref).edges = []) :
    s.view.preprocessed = true := by
  obtain ⟨attempt, hcoherent⟩ := h.coherent
  cases hcoherent.phase with
  | fresh layout => cases layout.symm.trans hl
  | stuck r k graph edges =>
    obtain rfl : ref = r := Option.some.inj (hg.symm.trans graph)
    exact absurd he edges
  | failing r graph size layout => cases layout.symm.trans hl
  | drawn r n k graph size numbered covers layout error cache failed preprocessed =>
    exact preprocessed

omit [RootScalar α] in
theorem turns_setGraph (v : View α) (gs : GraphStore) (graph : Option Nat) (spared : Prop)
    (ref : Nat) : Graph.Turns spared (gs.graph ref) ((v.setGraph gs graph).2.graph ref) := by
  unfold setGraph
  split
  · exact .same
  · cases graph with
    | none => exact .same
    | some r =>
      rcases gs.graph_change r Graph.updateIdentifiers ref with he | ⟨-, he⟩
      · exact he ▸ .same
      · exact he ▸ .numbered

theorem turns_gesture (s : Ledger α) (gesture : Gesture α) (spared : Prop) (ref : Nat) :
    Graph.Turns spared (s.graphs.graph ref)
      ((s.step (.happens (.gesture gesture))).graphs.graph ref) := by
  rcases h : gesture.apply s.view s.graphs with fault | ⟨w, hs⟩
  · rw [step_gesture_error h]
    exact .same
  · rw [step_gesture h]
    rcases (Gesture.touched h).graph_cases ref with he | ⟨choice, he⟩
    · exact he ▸ .same
    · exact he ▸ .selected choice

/-- What any move makes of any graph. -/
theorem turns_go (s : Ledger α) (move : Move α) (ref : Nat) :
    Graph.Turns (move.Spares ref) (s.graphs.graph ref) ((s.go move).graphs.graph ref) := by
  rcases move with ((provider | ⟨r, change⟩ | graph | gesture | _) | _ | _ | ⟨r, choice⟩) |
    ⟨r, vertex⟩
  case deed.happens.create =>
    change Graph.Turns _ _ ((s.graphs.push (.empty provider)).graph ref)
    rcases s.graphs.graph_push (.empty provider) ref with he | ⟨hbare, he⟩
    · exact he ▸ .same
    · rw [he]
      exact .made provider hbare
  case deed.happens.alter =>
    change Graph.Turns _ _ ((s.graphs.change r change.apply).graph ref)
    rcases s.graphs.graph_change r change.apply ref with he | ⟨hr, he⟩
    · exact he ▸ .same
    · rw [he]
      refine Graph.turns_change _ _ ?_
      rintro rfl hspares
      exact hspares hr.symm
  case deed.happens.setGraph =>
    change Graph.Turns _ _ (((s.stage none).step (.setGraph graph)).graphs.graph ref)
    unfold Stage.step
    dsimp only
    split
    · exact turns_setGraph s.view s.graphs graph _ ref
    · exact .same
  case deed.happens.gesture => exact s.turns_gesture gesture _ ref
  case deed.select =>
    change Graph.Turns _ _ ((s.graphs.put r ((s.graphs.graph r).select choice).1).graph ref)
    rcases s.graphs.graph_put r ((s.graphs.graph r).select choice).1 ref with he | ⟨rfl, he⟩
    · exact he ▸ .same
    · rw [he]
      exact .selected choice
  case root =>
    change Graph.Turns _ _ ((s.graphs.change r (·.rooted vertex)).graph ref)
    rcases s.graphs.graph_change r (·.rooted vertex) ref with he | ⟨hr, he⟩
    · exact he ▸ .same
    · rw [he]
      exact .rooted vertex fun hspares => hspares hr.symm
  all_goals exact .same

end Ledger

section

variable {α : Type} [Scalar α]

/-- What a frame leaves of a view that was prepared, with the answer to that. -/
def afterwards (prepared : Except Fault Bool × View α) : View α :=
  match prepared with
  | (.error _, w) => w
  | (.ok _, w) =>
    if w.suppressed then w else if w.needsRender || w.camera.dirty then w.repainted else w.rested

theorem view_update (engine : LayoutEngine α) (measure : Measure Id α) (gs : GraphStore)
    (v : View α) :
    (Effect.outcome (update engine measure gs) v).2 =
      afterwards (Effect.outcome (preprocess engine measure gs) v) := by
  rw [outcome_update]
  rcases Effect.outcome (preprocess engine measure gs) v with ⟨fault | answer, w⟩
  · rfl
  dsimp only [afterwards]
  split
  · rfl
  split <;> rfl

theorem preprocess_shown {v : View α} {gs : GraphStore} {ref : Nat} {engine : LayoutEngine α}
    {measure : Measure Id α} {l : Layout α} (hg : v.graph = some ref)
    (hs : v.settled ref (gs.graph ref).size = false) (hi : (gs.graph ref).verifyIntegrity = true)
    (hk : v.cache.lookup? ref (gs.graph ref).size = none)
    (hl : (v.laidOut engine measure (gs.graph ref)).1 = .ok l) :
    let w := (Effect.outcome (preprocess engine measure gs) v).2
    w.layout = some l ∧ w.graph = some ref ∧ w.style = v.style := by
  rw [outcome_preprocess_of_laid hg hs hi hk (Prod.ext hl rfl)]
  obtain ⟨hlayout, hgraph, hstyle, -⟩ := Ledger.draw_shown measure gs (gs.graph ref) l
    { v with
      preprocessed := false, boxes := (v.laidOut engine measure (gs.graph ref)).2
      cache := ⟨some (ref, (gs.graph ref).size, l)⟩ }
  exact ⟨hlayout, hgraph.trans hg, hstyle⟩

end

namespace Ledger

variable {α : Type} [RootScalar α] (s : Ledger α) (engine : LayoutEngine α)
  (measure : Measure Id α)

theorem view_step_preprocess : (s.step (.preprocess engine measure)).view =
    (Effect.outcome (preprocess engine measure s.graphs) s.view).2 := by
  change (s.framed (preprocessCounted s.period engine measure s.graphs)).view = _
  rw [framed, counted_preprocess]

theorem view_step_update : (s.step (.happens (.update engine measure))).view =
    afterwards (Effect.outcome (preprocess engine measure s.graphs) s.view) := by
  change (s.framed (updateCounted s.period engine measure s.graphs)).view = _
  rw [framed, counted_update]
  exact view_update engine measure s.graphs s.view

/-- A graph that is laid out for the first time is shown so. -/
theorem go_preprocess_shown {s : Ledger α} {engine : LayoutEngine α} {measure : Measure Id α}
    {ref : Nat} {l : Layout α} (hg : s.view.graph = some ref)
    (hs : s.view.settled ref (s.graphs.graph ref).size = false)
    (hi : (s.graphs.graph ref).verifyIntegrity = true)
    (hk : s.view.cache.lookup? ref (s.graphs.graph ref).size = none)
    (hl : (s.view.laidOut engine measure (s.graphs.graph ref)).1 = .ok l) :
    let t := s.go (.deed (.preprocess engine measure))
    t.view.graph = some ref ∧ t.view.style = s.view.style ∧ t.view.layout = some l := by
  intro t
  obtain ⟨hlayout, hgraph, hstyle⟩ := preprocess_shown hg hs hi hk hl
  rw [← view_step_preprocess] at hlayout hgraph hstyle
  exact ⟨hgraph, hstyle, hlayout⟩

end Ledger

end View

end DebugDesk
