import DebugDesk.Proofs.View.Runs

/-!
# What a frame leaves

After a frame a view is vacant, in the error state, or shows its graph whole, unless it was to draw
a graph that has edges but no vertices: then the frame fails. The error state ends once the
vertices are numbered and the layout succeeds.
-/
namespace DebugDesk

namespace View

variable {α : Type} [Scalar α] {v w : View α} {gs : GraphStore} {attempt : Option Attempt}

structure Vacant (v : View α) : Prop where
  graph : v.graph = none
  error : v.error = none
  layout : v.layout = none

/-- The error state: nothing is laid out, and no vertex is hit. -/
structure Failing (v : View α) : Prop where
  error : v.error.isSome
  layout : v.layout = none
  cache : v.cache = .empty
  unhit : ∀ p, v.vertexAt p = none

structure Showing (v : View α) (gs : GraphStore) : Prop where
  error : v.error = none
  whole : ∃ ref l, v.graph = some ref ∧ v.layout = some l ∧ l.Covers (gs.graph ref).size ∧
    v.boxes.drawings.map VertexDrawing.vertex = List.range (gs.graph ref).size

/-- What a view is after a frame, and why; `attempt` is the latest layout. -/
inductive Settled (v : View α) (gs : GraphStore) (attempt : Option Attempt) : Prop
  | vacant (vacant : v.Vacant)
  | failing (ref : Nat) (graph : v.graph = some ref) (failing : v.Failing)
    (cause : (gs.graph ref).verifyIntegrity = false ∨
      attempt = some ⟨ref, (gs.graph ref).size, true⟩)
  | showing (ref : Nat) (graph : v.graph = some ref) (showing : v.Showing gs)
    (numbered : (gs.graph ref).verifyIntegrity = true)
    (attempted : attempt = some ⟨ref, (gs.graph ref).size, false⟩)

theorem failing_of_error (error : v.error.isSome) (layout : v.layout = none)
    (cache : v.cache = .empty) : v.Failing :=
  ⟨error, layout, cache, fun p => by simp [vertexAt, error]⟩

omit [Scalar α] in
theorem Showing.of_alike (h : v.Showing gs) (ha : v.Alike w) : w.Showing gs := by
  obtain ⟨ref, l, hgraph, hlayout, hcovers, hdrawings⟩ := h.whole
  exact ⟨ha.error ▸ h.error, ref, l, ha.graph ▸ hgraph, ha.layout ▸ hlayout, hcovers,
    ha.boxes ▸ hdrawings⟩

theorem Settled.of_alike (h : v.Settled gs attempt) (ha : v.Alike w) : w.Settled gs attempt := by
  cases h with
  | vacant h => exact .vacant ⟨ha.graph ▸ h.graph, ha.error ▸ h.error, ha.layout ▸ h.layout⟩
  | failing ref graph h cause =>
    exact .failing ref (ha.graph ▸ graph) (failing_of_error (ha.error ▸ h.error)
      (ha.layout ▸ h.layout) (ha.cache ▸ h.cache)) cause
  | showing ref graph h numbered attempted =>
    exact .showing ref (ha.graph ▸ graph) (h.of_alike ha) numbered attempted

/-- A phase that a frame keeps is settled. -/
theorem Phase.settled_of_kept {ref : Nat} (h : v.Phase gs attempt) (hg : v.graph = some ref)
    (hs : v.settled ref (gs.graph ref).size = true) : v.Settled gs attempt := by
  simp only [View.settled, Bool.or_eq_true, Bool.and_eq_true, beq_iff_eq] at hs
  cases h with
  | fresh layout error cache failed preprocessed => simp [failed, preprocessed] at hs
  | stuck r l graph edges covers layout error cache failed preprocessed =>
    simp [failed, preprocessed] at hs
  | failing r graph size layout error cache failed preprocessed =>
    have hf : v.failed = some (ref, (gs.graph ref).size) := by simpa [preprocessed] using hs
    obtain ⟨rfl, -, -, hattempt⟩ := failed _ _ hf
    exact .failing ref graph (failing_of_error error layout cache) (.inr hattempt)
  | drawn r n l graph size numbered covers layout error cache failed preprocessed drawings
      attempted =>
    obtain rfl := Option.some.inj (graph.symm.trans hg)
    have hn : n = (gs.graph r).size := by
      simpa [failed, preprocessed, LayoutCache.validFor, LayoutCache.lookup?, cache] using hs
    subst hn
    exact .showing r graph ⟨error, r, l, graph, layout, covers, drawings⟩ (numbered rfl) attempted

theorem Prepared.settled {answer : Bool} {a : Option Attempt}
    (h : Prepared v gs (.ok answer) w a) (hp : v.Phase gs attempt) :
    w.Settled gs (a.or attempt) := by
  cases h with
  | blank graph =>
    cases hp with
    | fresh layout error => exact .vacant ⟨graph, error, layout⟩
    | stuck ref l hgraph => exact nomatch graph.symm.trans hgraph
    | failing ref hgraph => exact nomatch graph.symm.trans hgraph
    | drawn ref n l hgraph => exact nomatch graph.symm.trans hgraph
  | kept ref graph settled => exact hp.settled_of_kept graph settled
  | unnumbered ref graph unnumbered =>
    exact .failing ref graph (failing_of_error rfl rfl rfl) (.inl unnumbered)
  | failed ref boxes fault graph numbered size =>
    exact .failing ref graph (failing_of_error rfl rfl rfl) (.inr rfl)
  | drawn ref l camera pending boxes edges graph numbered whole covers moves drawings =>
    exact .showing ref graph ⟨rfl, ref, l, graph, rfl, covers, drawings⟩ numbered rfl

omit [Scalar α] in
/-- Without drawings there is something to do for a graph without vertices. -/
theorem Phase.settled_of_bare {ref : Nat} (h : v.Phase gs attempt) (hg : v.graph = some ref)
    (hb : (gs.graph ref).Bare) (hpre : v.preprocessed = false) :
    v.settled ref (gs.graph ref).size = false := by
  cases h with
  | fresh layout error cache failed => simp [View.settled, hpre, failed]
  | stuck r l graph edges covers layout error cache failed => simp [View.settled, hpre, failed]
  | failing r graph size =>
    obtain rfl := Option.some.inj (graph.symm.trans hg)
    exact absurd (by simp [Graph.size, hb.1]) size
  | drawn r n l graph size numbered covers layout error cache failed preprocessed =>
    cases hpre.symm.trans preprocessed

theorem Prepared.not_bare {answer : Bool} {a : Option Attempt} {ref : Nat}
    (h : Prepared v gs (.ok answer) w a) (hp : v.Phase gs attempt) (hg : v.graph = some ref)
    (hpre : v.preprocessed = false) : ¬(gs.graph ref).Bare := by
  intro hb
  have hsize : (gs.graph ref).size = 0 := by simp [Graph.size, hb.1]
  cases h with
  | blank graph => cases graph.symm.trans hg
  | kept r graph settled =>
    obtain rfl := Option.some.inj (graph.symm.trans hg)
    cases settled.symm.trans (hp.settled_of_bare hg hb hpre)
  | unnumbered r graph unnumbered =>
    obtain rfl := Option.some.inj (graph.symm.trans hg)
    simp [Graph.verifyIntegrity, hb.1] at unnumbered
  | failed r boxes fault graph numbered size =>
    obtain rfl := Option.some.inj (graph.symm.trans hg)
    exact size hsize
  | drawn r l camera pending boxes edges graph numbered whole =>
    obtain rfl := Option.some.inj (graph.symm.trans hg)
    exact whole hb

omit [Scalar α] in
/-- While a vertex has no identifier there is something to do. -/
theorem Phase.settled_of_unnumbered {ref : Nat} (h : v.Phase gs attempt)
    (hg : v.graph = some ref) (hi : (gs.graph ref).verifyIntegrity = false) :
    v.settled ref (gs.graph ref).size = false := by
  cases h with
  | fresh layout error cache failed preprocessed => simp [View.settled, preprocessed, failed]
  | stuck r l graph edges covers layout error cache failed preprocessed =>
    simp [View.settled, preprocessed, failed]
  | failing r graph size layout error cache failed preprocessed =>
    simp only [View.settled, preprocessed, Bool.false_and, Bool.false_or, beq_eq_false_iff_ne]
    intro hf
    obtain ⟨rfl, -, hnumbered, -⟩ := failed _ _ hf
    cases hi.symm.trans (hnumbered rfl)
  | drawn r n l graph size numbered covers layout error cache failed preprocessed =>
    obtain rfl := Option.some.inj (graph.symm.trans hg)
    have hn : n ≠ (gs.graph r).size := fun hn => absurd (numbered hn) (by simp [hi])
    simp [View.settled, failed, LayoutCache.validFor, LayoutCache.lookup?, cache, hn]

/-- Of the three states that a frame may leave, a view is in one only. -/
theorem Settled.exclusive (h : v.Settled gs attempt) :
    (v.Vacant ∧ ¬v.Failing ∧ ¬v.Showing gs) ∨ (¬v.Vacant ∧ v.Failing ∧ ¬v.Showing gs) ∨
      (¬v.Vacant ∧ ¬v.Failing ∧ v.Showing gs) := by
  have hfailing (h : v.Failing) (he : v.error = none) : False := by
    have herror := h.error
    simp [he] at herror
  have hshowing (h : v.Showing gs) (hg : v.graph = none) : False := by
    obtain ⟨ref, -, hgraph, -⟩ := h.whole
    exact nomatch hg.symm.trans hgraph
  cases h with
  | vacant h =>
    exact .inl ⟨h, fun hf => hfailing hf h.error, fun hs => hshowing hs h.graph⟩
  | failing ref graph h =>
    exact .inr (.inl ⟨fun hv => hfailing h hv.error, h, fun hs => hfailing h hs.error⟩)
  | showing ref graph h =>
    exact .inr (.inr ⟨fun hv => hshowing h hv.graph, fun hf => hfailing hf h.error, h⟩)

theorem Settled.failing_iff {ref : Nat} (h : v.Settled gs attempt) (hg : v.graph = some ref) :
    v.Failing ↔ (gs.graph ref).verifyIntegrity = false ∨
      attempt = some ⟨ref, (gs.graph ref).size, true⟩ := by
  cases h with
  | vacant h => exact nomatch h.graph.symm.trans hg
  | failing r graph h cause =>
    obtain rfl := Option.some.inj (graph.symm.trans hg)
    exact ⟨fun _ => cause, fun _ => h⟩
  | showing r graph h numbered attempted =>
    obtain rfl := Option.some.inj (graph.symm.trans hg)
    constructor
    · intro hf
      have herror := hf.error
      simp [h.error] at herror
    · simp [numbered, attempted]

end View

namespace View.Stage

variable {α : Type} [RootScalar α] {s : Stage α}

/-- Whether a frame is to draw a graph that has edges but no vertices. -/
def Stuck (s : Stage α) : Prop :=
  s.view.preprocessed = false ∧
    ∃ ref, s.view.graph = some ref ∧ (s.graphs.graph ref).Bare

theorem frame_of_error {engine : LayoutEngine α} {measure : Measure Id α} {fault : Fault}
    {w : View α}
    (h : Effect.outcome (preprocess engine measure s.graphs) s.view = (.error fault, w)) :
    s.frame engine measure = (.error fault, w) := by
  rw [frame, outcome_update, h]

theorem frame_of_ok {engine : LayoutEngine α} {measure : Measure Id α} {answer : Bool} {w : View α}
    (h : Effect.outcome (preprocess engine measure s.graphs) s.view = (.ok answer, w)) :
    s.frame engine measure =
      if w.suppressed then (.ok none, w)
      else if w.needsRender || w.camera.dirty then
        (.ok (some (w.pictureNow measure s.graphs)), w.repainted)
      else (.ok none, w.rested) := by
  rw [frame, outcome_update, h]

/-- A frame fails in one way, and in that way only on a graph that has edges but no vertices. -/
theorem Coherent.frame_cases (hs : s.Coherent) (engine : LayoutEngine α) (measure : Measure Id α) :
    (s.Stuck ∧ (s.frame engine measure).1 = .error .missing) ∨
      (¬s.Stuck ∧ (∃ painted, (s.frame engine measure).1 = .ok painted) ∧
        (s.framed engine measure).view.Settled s.graphs (s.framed engine measure).attempt) := by
  have hp := hs.prepared engine measure
  have halike := (View.alike_update engine measure s.graphs s.view).1
  rcases ho : Effect.outcome (View.preprocess engine measure s.graphs) s.view with
    ⟨fault | answer, w⟩
  · rw [ho] at hp
    rw [frame_of_error ho]
    cases hp with
    | missing ref l boxes a graph bare covers error failed preprocessed =>
      exact .inl ⟨⟨preprocessed, ref, graph, bare⟩, rfl⟩
  · rw [ho] at hp halike
    refine .inr ⟨?_, ?_, (hp.settled hs.phase).of_alike halike⟩
    · rintro ⟨hpre, ref, hg, hb⟩
      exact hp.not_bare hs.phase hg hpre hb
    · rw [frame_of_ok ho]
      split
      · exact ⟨none, rfl⟩
      split
      · exact ⟨some _, rfl⟩
      · exact ⟨none, rfl⟩

/-- What happens to the edges of a graph is that one is added. -/
theorem edges_step (s : Stage α) (happening : Happening α) (ref : Nat) :
    ((s.step happening).graphs.graph ref).edges = (s.graphs.graph ref).edges ∨
      ∃ source target, happening = .alter ref (.addEdge source target) ∧
        ((s.step happening).graphs.graph ref).edges =
          (s.graphs.graph ref).edges ++ [⟨source, target⟩] := by
  cases happening with
  | create provider =>
    rcases s.graphs.graph_push (.empty provider) ref with hg | ⟨hnone, hg⟩
    · exact .inl (congrArg Graph.edges hg)
    · exact .inl ((congrArg Graph.edges hg).trans (congrArg Graph.edges hnone).symm)
  | alter r change =>
    rcases s.graphs.graph_change r change.apply ref with hg | ⟨rfl, hg⟩
    · exact .inl (congrArg Graph.edges hg)
    have hedges := congrArg Graph.edges hg
    cases change with
    | addVertex => exact .inl hedges
    | updateIdentifiers => exact .inl hedges
    | addEdge source target =>
      simp only [GraphChange.apply] at hedges
      split at hedges
      · exact .inr ⟨source, target, rfl, hedges⟩
      · exact .inl hedges
  | setGraph graph =>
    refine .inl ?_
    unfold step setGraph
    dsimp only
    split
    · split
      · rfl
      · rcases graph with _ | r
        · rfl
        · rcases s.graphs.graph_change r Graph.updateIdentifiers ref with hg | ⟨-, hg⟩
          · exact congrArg Graph.edges hg
          · have hedges := congrArg Graph.edges hg
            exact hedges
    · rfl
  | gesture gesture =>
    refine .inl ?_
    unfold step
    dsimp only
    split
    next h =>
      rcases (Gesture.touched h).graph_cases ref with hg | ⟨choice, hg⟩
      · exact congrArg Graph.edges hg
      · have hedges := congrArg Graph.edges hg
        exact hedges
    next => rfl
  | update engine measure => exact .inl rfl

/-- Whether no edge between two strangers is added to a graph. -/
def OwnEdge : Happening α → Prop
  | .alter _ (.addEdge (.outside ..) (.outside ..)) => False
  | _ => True

def Tied (s : Stage α) : Prop :=
  ∀ ref, ∀ e ∈ (s.graphs.graph ref).edges, ∃ i, e.source = .inside i ∨ e.target = .inside i

theorem Tied.step (ht : s.Tied) {happening : Happening α} (h : OwnEdge happening) :
    (s.step happening).Tied := by
  intro ref e he
  rcases s.edges_step happening ref with hedges | ⟨source, target, rfl, hedges⟩
  · exact ht ref e (hedges ▸ he)
  rw [hedges] at he
  rcases List.mem_append.mp he with he | he
  · exact ht ref e he
  obtain rfl : e = ⟨source, target⟩ := by simpa using he
  rcases source with i | _
  · exact ⟨i, .inl rfl⟩
  rcases target with i | _
  · exact ⟨i, .inr rfl⟩
  · exact h.elim

theorem Tied.run (ht : s.Tied) {happenings : List (Happening α)}
    (h : ∀ happening ∈ happenings, OwnEdge happening) : (s.run happenings).Tied := by
  induction happenings generalizing s with
  | nil => exact ht
  | cons happening rest ih =>
    exact ih (ht.step (h _ (List.mem_cons_self ..))) fun x hx => h x (List.mem_cons_of_mem _ hx)

/-- A graph without vertices has no edges that have an end in it. -/
theorem Tied.not_stuck (ht : s.Tied) (hs : s.Coherent) : ¬s.Stuck := by
  rintro ⟨-, ref, -, hvertices, hedges⟩
  obtain ⟨e, he⟩ := List.exists_mem_of_ne_nil _ hedges
  obtain ⟨i, hi⟩ := ht ref e he
  have hlt := (hs.built ref).ends e he i hi
  simp [Graph.size, hvertices] at hlt

/-- Once the vertices are numbered, a layout that succeeds ends the error state. -/
theorem Coherent.recovers (hs : s.Coherent) {ref : Nat} {l : Layout α}
    {engine : LayoutEngine α} {measure : Measure Id α} (hg : s.view.graph = some ref)
    (hi : (s.graphs.graph ref).verifyIntegrity = false)
    (hl : (s.view.laidOut engine measure (s.graphs.graph ref).updateIdentifiers).1 = .ok l) :
    let t := s.step (.alter ref .updateIdentifiers)
    (t.step (.update engine measure)).view.Showing t.graphs := by
  intro t
  have ht : t.Coherent := hs.alter ref .updateIdentifiers
  have hin : ref < s.graphs.length := by
    refine Nat.lt_of_not_le fun h => ?_
    rw [GraphStore.graph_of_length_le h] at hi
    cases hi
  have hgraph : t.graphs.graph ref = (s.graphs.graph ref).updateIdentifiers :=
    GraphStore.graph_change_self hin _
  have hnumbered : (t.graphs.graph ref).verifyIntegrity = true :=
    hgraph ▸ Graph.verifyIntegrity_updateIdentifiers _
  have hsize : (t.graphs.graph ref).size = (s.graphs.graph ref).size :=
    hgraph ▸ Graph.size_updateIdentifiers _
  have hunsettled : t.view.settled ref (t.graphs.graph ref).size = false :=
    hsize ▸ hs.phase.settled_of_unnumbered hg hi
  have hp := ht.prepared engine measure
  have halike := (View.alike_update engine measure t.graphs t.view).1
  rcases ho : Effect.outcome (View.preprocess engine measure t.graphs) t.view with ⟨r, w⟩
  rw [ho] at hp halike
  generalize ha : View.attempt? engine measure t.view t.graphs = a at hp
  cases hp with
  | blank graph => cases graph.symm.trans hg
  | kept r graph settled =>
    obtain rfl := Option.some.inj (graph.symm.trans hg)
    cases hunsettled.symm.trans settled
  | unnumbered r graph unnumbered =>
    obtain rfl := Option.some.inj (graph.symm.trans hg)
    cases hnumbered.symm.trans unnumbered
  | failed r boxes fault graph numbered size =>
    obtain rfl := Option.some.inj (graph.symm.trans hg)
    have hok : (t.view.laidOut engine measure (t.graphs.graph r)).1.isOk = true := by
      rw [hgraph]
      exact congrArg Except.isOk hl
    simp only [View.attempt?, graph, hok, Bool.not_true] at ha
    split at ha
    · cases ha
    · cases congrArg View.Attempt.failed (Option.some.inj ha)
  | drawn r l camera pending boxes edges graph numbered whole covers moves drawings =>
    refine View.Showing.of_alike ?_ halike
    exact ⟨rfl, r, l, graph, rfl, covers, drawings⟩
  | missing r l boxes a graph bare =>
    obtain rfl := Option.some.inj (graph.symm.trans hg)
    have hnone : (s.graphs.graph r).size = 0 :=
      hsize.symm.trans (List.length_eq_zero_iff.mpr bare.1)
    simp [Graph.verifyIntegrity, List.eq_nil_of_length_eq_zero hnone] at hi

/-- After every run, a frame fails if and only if it is to draw a graph that has edges but no
vertices, which takes an edge between strangers. After any other frame the view is vacant, in the
error state, or shows its graph whole; it is in the error state exactly if a vertex has no
identifier or the latest layout, of this graph with as many vertices, failed, and numbering the
vertices ends the error state if the layout succeeds. -/
theorem run_settles {width height : α} {settings : CameraSettings α} {camera : Camera α}
    (hmake : Camera.make width height settings = .ok camera) (style : ViewStyle α)
    (dragThreshold clickSuppression : α) (happenings : List (Happening α))
    (engine : LayoutEngine α) (measure : Measure Id α) :
    let s := (start camera style dragThreshold clickSuppression).run happenings
    let t := s.step (.update engine measure)
    ((∃ fault, (s.frame engine measure).1 = .error fault) ↔ s.Stuck) ∧
    ((∀ happening ∈ happenings, OwnEdge happening) → ¬s.Stuck) ∧
    (¬s.Stuck →
      ((t.view.Vacant ∧ ¬t.view.Failing ∧ ¬t.view.Showing t.graphs) ∨
        (¬t.view.Vacant ∧ t.view.Failing ∧ ¬t.view.Showing t.graphs) ∨
        (¬t.view.Vacant ∧ ¬t.view.Failing ∧ t.view.Showing t.graphs)) ∧
      ∀ ref, t.view.graph = some ref →
        (t.view.Failing ↔ (t.graphs.graph ref).verifyIntegrity = false ∨
          t.attempt = some ⟨ref, (t.graphs.graph ref).size, true⟩)) ∧
    ∀ ref l, s.view.graph = some ref → (s.graphs.graph ref).verifyIntegrity = false →
      (s.view.laidOut engine measure (s.graphs.graph ref).updateIdentifiers).1 = .ok l →
      let u := s.step (.alter ref .updateIdentifiers)
      (u.step (.update engine measure)).view.Showing u.graphs := by
  intro s t
  have hs : s.Coherent :=
    (coherent_start (Camera.sound_of_make hmake) style dragThreshold clickSuppression).run
      happenings
  have htied : (start camera style dragThreshold clickSuppression).Tied := fun _ => nofun
  refine ⟨?_, fun hown => (htied.run hown).not_stuck hs, ?_,
    fun ref l hg hi hl => hs.recovers hg hi hl⟩
  · rcases hs.frame_cases engine measure with ⟨hstuck, hfails⟩ | ⟨hstuck, ⟨painted, hok⟩, -⟩
    · exact ⟨fun _ => hstuck, fun _ => ⟨_, hfails⟩⟩
    · refine ⟨?_, fun h => absurd h hstuck⟩
      rintro ⟨fault, hfails⟩
      exact nomatch hok.symm.trans hfails
  · intro hstuck
    rcases hs.frame_cases engine measure with ⟨h, -⟩ | ⟨-, -, hsettled⟩
    · exact absurd h hstuck
    · exact ⟨hsettled.exclusive, fun ref hg => hsettled.failing_iff hg⟩

def opened : Camera Float :=
  ⟨800.0, 600.0, 0.1, 5.0, 0.005, 100.0, 0.0, 0.0, 1.0, 1.0, .idle, ⟨0.0, 0.0⟩, none, false, true⟩

theorem make_opened : Camera.make 800.0 600.0 .standard = .ok opened := rfl

def piling : LayoutEngine Float :=
  ⟨Layout.connected, Layout.connected_partitions, fun _ => .ok fun _ => ⟨⟨0.0, 0.0⟩, 0⟩⟩

def enlarged : Stage Float :=
  (start opened .standard View.standardDragThreshold View.standardClickSuppression).run
    [.create .nothing, .setGraph (some 0), .alter 0 .addVertex]

theorem enlarged_recovers :
    (enlarged.step (.update piling RecordingSurface.measure)).view.Failing ∧
      ((enlarged.step (.alter 0 .updateIdentifiers)).step
        (.update piling RecordingSurface.measure)).view.Showing
          (enlarged.step (.alter 0 .updateIdentifiers)).graphs := by
  obtain ⟨-, -, hstates, hrecovers⟩ := run_settles make_opened .standard View.standardDragThreshold
    View.standardClickSuppression
    [.create .nothing, .setGraph (some 0), .alter 0 .addVertex] piling
    RecordingSurface.measure
  have hstuck : ¬enlarged.Stuck := by
    rintro ⟨-, ref, hg, hvertices, -⟩
    obtain rfl : 0 = ref := Option.some.inj hg
    cases hvertices
  refine ⟨((hstates hstuck).2 0 rfl).mpr (.inl rfl), ?_⟩
  exact hrecovers 0 _ rfl rfl
    (Layout.ofGraph_alone (x := ⟨0, [], false⟩) (by decide) .nothing rfl)

/-- An edge between strangers in a graph without vertices: the layout succeeds, and the frame
fails. -/
theorem bare_graph_fails :
    let s := (start opened .standard View.standardDragThreshold View.standardClickSuppression).run
      [.create .nothing, .alter 0 (.addEdge (.outside 0 unassigned) (.outside 0 unassigned)),
        .setGraph (some 0)]
    (s.frame piling RecordingSurface.measure).1 = .error .missing := rfl

end View.Stage

end DebugDesk
